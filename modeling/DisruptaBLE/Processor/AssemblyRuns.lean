import DisruptaBLE.Processor.Attempt
import DisruptaBLE.Processor.ReassemblyRuns

/-!
# Reassembly over whole runs

What `try_reassemble` hands over, for every call of it in a run.

* `reassembly_sound`: from parts of one ADU it restores this ADU, and the slot and its
  fragments are removed.
* `initialised_of_covered`: from any fragments, the bytes that it hands over were copied
  from them if and only if their ranges cover the ADU that the first one announces.  The
  check trusts the total length of the fragment that it looks at, and the buffer has the
  length that the first one has.
* `complete_of_joined`: fragments that cover the ADU are recognised as complete if and only
  if the check reaches one at the end of the ADU from one to the next: it compares the
  offset of a fragment with the end of the one before, and not with the furthest end.
-/

namespace BundleProcessor

open PtrHeap BundleStorage Outcome

section Assembly

variable {P : Params} {env : Env} {s s' : Processor} {m : UInt16 → Option Addr}
  {before after : List (List Addr)} {slot : List Addr} {frags : List Bundle} {adu : Adu}

/-- The buffer before the first copy. -/
def blank (env : Env) (aduLength : Nat) : List UInt8 := (List.range aduLength).map env.garbage

/-- The state in which the fragments are copied. -/
def beforeCopies (env : Env) (s : Processor) (before : List (List Addr)) (slot : List Addr)
    (after : List (List Addr)) (b : Bundle) : Processor :=
  bundleAddReassembledAsKnown env
    { s with reassembly := before ++ slot :: after, requests := s.requests + 1 } b

/-- **The assembly of an ADU**, step by step. -/
theorem reassemble_eq {b : Bundle} {bs : List Bundle}
    (hocc : Occupied s.bundles slot (b :: bs)) (hgap : gapless 0 (b :: bs) = true)
    (hmem : (env.malloc s.requests).isSome) :
    reassemble P env s before slot after =
      copyFragments P b.totalAduLength.toNat slot 0 (blank env b.totalAduLength.toNat)
          (beforeCopies env s before slot after b) >>= fun r =>
        .ok (some { bundleAduInit b with payload := r.1 },
          { r.2 with reassembly := before ++ after }) := by
  cases slot with
  | nil => cases hocc
  | cons first others =>
      have hfirst : s.bundles.cells first = some b := (List.cons.inj hocc).1
      unfold reassemble
      dsimp only
      rw [canReassemble_eq (s := { s with reassembly := before ++ (first :: others) :: after })
        hocc, hgap, ok_bind]
      dsimp only
      rw [bundle_of_cell (s := { s with reassembly := before ++ (first :: others) :: after })
        hfirst, ok_bind]
      unfold malloc
      obtain ⟨gap, hgap⟩ := Option.isSome_iff_exists.mp hmem
      dsimp only
      rw [hgap]
      rfl

/-- An ADU is assembled only if there is no gap, and memory for its payload. -/
theorem gapless_of_reassemble (hocc : Occupied s.bundles slot frags)
    (h : reassemble P env s before slot after = .ok (some adu, s')) :
    gapless 0 frags = true ∧ (env.malloc s.requests).isSome ∧ ∃ b bs, frags = b :: bs := by
  unfold reassemble at h
  dsimp only at h
  rw [canReassemble_eq (s := { s with reassembly := before ++ slot :: after }) hocc,
    ok_bind] at h
  cases hgap : gapless 0 frags with
  | false =>
      rw [hgap] at h
      obtain ⟨hnone, _⟩ := Prod.mk.inj (Except.ok.inj h)
      cases hnone
  | true =>
      rw [hgap] at h
      cases slot with
      | nil =>
          obtain ⟨hnone, _⟩ := Prod.mk.inj (Except.ok.inj h)
          cases hnone
      | cons first others =>
          obtain ⟨b, bs, rfl, hfirst, _⟩ := occupied_cons hocc
          refine ⟨rfl, ?_, b, bs, rfl⟩
          dsimp only at h
          rw [bundle_of_cell (s := { s with reassembly := before ++ (first :: others) :: after })
            hfirst, ok_bind] at h
          unfold malloc at h
          cases hmem : env.malloc s.requests with
          | some gap => rfl
          | none =>
              dsimp only at h
              rw [hmem] at h
              obtain ⟨hnone, _⟩ := Prod.mk.inj (Except.ok.inj h)
              cases hnone

/-- How an ADU was assembled. -/
theorem reassemble_some (hocc : Occupied s.bundles slot frags)
    (h : reassemble P env s before slot after = .ok (some adu, s')) :
    ∃ b bs payload s₁, frags = b :: bs ∧ gapless 0 frags = true ∧
      copyFragments P b.totalAduLength.toNat slot 0 (blank env b.totalAduLength.toNat)
        (beforeCopies env s before slot after b) = .ok (payload, s₁) ∧
      adu = { bundleAduInit b with payload := payload } ∧
      s' = { s₁ with reassembly := before ++ after } := by
  obtain ⟨hgap, hmem, b, bs, rfl⟩ := gapless_of_reassemble hocc h
  rw [reassemble_eq hocc hgap hmem] at h
  obtain ⟨⟨payload, s₁⟩, hcopy, h⟩ := ok_of_bind h
  obtain ⟨hadu, hs'⟩ := Prod.mk.inj (Except.ok.inj h)
  exact ⟨b, bs, payload, s₁, rfl, hgap, hcopy, (Option.some.inj hadu).symm, hs'.symm⟩

/-! ## Parts of one ADU -/

/-- A fragment is neither in memory nor in the storage. -/
def Freed (s : Processor) (x : Addr) : Prop :=
  s.bundles.cells x = none ∧ ∀ id, bundleStorageGet s.store id ≠ .ok (some x)

theorem SoundParts.freed {careful exact : Prop} {l : List Addr}
    (hs : Sound careful exact s m l) {x : Addr} (hx : s.bundles.cells x = none) :
    Freed s x := by
  refine ⟨hx, fun id hget => ?_⟩
  rw [hs.rep.get] at hget
  exact hs.not_stored_of_none hx id (Except.ok.inj hget)

theorem length_blank (env : Env) (n : Nat) : (blank env n).length = n := by
  simp [blank]

/-- The bytes that are handed over. -/
theorem payload_of_reassemble (hocc : Occupied s.bundles slot frags)
    (h : reassemble P env s before slot after = .ok (some adu, s')) :
    ∃ b bs, frags = b :: bs ∧ gapless 0 frags = true ∧ adu = { bundleAduInit b with
      payload := (copies P b.totalAduLength.toNat frags 0).foldl Copy.write
        (blank env b.totalAduLength.toNat) } := by
  obtain ⟨b, bs, payload, s₁, rfl, hgap, hcopy, rfl, _⟩ := reassemble_some hocc h
  have hpayload := copyFragments_payload (s := beforeCopies env s before slot after b) hocc hcopy
  exact ⟨b, bs, rfl, hgap, by rw [hpayload]⟩

/-- The invariant when the fragments are copied. -/
theorem SoundParts.beforeCopies {careful exact : Prop}
    (hs : Sound careful exact s m (before ++ slot :: after).flatten) (env : Env) (b : Bundle) :
    Sound careful exact (beforeCopies env s before slot after b) m
      (slot ++ (before ++ after).flatten) := by
  have hperm := flatten_between before slot after
  exact hs.withFrags (fun x hx => hs.below x (hperm.mem_iff.mp hx))
    fun hc => (hs.frags hc).perm hperm

/-- After the assembly the fragments of the slot are gone, and the slot with them. -/
theorem freed_of_reassemble {careful exact : Prop}
    (hs : Sound careful exact s m (before ++ slot :: after).flatten)
    (hocc : Occupied s.bundles slot frags)
    (h : reassemble P env s before slot after = .ok (some adu, s')) :
    (∃ m', Sound careful exact s' m' (before ++ after).flatten ∧
        ∀ id x, m' id = some x → m id = some x) ∧
      s'.reassembly = before ++ after ∧ ∀ x ∈ slot, Freed s' x := by
  obtain ⟨b, bs, payload, s₁, rfl, _, hcopy, _, rfl⟩ := reassemble_some hocc h
  obtain ⟨m₁, hs₁, hfades, _, _, hgone⟩ :=
    (copyFragments_spec (hs.beforeCopies env b) _ _ _).of_ok hcopy
  exact ⟨⟨m₁, hs₁, hfades.map⟩, rfl, fun x hx => hs₁.freed (hgone x hx)⟩

end Assembly

/-! ## Any fragments -/

theorem Occupied.sorted {h : Heap Bundle} {slot : List Addr} {frags : List Bundle}
    (hocc : Occupied h slot frags) (hsorted : ByOffset h slot) :
    frags.Pairwise fun b c => b.fragmentOffset ≤ c.fragmentOffset := by
  induction slot generalizing frags with
  | nil =>
      obtain rfl := occupied_nil hocc
      exact .nil
  | cons x xs ih =>
      obtain ⟨b, bs, rfl, hx, hxs⟩ := occupied_cons hocc
      obtain ⟨hfirst, hrest⟩ := List.pairwise_cons.mp hsorted
      refine List.pairwise_cons.mpr ⟨fun c hc => ?_, ih hxs hrest⟩
      have hmem : some c ∈ xs.map h.cells := by
        rw [hxs]
        exact List.mem_map_of_mem hc
      obtain ⟨y, hy, hcell⟩ := List.mem_map.mp hmem
      exact hfirst y hy b c hx hcell

/-- The copies do not change the length of the buffer. -/
theorem length_write_copies (cs : List Copy) {T : Nat}
    (hin : ∀ c ∈ cs, c.offset + c.count ≤ c.source.payload.data.bytes.length ∧
      c.pos + c.count ≤ T) {payload : List UInt8} (hlen : payload.length = T) :
    (cs.foldl Copy.write payload).length = T := by
  induction cs generalizing payload with
  | nil => exact hlen
  | cons c cs ih =>
      obtain ⟨hsource, htarget⟩ := hin c List.mem_cons_self
      obtain ⟨hpiece, hwrite⟩ := Copy.write_eq_splice payload hsource
      apply ih fun d hd => hin d (List.mem_cons_of_mem _ hd)
      rw [hwrite, Splice.length_splice]
      · exact hlen
      · rw [hpiece, hlen]
        exact htarget

/-! ## Attempts of the small node -/

/-- A fragment with an offset, a payload and a total length. -/
def piece (offset : UInt32) (data : Buffer) (total : UInt32) : Bundle :=
  { note "dtn://n/a" [] with
    procFlags := flagIsFragment
    fragmentOffset := offset
    totalAduLength := total
    payload := ⟨1, 0, data, [], .none⟩ }

/-- The small node with one more bundle. -/
def storing (s : Processor) (b : Bundle) : Processor := settle (storeBundle calm s b)

/-- The small node when the bundle at an address is about to enter its slot. -/
def entering (s : Processor) (a : Addr) : Processor :=
  settle (beforeAttempt smallNode calm s a .incoming)

/-- The attempt of the small node with the bundle at an address. -/
def attempting (s : Processor) (a : Addr) : Attempt :=
  match prepareAttempt smallNode calm (entering s a) a with
  | .ok (.inr t) => t
  | _ => ⟨s, [], [], []⟩

/-- The ADU that the small node assembles, and the state. -/
def assembling (t : Attempt) : Option Adu × Processor :=
  match reassemble smallNode calm t.state t.before t.slot t.after with
  | .ok r => r
  | .error _ => (none, t.state)

theorem attempts_arriving {C : Env → Processor → Signal → Prop} {s : Processor} (id : UInt16)
    (a : Addr) (b b₁ : Bundle) (hs : Reachable smallNode C s)
    (hC : C calm s (.bundle id .incoming))
    (hget : bundleStorageGet s.store id = .ok (some a)) (hb : s.bundles.cells a = some b)
    (hcourse : signalCourse smallNode calm s a b .incoming = some .fragment)
    (hbefore : beforeAttempt smallNode calm s a .incoming = .ok (entering s a))
    (hb₁ : (entering s a).bundles.cells a = some b₁)
    (hnew : bundleReassembledIsKnown (entering s a) b₁ = false)
    (hprep : prepareAttempt smallNode calm (entering s a) a = .ok (.inr (attempting s a))) :
    Attempts smallNode C calm (attempting s a) :=
  ⟨s, _, _, a, b, _, b₁, hs, hC, ⟨id, rfl, hget, hb⟩, hcourse, hbefore, hb₁, hnew, hprep⟩

/-- **Reassembly is sound.**  Whenever `try_reassemble` hands over an ADU, and the fragments
of its slot are parts of one, this is the one; no copy leaves a payload or the buffer, and
the slot and its fragments are removed, before and after the delivery. -/
theorem reassembly_sound (P : Params) (env : Env) (t : Attempt)
    (ht : Attempts P (fun _ _ _ => True) env t) (u : List UInt8) (frags : List Bundle)
    (hocc : Occupied t.state.bundles t.slot frags) (hparts : ∀ b ∈ frags, PartOf u b)
    (adu : Adu) (s' : Processor)
    (hrun : reassemble P env t.state t.before t.slot t.after = .ok (some adu, s')) :
    tryReassemble P env t.state t.before t.slot t.after = bundleDeliverAdu P s' adu ∧
      adu.payload = u ∧
      (∀ c ∈ copies P u.length frags 0, c.source ∈ frags ∧
        c.offset + c.count ≤ c.source.payload.data.bytes.length ∧ c.pos + c.count ≤ u.length) ∧
      (s'.reassembly = t.before ++ t.after ∧ ∀ x ∈ t.slot, Freed s' x) ∧
      ∀ s'', bundleDeliverAdu P s' adu = .ok s'' →
        s''.reassembly = t.before ++ t.after ∧ ∀ x ∈ t.slot, Freed s'' x := by
  obtain ⟨_, _, _, _, _, _, _, hready⟩ := ht.ready False False.elim
  obtain ⟨m, hs⟩ := hready.sound
  obtain ⟨b, bs, rfl, hgap, hadu⟩ := payload_of_reassemble hocc hrun
  obtain ⟨⟨m', hs', _⟩, hreas, hgone⟩ := freed_of_reassemble hs hocc hrun
  have hb := hparts b List.mem_cons_self
  refine ⟨?_, ?_, ?_, ⟨hreas, hgone⟩, ?_⟩
  · rw [tryReassemble_eq, hrun]
    rfl
  · rw [hadu]
    dsimp only
    rw [hb.total]
    exact write_copies P hparts hgap (Nat.le_refl _) (Nat.zero_le _) (length_blank _ _) rfl
  · exact copies_within P (b :: bs) (Nat.zero_le _) hb.length_lt
  · intro s'' hdeliver
    rw [← hreas] at hs'
    obtain ⟨m'', hs'', hfades, hreas', _⟩ :=
      (bundleDeliverAdu_spec hs' False.elim).of_ok hdeliver
    exact ⟨hreas'.trans hreas, fun x hx => hs''.freed (hfades.gone (hgone x hx).1)⟩

/-- The first byte of two. -/
def partA : Bundle := piece 0 ⟨[1], by decide⟩ 2

/-- The second byte of two. -/
def partB : Bundle := piece 1 ⟨[2], by decide⟩ 2

/-- The first of two fragments has entered its slot, and the second one arrives. -/
def secondOf (b c : Bundle) : Processor :=
  storing (handling (holding b) (.bundle 1 .incoming)) c

/-- A bundle that waits in its slot. -/
def waiting (id : UInt16) (b : Bundle) : Bundle := { b with id, ret := .reassemblyOnly }

theorem attempts_two {C : Env → Processor → Signal → Prop}
    (hC₁ : C calm (holding partA) (.bundle 1 .incoming))
    (hC₂ : C calm (secondOf partA partB) (.bundle 2 .incoming)) :
    Attempts smallNode C calm (attempting (secondOf partA partB) 1) := by
  have h₁ := reachable_holding C (b := partA) rfl
  have h₂ := reachable_handling h₁ (.bundle 1 .incoming) hC₁ rfl
  have h₃ : Reachable smallNode C (secondOf partA partB) := reachable_storing h₂ partB rfl
  exact attempts_arriving 2 1 { partB with id := 2 } (waiting 2 partB) h₃ hC₂
    rfl rfl rfl rfl rfl rfl rfl

/-- The two bytes are restored. -/
theorem reassembly_sound_two :
    ∃ (t : Attempt) (adu : Adu) (s' : Processor),
      reassemble smallNode calm t.state t.before t.slot t.after = .ok (some adu, s') ∧
      adu.payload = [1, 2] ∧ s'.reassembly = [] := by
  obtain ⟨_, hpayload, _, ⟨hreas, _⟩, _⟩ := reassembly_sound smallNode calm _
    (attempts_two trivial trivial) [1, 2] [waiting 1 partA, waiting 2 partB] rfl
    (by
      intro b hb
      rcases List.mem_pair.mp hb with rfl | rfl
      · exact ⟨rfl, by decide, rfl⟩
      · exact ⟨rfl, by decide, rfl⟩)
    ⟨7, 0, "dtn://m/b".toList, "dtn://n/a".toList, [1, 2]⟩ _ rfl
  exact ⟨attempting (secondOf partA partB) 1, _, _, rfl, hpayload, hreas⟩

/-- **No uninitialised data.**  Whenever `try_reassemble` hands over an ADU, every byte of it
was copied from a fragment that has this byte, if and only if the ranges of the fragments
cover as many bytes as the first fragment announces. -/
theorem initialised_of_covered (P : Params) (env : Env) (t : Attempt)
    (ht : Attempts P (fun _ _ _ => True) env t) (b : Bundle) (bs : List Bundle)
    (hocc : Occupied t.state.bundles t.slot (b :: bs)) (adu : Adu) (s' : Processor)
    (hrun : reassemble P env t.state t.before t.slot t.after = .ok (some adu, s')) :
    adu.payload = (copies P adu.payload.length (b :: bs) 0).foldl Copy.write
        (blank env adu.payload.length) ∧
      ((∀ i, i < adu.payload.length → CopiedFrom (copies P adu.payload.length (b :: bs) 0) i) ↔
        ∀ i, i < b.totalAduLength.toNat → Covered (b :: bs) i) := by
  obtain ⟨_, _, _, _, _, _, _, hready⟩ := ht.ready False False.elim
  obtain ⟨b', bs', heq, _, hadu⟩ := payload_of_reassemble hocc hrun
  obtain ⟨rfl, rfl⟩ := List.cons.inj heq
  have hT : b.totalAduLength.toNat < 2 ^ 32 := b.totalAduLength.toNat_lt
  have hwithin := copies_within P (b :: bs) (Nat.zero_le b.totalAduLength.toNat) hT
  have hlen : adu.payload.length = b.totalAduLength.toNat := by
    rw [hadu]
    exact length_write_copies _ (fun c hc => (hwithin c hc).2) (length_blank _ _)
  rw [hlen]
  refine ⟨congrArg Adu.payload hadu, ?_, ?_⟩
  · intro hcopied i hi
    obtain ⟨c, hc, _, _, hlo, hhi, _⟩ := hcopied i hi
    exact ⟨c.source, (hwithin c hc).1, hlo, hhi⟩
  · intro hcov i hi
    exact copied_of_covered P (hocc.sorted hready.sorted) hT (fun j _ hj => hcov j hj) i
      (Nat.zero_le i) hi

/-- Both bytes are copied from the fragments that have them. -/
theorem initialised_of_covered_two :
    CopiedFrom (copies smallNode 2 [waiting 1 partA, waiting 2 partB] 0) 0 ∧
      CopiedFrom (copies smallNode 2 [waiting 1 partA, waiting 2 partB] 0) 1 := by
  obtain ⟨_, hiff⟩ := initialised_of_covered smallNode calm _
    (attempts_two trivial trivial) (waiting 1 partA) [waiting 2 partB] rfl
    ⟨7, 0, "dtn://m/b".toList, "dtn://n/a".toList, [1, 2]⟩ _ rfl
  have hall := hiff.mpr ?_
  · exact ⟨hall 0 (by decide), hall 1 (by decide)⟩
  intro i hi
  obtain rfl | rfl : i = 0 ∨ i = 1 := by
    have htwo : i < 2 := hi
    omega
  · exact ⟨waiting 1 partA, by simp, by decide, by decide⟩
  · exact ⟨waiting 2 partB, by simp, by decide, by decide⟩

/-- The first byte of three. -/
def longA : Bundle := piece 0 ⟨[1], by decide⟩ 3

/-- The last of three bytes is handed over, but no fragment has it. -/
theorem uninitialised_byte :
    ¬ ∀ (P : Params) (env : Env) (t : Attempt), Attempts P (fun _ _ _ => True) env t →
      ∀ (frags : List Bundle) (adu : Adu) (s' : Processor),
        Occupied t.state.bundles t.slot frags →
        reassemble P env t.state t.before t.slot t.after = .ok (some adu, s') →
        ∀ i, i < adu.payload.length → CopiedFrom (copies P adu.payload.length frags 0) i := by
  intro hall
  have h₁ := reachable_holding (fun _ _ _ => True) (b := longA) rfl
  have h₂ := reachable_handling h₁ (.bundle 1 .incoming) trivial rfl
  have h₃ : Reachable smallNode _ (secondOf longA partB) := reachable_storing h₂ partB rfl
  have ht := attempts_arriving 2 1 { partB with id := 2 } (waiting 2 partB) h₃ trivial
    rfl rfl rfl rfl rfl rfl rfl
  obtain ⟨c, hc, _, hlt, _⟩ := hall smallNode calm _ ht [waiting 1 longA, waiting 2 partB]
    ⟨7, 0, "dtn://m/b".toList, "dtn://n/a".toList, [1, 2, 0]⟩ _ rfl rfl 2 (by decide)
  have hends : ∀ c ∈ copies smallNode 3 [waiting 1 longA, waiting 2 partB] 0,
      c.pos + c.count ≤ 2 := by decide
  exact absurd hlt (Nat.not_lt.mpr (hends c hc))

/-! ## Complete slots -/

/-- Each fragment begins no later than the one before it ends. -/
def Joined : Nat → List Bundle → Prop
  | _, [] => True
  | pos, b :: bs => b.begins ≤ pos ∧ Joined b.ends bs

/-- The number of payload bytes of some bundles. -/
def payloadBytes (frags : List Bundle) : Nat := (frags.map fun b => b.payloadLength.toNat).sum

section Complete

variable {P : Params} {env : Env} {s : Processor} {m : UInt16 → Option Addr} {a : Addr}
  {b : Bundle} {exact : Prop} {frags : List Bundle} {slot rest : List Addr} {T : Nat}

/-- **The check** passes if a joined sequence of fragments leads to the end of the ADU. -/
theorem gapless_iff (hfit : ∀ b ∈ frags, b.totalAduLength.toNat = T ∧ b.ends ≤ T)
    (pos : UInt32) :
    gapless pos frags = true ↔
      ∃ l x l', frags = l ++ x :: l' ∧ Joined pos.toNat (l ++ [x]) ∧ x.ends = T := by
  induction frags generalizing pos with
  | nil => simp [gapless]
  | cons b bs ih =>
      obtain ⟨htotal, hin⟩ := hfit b List.mem_cons_self
      have hlt : T < 2 ^ 32 := by
        rw [← htotal]
        exact b.totalAduLength.toNat_lt
      have hend : (b.fragmentOffset + b.payloadLength).toNat = b.ends := by
        unfold Bundle.ends at hin
        rw [UInt32.toNat_add, Nat.mod_eq_of_lt (by omega)]
        rfl
      have hrest := ih (fun c hc => hfit c (List.mem_cons_of_mem _ hc))
        (b.fragmentOffset + b.payloadLength)
      rw [hend] at hrest
      unfold gapless
      split
      · next hgap =>
        refine ⟨fun h => absurd h (by simp), ?_⟩
        rintro ⟨l, x, l', heq, hjoined, _⟩
        have hle : b.begins ≤ pos.toNat := by
          cases l with
          | nil =>
              obtain ⟨rfl, _⟩ := List.cons.inj heq
              exact hjoined.1
          | cons c cs =>
              obtain ⟨rfl, _⟩ := List.cons.inj heq
              exact hjoined.1
        exact absurd (UInt32.lt_iff_toNat_lt.mp hgap) (Nat.not_lt.mpr hle)
      next hle =>
      have hbegins : b.begins ≤ pos.toNat := UInt32.le_iff_toNat_le.mp (UInt32.not_lt.mp hle)
      dsimp only
      split
      · next hdone =>
        rw [UInt32.le_iff_toNat_le, htotal, hend] at hdone
        exact ⟨fun _ => ⟨[], b, bs, rfl, ⟨hbegins, trivial⟩, Nat.le_antisymm hin hdone⟩,
          fun _ => rfl⟩
      · next hmore =>
        rw [UInt32.le_iff_toNat_le, htotal, hend] at hmore
        rw [hrest]
        constructor
        · rintro ⟨l, x, l', rfl, hjoined, hx⟩
          exact ⟨b :: l, x, l', rfl, ⟨hbegins, hjoined⟩, hx⟩
        · rintro ⟨l, x, l', heq, hjoined, hx⟩
          cases l with
          | nil =>
              obtain ⟨rfl, _⟩ := List.cons.inj heq
              omega
          | cons c cs =>
              obtain ⟨rfl, rfl⟩ := List.cons.inj heq
              exact ⟨cs, x, l', rfl, hjoined.2, hx⟩

/-- **`bundle_discard`** of a stored bundle ends well if the byte counter covers it. -/
theorem bundleDiscard_cases (hs : Sound True exact s m slot) (hb : s.bundles.cells a = some b)
    (hret : b.ret = .none) (hid : b.id ≠ invId) :
    (b.payloadLength ≤ s.store.bundleBytes ∧ ∃ s', bundleDiscard s a = .ok s' ∧
      s'.store.bundleBytes = s.store.bundleBytes - b.payloadLength) ∨
    (¬ b.payloadLength ≤ s.store.bundleBytes ∧ ∃ f, bundleDiscard s a = .error f) := by
  obtain ⟨tree, hholds, hcont⟩ := hs.rep
  have hm : m b.id = some a := hs.ids a b hb hid
  have hget : bundleStorageGet s.store b.id = .ok (some a) := by
    rw [hs.rep.get, hm]
  have hstored : contents tree b.id = some a := by
    rw [hcont]
    exact hm
  have hdiscard : bundleDiscard s a = outside (bundleStorageDelete s.store b.id
      fun _ => ⟨b.id, some b.payloadLength⟩) >>= fun r => bundleDrop { s with store := r.2 } a := by
    unfold bundleDiscard storageDelete
    rw [bundle_of_cell hb, ok_bind, hget]
    show (s.bundle a >>= _) >>= _ = _
    rw [bundle_of_cell hb, ok_bind, bind_assoc]
    rfl
  have hdrop : ∀ store, bundleDrop { s with store := store } a =
      .ok { s with store := store, bundles := s.bundles.erase a } := by
    intro store
    unfold bundleDrop
    rw [bundle_of_cell (s := { s with store := store }) hb, ok_bind, if_pos hret]
    rfl
  by_cases hle : b.payloadLength ≤ s.store.bundleBytes
  · have hdelete : ∃ store t', bundleStorageDelete s.store b.id
        (fun _ => ⟨b.id, some b.payloadLength⟩) = .ok (true, store) ∧ StoreHolds store t' ∧
        contents t' = Function.update (contents tree) b.id none ∧
        store.bundleBytes = s.store.bundleBytes - b.payloadLength :=
      bundleStorageDelete_stored hholds hstored hle
    obtain ⟨store, _, hrun, _, _, hbytes⟩ := hdelete
    refine Or.inl ⟨hle, { s with store := store, bundles := s.bundles.erase a }, ?_, hbytes⟩
    rw [hdiscard, hrun]
    exact hdrop store
  · have hdelete : bundleStorageDelete s.store b.id (fun _ => ⟨b.id, some b.payloadLength⟩) =
        .error .assertFailed := bundleStorageDelete_overdrawn hholds hstored hle
    refine Or.inr ⟨hle, .other .assertFailed, ?_⟩
    rw [hdiscard, hdelete]
    rfl

/-- **The copying loop** ends well if the byte counter covers the fragments. -/
theorem copyFragments_ok_iff (hs : Sound True exact s m (slot ++ rest))
    (hocc : Occupied s.bundles slot frags) (hids : ∀ b ∈ frags, b.id ≠ invId) (pos : Nat)
    (payload : List UInt8) :
    (∃ r, copyFragments P T slot pos payload s = .ok r) ↔
      payloadBytes frags ≤ s.store.bundleBytes.toNat := by
  induction slot generalizing s m frags pos payload with
  | nil =>
      obtain rfl := occupied_nil hocc
      exact ⟨fun _ => Nat.zero_le _, fun _ => ⟨_, rfl⟩⟩
  | cons x xs ih =>
      obtain ⟨b, bs, rfl, hx, hxs⟩ := occupied_cons hocc
      have hnew : x ∉ xs ++ rest := (List.nodup_cons.mp (hs.frags trivial).nodup).1
      have hacc : x ∉ s.accepted := fun hmem =>
        not_frag_of_accepted hs trivial hmem List.mem_cons_self
      have hretb : b.ret = .reassemblyOnly := (hs.frags trivial).ret List.mem_cons_self hx
      have htail : Sound True exact s m (xs ++ rest) :=
        hs.withFrags (fun y hy => hs.below y (List.mem_cons_of_mem _ hy))
          fun hc => (hs.frags hc).sublist (List.sublist_cons_self _ _)
      let b' : Bundle := { b with ret := { b.ret with reassemblyPending := false } }
      have hret : b'.ret = .none := by
        show { b.ret with reassemblyPending := false } = RetConstraints.none
        rw [hretb]
        rfl
      have hs₁ : Sound True exact (s.put x b') m (xs ++ rest) :=
        htail.set_ret hx _ (fun _ h => absurd h hacc) (fun _ h => absurd h hnew)
      have hsum : payloadBytes (b :: bs) = b.payloadLength.toNat + payloadBytes bs := by
        simp [payloadBytes]
      unfold copyFragments
      rw [bundle_of_cell hx, ok_bind, update_of_cell hx, ok_bind, hsum]
      rcases bundleDiscard_cases hs₁ (put_self _ _ _) hret (hids b List.mem_cons_self) with
        ⟨hle, s₂, hdisc, hbytes⟩ | ⟨hgt, f, hdisc⟩
      · obtain ⟨hs₂, hdone⟩ := (bundleDiscard_spec hs₁ (put_self _ _ _) (fun _ => hret)
          (fun _ => hacc) (fun _ => hnew)).of_ok hdisc
        have hocc₂ : Occupied s₂.bundles xs bs := by
          rw [Occupied, ← hxs]
          apply List.map_congr_left
          intro y hy
          have hne : y ≠ x := by
            rintro rfl
            exact hnew (List.mem_append_left _ hy)
          rw [hdone.others y hne, put_ne _ hne]
        have hcount : s₂.store.bundleBytes.toNat =
            s.store.bundleBytes.toNat - b.payloadLength.toNat := by
          rw [hbytes]
          exact UInt32.toNat_sub_of_le _ _ hle
        have hle' : b.payloadLength.toNat ≤ s.store.bundleBytes.toNat := hle
        have hgo := ih hs₂ hocc₂ fun c hc => hids c (List.mem_cons_of_mem _ hc)
        rw [hdisc, ok_bind]
        split
        · rw [hgo, hcount]
          omega
        · rw [hgo, hcount]
          omega
      · rw [hdisc]
        refine ⟨?_, ?_⟩
        · rintro ⟨r, hr⟩
          cases hr
        · intro hle
          have hlt : ¬ b.payloadLength.toNat ≤ s.store.bundleBytes.toNat := hgt
          omega

end Complete

/-- The fragments of an attempt have ids. -/
theorem Ready.id_ne {P : Params} {C : Env → Processor → Signal → Prop} {careful exact : Prop}
    {s : Processor} {sig : Signal} {type : BundleSignal} {a : Addr} {b : Bundle} {t : Attempt}
    (h : Ready careful exact s a t) (hreach : Reachable P C s) (habout : About s sig type a b)
    {frags : List Bundle} (hocc : Occupied t.state.bundles t.slot frags) {c : Bundle}
    (hc : c ∈ frags) : c.id ≠ invId := by
  obtain ⟨m, hs⟩ := hreach.sound False False False.elim False.elim
  have hmem : some c ∈ t.slot.map t.state.bundles.cells := by
    rw [hocc]
    exact List.mem_map_of_mem hc
  obtain ⟨x, hx, hcell⟩ := List.mem_map.mp hmem
  have hb : s.bundles.cells a = some b := by
    obtain ⟨_, _, _, hb⟩ := habout
    exact hb
  rcases List.mem_cons.mp (h.within hx) with rfl | hx
  · obtain ⟨b', hb', hbare⟩ := h.evolves.cells x (Heap.lt_bound_of_cell hb) c hcell
    rw [hb] at hb'
    obtain rfl := Option.some.inj hb'
    exact lasting_id b c hbare (habout.id_ne hs)
  · obtain ⟨d, hd, hbare⟩ := h.evolves.cells x (hs.below x hx) c hcell
    exact lasting_id d c hbare (hreach.fragment_ids x hx d hd)

/-- **Reassembly is complete**, for fragments that agree on the length of the ADU and lie
within it, if and only if a joined sequence of them, from the first one on, leads to its end
(so that they cover it), and the byte counter of the storage covers their payloads. -/
theorem complete_of_joined (P : Params) (env : Env) (t : Attempt)
    (ht : Attempts P (Harmless P) env t) (frags : List Bundle)
    (hocc : Occupied t.state.bundles t.slot frags) (T : Nat)
    (hfit : ∀ b ∈ frags, b.totalAduLength.toNat = T ∧ b.ends ≤ T)
    (hmem : (env.malloc t.state.requests).isSome) :
    (∃ adu s', reassemble P env t.state t.before t.slot t.after = .ok (some adu, s')) ↔
      (∃ l x l', frags = l ++ x :: l' ∧ Joined 0 (l ++ [x]) ∧ x.ends = T) ∧
      payloadBytes frags ≤ t.state.store.bundleBytes.toNat := by
  obtain ⟨s, sig, type, a, b, hreach, habout, hready⟩ := ht.ready True fun _ _ _ _ h => h
  obtain ⟨m, hs⟩ := hready.sound
  have hids : ∀ c ∈ frags, c.id ≠ invId := fun c hc =>
    hready.id_ne hreach habout hocc hc
  constructor
  · rintro ⟨adu, s', hrun⟩
    obtain ⟨c, cs, payload, s₁, rfl, hgap, hcopy, _, _⟩ := reassemble_some hocc hrun
    exact ⟨(gapless_iff hfit 0).mp hgap,
      (copyFragments_ok_iff (hs.beforeCopies env c) hocc hids _ _).mp ⟨_, hcopy⟩⟩
  · rintro ⟨hjoined, hbytes⟩
    have hgap := (gapless_iff hfit 0).mpr hjoined
    obtain ⟨c, cs, rfl⟩ : ∃ c cs, frags = c :: cs := by
      cases frags with
      | nil => cases hgap
      | cons c cs => exact ⟨c, cs, rfl⟩
    obtain ⟨r, hcopy⟩ := (copyFragments_ok_iff (P := P) (T := c.totalAduLength.toNat)
      (hs.beforeCopies env c) hocc hids 0 (blank env c.totalAduLength.toNat)).mpr hbytes
    refine ⟨{ bundleAduInit c with payload := r.1 },
      { r.2 with reassembly := t.before ++ t.after }, ?_⟩
    rw [reassemble_eq hocc hgap hmem, hcopy, ok_bind]

theorem harmless_arriving {s : Processor} {id : UInt16} {a : Addr} {b : Bundle}
    (hget : bundleStorageGet s.store id = .ok (some a)) (hb : s.bundles.cells a = some b)
    (h : SignalHarmless smallNode calm s a b .incoming) :
    Harmless smallNode calm s (.bundle id .incoming) := by
  intro type a' b' habout
  obtain ⟨rfl, rfl, rfl⟩ := about_eq hget hb habout
  exact h

/-- Two bytes are recognised as complete. -/
theorem complete_of_joined_two :
    ∃ adu s', reassemble smallNode calm (attempting (secondOf partA partB) 1).state [] [0, 1] [] =
      .ok (some adu, s') := by
  have hC₁ : Harmless smallNode calm (holding partA) (.bundle 1 .incoming) :=
    harmless_arriving (a := 0) rfl rfl ⟨by decide +kernel, rfl, rfl, Or.inl (by decide +kernel)⟩
  have hC₂ : Harmless smallNode calm (secondOf partA partB) (.bundle 2 .incoming) :=
    harmless_arriving (a := 1) rfl rfl ⟨by decide +kernel, rfl, rfl, Or.inl (by decide +kernel)⟩
  apply (complete_of_joined smallNode calm _ (attempts_two hC₁ hC₂)
    [waiting 1 partA, waiting 2 partB] rfl 2 (by decide) rfl).mpr
  exact ⟨⟨[waiting 1 partA], waiting 2 partB, [], rfl,
    ⟨by decide, by decide, trivial⟩, by decide⟩, by decide +kernel⟩

/-- The first two bytes of three. -/
def twoOfThree : Bundle := piece 0 ⟨[1, 2], Buffer.oneTwo_fits⟩ 3

/-- The last byte of three. -/
def lastOfThree : Bundle := piece 2 ⟨[3], by decide⟩ 3

/-- The first two bytes and the first byte have entered their slot, and the last one
arrives. -/
def thirdOf : Processor :=
  storing (handling (secondOf twoOfThree longA) (.bundle 2 .incoming)) lastOfThree

/-- All three bytes have arrived, the first one twice, and nothing is handed over. -/
theorem contained_fragment :
    ¬ ∀ (P : Params) (env : Env) (t : Attempt), Attempts P (Harmless P) env t →
      ∀ (frags : List Bundle) (T : Nat), Occupied t.state.bundles t.slot frags →
        (∀ b ∈ frags, b.totalAduLength.toNat = T ∧ b.ends ≤ T) →
        (∀ i, i < T → Covered frags i) → (env.malloc t.state.requests).isSome →
        ∃ adu s', reassemble P env t.state t.before t.slot t.after = .ok (some adu, s') := by
  intro hall
  have h₁ := reachable_holding (Harmless smallNode) (b := twoOfThree) rfl
  have h₂ := reachable_handling h₁ (.bundle 1 .incoming) (harmless_arriving (a := 0) rfl rfl
    ⟨by decide +kernel, rfl, rfl, Or.inl (by decide +kernel)⟩) rfl
  have h₃ : Reachable smallNode (Harmless smallNode) (secondOf twoOfThree longA) :=
    reachable_storing h₂ longA rfl
  have h₄ := reachable_handling h₃ (.bundle 2 .incoming) (harmless_arriving (a := 1) rfl rfl
    ⟨by decide +kernel, rfl, rfl, Or.inl (by decide +kernel)⟩) rfl
  have h₅ : Reachable smallNode (Harmless smallNode) thirdOf :=
    reachable_storing h₄ lastOfThree rfl
  have ht := attempts_arriving 3 2 { lastOfThree with id := 3 } (waiting 3 lastOfThree) h₅
    (harmless_arriving (a := 2) rfl rfl
      ⟨by decide +kernel, rfl, rfl, Or.inl (by decide +kernel)⟩) rfl rfl rfl rfl rfl rfl rfl
  obtain ⟨adu, s', hrun⟩ := hall smallNode calm _ ht
    [waiting 1 twoOfThree, waiting 2 longA, waiting 3 lastOfThree] 3 rfl (by decide)
    (by
      intro i hi
      obtain hlt | rfl : i < 2 ∨ i = 2 := by omega
      · exact ⟨waiting 1 twoOfThree, by simp, Nat.zero_le i, hlt⟩
      · exact ⟨waiting 3 lastOfThree, by simp, by decide, by decide⟩) rfl
  have hnone : reassemble smallNode calm (attempting thirdOf 2).state [] [0, 1, 2] [] =
      .ok (none, (assembling (attempting thirdOf 2)).2) := rfl
  have heq := hnone.symm.trans hrun
  obtain ⟨hadu, _⟩ := Prod.mk.inj (Except.ok.inj heq)
  cases hadu

end BundleProcessor
