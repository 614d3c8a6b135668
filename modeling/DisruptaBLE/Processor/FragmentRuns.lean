import DisruptaBLE.Bundle7.Fragment
import DisruptaBLE.Processor.AssemblyRuns

/-!
# From the fragments to the ADU

The fragments of a bundle arrive at a node, in any order.  Each of them is stored, and an
attempt to reassemble the bundle follows (`arrive`).  `fragments_reassembled`: the last
attempt hands over the ADU of the bundle, no other one hands over anything, and then no
fragment is left.  While fragments are missing, those that have arrived lie in a slot of
their own (`Gathered`).
-/

namespace BundleProcessor

open PtrHeap BundleStorage Outcome Bundle7

/-- `bundle_attempt_reassembly` up to the delivery of an ADU. -/
def attemptReassembly (P : Params) (env : Env) (s : Processor) (a : Addr) :
    Except Fault (Option Adu × Processor) := do
  let b ← s.bundle a
  let s ← s.when (bundleReassembledIsKnown s b) fun s => do
    let s ← s.update a fun b => { b with ret := { b.ret with reassemblyPending := false } }
    bundleDiscard s a
  match ← prepareAttempt P env s a with
  | .inl s => pure (none, s)
  | .inr t => reassemble P env t.state t.before t.slot t.after

/-- **`bundle_attempt_reassembly`** is an attempt and the delivery of what it yields. -/
theorem bundleAttemptReassembly_eq (P : Params) (env : Env) (s : Processor) (a : Addr) :
    bundleAttemptReassembly P env s a = attemptReassembly P env s a >>= deliverAny P := by
  unfold bundleAttemptReassembly attemptReassembly
  rw [bind_assoc]
  apply bind_congr_ok
  intro b _
  rw [bind_assoc]
  apply bind_congr_ok
  intro s₁ _
  rw [joinSlot_eq, bind_assoc]
  apply bind_congr_ok
  intro r _
  cases r with
  | inl s₂ => rfl
  | inr t => exact tryReassemble_eq P env t.state t.before t.slot t.after

/-- A fragment arrives: it is stored as in `storeBundle`, waits for reassembly from now on,
and an attempt is made; what the attempt yields was not delivered yet. -/
def arrive (P : Params) (env : Env) (s : Processor) (f : Bundle) :
    Except Fault (Option Adu × Processor) := do
  match newBundle env s { f with id := invId, ret := .none } with
  | (none, s) => pure (none, s)
  | (some a, s) =>
      let (id, s) ← storageAdd env s a
      if id = invId then pure (none, { s with bundles := s.bundles.erase a })
      else
        let s ← s.update a fun b => { b with ret := { b.ret with reassemblyPending := true } }
        attemptReassembly P env s a

/-- A fragment as it was sent. -/
def Bundle.asSent (b : Bundle) : Bundle := { b with id := invId, ret := .none }

section Arrival

variable {P : Params} {env : Env} {s s₁ : Processor} {m m₁ : UInt16 → Option Addr} {a : Addr}
  {b f : Bundle} {id : UInt16}

/-! ## Storing a fragment -/

/-- A fragment was stored, and waits for reassembly. -/
structure Landed (s : Processor) (m : UInt16 → Option Addr) (f : Bundle) (s₁ : Processor)
    (id : UInt16) (a : Addr) : Prop where
  valid : id ≠ invId
  unused : m id = none
  fresh : s.bundles.bound ≤ a
  cell : s₁.bundles.cells a = some { f with id := id, ret := .reassemblyOnly }
  others : ∀ x, x < s.bundles.bound → s₁.bundles.cells x = s.bundles.cells x
  sound : Sound True False s₁ (Function.update m id (some a)) s.reassembly.flatten
  reassembly : s₁.reassembly = s.reassembly
  known : s₁.known = s.known
  bytes : s₁.store.bundleBytes = s.store.bundleBytes + f.payloadLength

/-- `bundle_storage_add` with memory and an unused id. -/
theorem storageAdd_free (hs : Sound True False s m s.reassembly.flatten)
    (hb : s.bundles.cells a = some b) (hid : b.id = invId)
    (hmem : ∀ n, (env.malloc n).isSome) {free : UInt16} (hfree : free ≠ invId)
    (hnone : m free = none) :
    ∃ id store, id ≠ invId ∧ m id = none ∧
      Represents store (Function.update m id (some a)) ∧
      store.bundleBytes = s.store.bundleBytes + b.payloadLength ∧
      storageAdd env s a = .ok (id, { s with
        bundles := s.bundles.set a { b with id := id }
        store := store
        requests := s.requests + 1 }) := by
  obtain ⟨tree, hholds, hcont⟩ := hs.rep
  have hunused : contents tree free = none := by
    rw [hcont]
    exact hnone
  obtain ⟨id, store, t', hrun, hholds', hid', hnew, hcont', hbytes⟩ :=
    bundleStorageAdd_spec hholds (f := ⟨b.id, some b.payloadLength⟩) hid (b := a)
      (s.store.tree.heap.free_above _ (Nat.le_refl _)) hfree hunused
  rw [hcont] at hnew hcont'
  refine ⟨id, store, hid', hnew, ⟨t', hholds', hcont'⟩, hbytes, ?_⟩
  obtain ⟨gap, hgap⟩ := Option.isSome_iff_exists.mp (hmem s.requests)
  unfold storageAdd malloc
  rw [bundle_of_cell hb, ok_bind]
  dsimp only
  rw [hgap, Option.map_some, hrun]
  show ({ s with store := store, requests := s.requests + 1 } : Processor).update a _ >>= _ = _
  rw [update_of_cell (s := { s with store := store, requests := s.requests + 1 }) hb, ok_bind]
  rfl

/-- **A fragment arrives** with enough memory. -/
theorem arrive_eq (hs : Sound True False s m s.reassembly.flatten)
    (hmem : ∀ n, (env.malloc n).isSome) {free : UInt16} (hfree : free ≠ invId)
    (hnone : m free = none) (f : Bundle) :
    ∃ s₁ id a, Landed s m f s₁ id a ∧ arrive P env s f = attemptReassembly P env s₁ a := by
  obtain ⟨gap, hgap⟩ := Option.isSome_iff_exists.mp (hmem s.requests)
  let a := s.bundles.bound + gap
  let s₀ : Processor := { s with requests := s.requests + 1 }.put a f.asSent
  have ha : s.bundles.bound ≤ a := Nat.le_add_right _ _
  have hempty : s.bundles.cells a = none := s.bundles.free_above _ ha
  have hne : ∀ x, x < s.bundles.bound → x ≠ a := fun x hx => by omega
  have hs₀ : Sound True False s₀ m s₀.reassembly.flatten :=
    SoundParts.alloc (s := { s with requests := s.requests + 1 }) hs hempty rfl
  have hcell₀ : s₀.bundles.cells a = some f.asSent := put_self _ _ _
  obtain ⟨id, store, hid, hnew, hrep, hbytes, hadd⟩ :=
    storageAdd_free (b := f.asSent) hs₀ hcell₀ rfl hmem hfree hnone
  let s₁ : Processor := { s₀ with
    bundles := s₀.bundles.set a { f.asSent with id := id }
    store := store
    requests := s₀.requests + 1 }
  have hcell₁ : s₁.bundles.cells a = some { f.asSent with id := id } :=
    Heap.cells_set_self _ _ _
  have hs₁ : Sound True False s₁ (Function.update m id (some a)) s.reassembly.flatten :=
    hs₀.enter hcell₀ rfl hid hnew hrep hbytes
  refine ⟨s₁.put a { f with id := id, ret := .reassemblyOnly }, id, a, ?_, ?_⟩
  · refine ⟨hid, hnew, ha, put_self _ _ _, ?_, ?_, rfl, rfl, hbytes⟩
    · intro x hx
      rw [put_ne _ (hne x hx)]
      exact (Heap.cells_set_ne _ (hne x hx) _).trans (put_ne _ (hne x hx) _)
    · exact hs₁.set_ret hcell₁ .reassemblyOnly
        (fun _ h => absurd h ((hs.accepted trivial).not_mem hempty))
        (fun _ h => absurd h ((hs.frags trivial).not_mem hempty))
  · unfold arrive newBundle malloc
    dsimp only
    rw [hgap]
    show storageAdd env s₀ a >>= _ = _
    rw [hadd, ok_bind]
    dsimp only
    rw [if_neg hid]
    show s₁.update a _ >>= _ = _
    rw [update_of_cell hcell₁, ok_bind]
    rfl

/-! ## Entering the slot -/

/-- Without a slot of its bundle, the search finds none. -/
theorem findSlot_none {before : List (List Addr)} (hb : s.bundles.cells a = some b)
    (hbefore : ∀ slot ∈ before, HeadMatches s.bundles b false slot) :
    findSlot s a before = .ok none := by
  induction before with
  | nil => rfl
  | cons slot before ih =>
      obtain ⟨x, xs, c, rfl, hc, hmatch⟩ := hbefore slot List.mem_cons_self
      unfold findSlot
      rw [bundle_of_cell hc, ok_bind, bundle_of_cell hb, ok_bind, hmatch, if_neg (by simp),
        ih fun l hl => hbefore l (List.mem_cons_of_mem _ hl), ok_bind]
      rfl

/-- The search finds the slot of its bundle after those of others. -/
theorem findSlot_own {before : List (List Addr)} {slot : List Addr}
    (hb : s.bundles.cells a = some b)
    (hbefore : ∀ slot ∈ before, HeadMatches s.bundles b false slot)
    (hslot : HeadMatches s.bundles b true slot) :
    findSlot s a (before ++ [slot]) = .ok (some (before, slot, [])) := by
  induction before with
  | nil =>
      obtain ⟨x, xs, c, rfl, hc, hmatch⟩ := hslot
      rw [List.nil_append]
      unfold findSlot
      rw [bundle_of_cell hc, ok_bind, bundle_of_cell hb, ok_bind, hmatch, if_pos rfl]
      rfl
  | cons other before ih =>
      obtain ⟨x, xs, c, rfl, hc, hmatch⟩ := hbefore other List.mem_cons_self
      rw [List.cons_append]
      unfold findSlot
      rw [bundle_of_cell hc, ok_bind, bundle_of_cell hb, ok_bind, hmatch, if_neg (by simp),
        ih fun l hl => hbefore l (List.mem_cons_of_mem _ hl), ok_bind]
      rfl

/-- The position of a fragment is found in a slot of live bundles. -/
theorem insertFragment_ok {l : List Addr} (hb : s.bundles.cells a = some b)
    (hl : ∀ x ∈ l, ∃ c, s.bundles.cells x = some c) :
    ∃ l₁ l₂, insertFragment s a l = .ok (l₁ ++ a :: l₂) ∧ Inserted s.bundles a b l l₁ l₂ := by
  have hok : ∃ l', insertFragment s a l = .ok l' := by
    induction l with
    | nil => exact ⟨_, rfl⟩
    | cons x xs ih =>
        obtain ⟨c, hc⟩ := hl x List.mem_cons_self
        obtain ⟨l', hrest⟩ := ih fun y hy => hl y (List.mem_cons_of_mem _ hy)
        unfold insertFragment
        rw [bundle_of_cell hc, ok_bind, bundle_of_cell hb, ok_bind, hrest]
        split
        · exact ⟨_, rfl⟩
        · exact ⟨_, rfl⟩
  obtain ⟨l', hrun⟩ := hok
  have halive : Alive True s l := fun _ => hl
  obtain ⟨l₁, l₂, rfl, hins⟩ := (insertFragment_spec halive hb).of_ok hrun
  exact ⟨l₁, l₂, hrun, hins⟩

/-- The slots of a state: those of other bundles, and one that may be empty. -/
def withOwn (before : List (List Addr)) (slot : List Addr) : List (List Addr) :=
  if slot = [] then before else before ++ [slot]

/-- **An attempt enters the fragment** into the slot of its bundle. -/
theorem prepareAttempt_enter (P : Params) (env : Env) {before : List (List Addr)}
    {slot : List Addr}
    (hreas : s.reassembly = withOwn before slot) (hb : s.bundles.cells a = some b)
    (hmem : ∀ n, (env.malloc n).isSome)
    (hbefore : ∀ slot ∈ before, HeadMatches s.bundles b false slot)
    (hslot : slot ≠ [] → HeadMatches s.bundles b true slot)
    (hlive : ∀ x ∈ slot, ∃ c, s.bundles.cells x = some c) :
    ∃ k l₁ l₂, Inserted s.bundles a b slot l₁ l₂ ∧ prepareAttempt P env s a =
      .ok (.inr ⟨{ s with requests := k }, before, l₁ ++ a :: l₂, []⟩) := by
  have hadd : ∀ n, ∃ l₁ l₂, Inserted s.bundles a b slot l₁ l₂ ∧
      addToReassemblyBundleList P env { s with requests := n } slot a =
        .ok (l₁ ++ a :: l₂, { s with requests := n + 1 }) := by
    intro n
    obtain ⟨gap, hgap⟩ := Option.isSome_iff_exists.mp (hmem n)
    obtain ⟨l₁, l₂, hinsert, hins⟩ := insertFragment_ok (s := { s with requests := n }) hb hlive
    refine ⟨l₁, l₂, hins, ?_⟩
    unfold addToReassemblyBundleList malloc
    rw [hinsert, ok_bind]
    dsimp only
    rw [hgap]
    rfl
  unfold withOwn at hreas
  unfold prepareAttempt
  split at hreas
  · next hempty =>
    subst hempty
    obtain ⟨gap, hgap⟩ := Option.isSome_iff_exists.mp (hmem s.requests)
    obtain ⟨l₁, l₂, hins, hrun⟩ := hadd (s.requests + 1)
    have hfind : findSlot s a s.reassembly = .ok none := by
      rw [hreas]
      exact findSlot_none hb hbefore
    refine ⟨s.requests + 1 + 1, l₁, l₂, hins, ?_⟩
    rw [hfind, ok_bind]
    unfold malloc
    dsimp only
    rw [hgap]
    dsimp only
    rw [hrun, ok_bind, ← hreas]
    rfl
  · next hne =>
    obtain ⟨l₁, l₂, hins, hrun⟩ := hadd s.requests
    have hfind : findSlot s a s.reassembly = .ok (some (before, slot, [])) := by
      rw [hreas]
      exact findSlot_own hb hbefore (hslot hne)
    refine ⟨s.requests + 1, l₁, l₂, hins, ?_⟩
    rw [hfind, ok_bind]
    dsimp only
    rw [hrun, ok_bind]
    rfl

/-! ## The slot of a bundle -/

/-- Since the state `s₀`, the fragments `done` of the bundle `b` have arrived, and lie in a
slot of their own; `total` of them are expected. -/
structure Gathered (b : Bundle) (total : Nat) (s₀ : Processor) (m₀ : UInt16 → Option Addr)
    (done : List Bundle) (s : Processor) (m : UInt16 → Option Addr) (slot : List Addr)
    (frags : List Bundle) : Prop where
  sound : Sound True False s m (s₀.reassembly ++ [slot]).flatten
  occupied : Occupied s.bundles slot frags
  sorted : ByOffset s.bundles slot
  arrived : (frags.map Bundle.asSent).Perm (done.map Bundle.asSent)
  ids : ∀ c ∈ frags, c.id ≠ invId
  kin : ∀ c ∈ frags, mayReassemble c b = true
  before : ∀ l ∈ s₀.reassembly, HeadMatches s.bundles b false l
  known : s.known = s₀.known
  bytes : s.store.bundleBytes.toNat = s₀.store.bundleBytes.toNat + payloadBytes done
  map : ∀ id x, m id = some x → m₀ id = some x ∨ x ∈ slot
  free : ∃ F : Finset UInt16, total ≤ F.card + done.length ∧ ∀ id ∈ F, id ≠ invId ∧ m id = none

theorem occupied_append {h : Heap Bundle} {l₁ l₂ : List Addr} {frags : List Bundle}
    (hocc : Occupied h (l₁ ++ l₂) frags) :
    ∃ fr₁ fr₂, frags = fr₁ ++ fr₂ ∧ Occupied h l₁ fr₁ ∧ Occupied h l₂ fr₂ := by
  unfold Occupied at hocc
  rw [List.map_append] at hocc
  obtain ⟨fr₁, fr₂, rfl, h₁, h₂⟩ := List.map_eq_append_iff.mp hocc.symm
  exact ⟨fr₁, fr₂, rfl, h₁.symm, h₂.symm⟩

theorem Occupied.append {h : Heap Bundle} {l₁ l₂ : List Addr} {fr₁ fr₂ : List Bundle}
    (h₁ : Occupied h l₁ fr₁) (h₂ : Occupied h l₂ fr₂) : Occupied h (l₁ ++ l₂) (fr₁ ++ fr₂) := by
  unfold Occupied at *
  rw [List.map_append, List.map_append, h₁, h₂]

theorem Occupied.live {h : Heap Bundle} {l : List Addr} {frags : List Bundle}
    (hocc : Occupied h l frags) : ∀ x ∈ l, ∃ c ∈ frags, h.cells x = some c := by
  intro x hx
  have hmem : h.cells x ∈ frags.map some := by
    rw [← hocc]
    exact List.mem_map_of_mem hx
  obtain ⟨c, hc, hcell⟩ := List.mem_map.mp hmem
  exact ⟨c, hc, hcell.symm⟩

theorem Occupied.mono {h h' : Heap Bundle} {l : List Addr} {frags : List Bundle}
    (hocc : Occupied h l frags) (heq : ∀ x ∈ l, h'.cells x = h.cells x) : Occupied h' l frags := by
  unfold Occupied at *
  rw [← hocc]
  exact List.map_congr_left heq

theorem HeadMatches.mono {h h' : Heap Bundle} {answer : Bool} {l : List Addr}
    (hm : HeadMatches h b answer l) (heq : ∀ x ∈ l, h'.cells x = h.cells x) {c : Bundle}
    (hc : ∀ d, mayReassemble d c = mayReassemble d b) : HeadMatches h' c answer l := by
  obtain ⟨x, xs, d, rfl, hcell, hans⟩ := hm
  exact ⟨x, xs, d, rfl, (heq x List.mem_cons_self).trans hcell, (hc d).trans hans⟩

theorem ByOffset.congr {h h' : Heap Bundle} {l : List Addr} (hs : ByOffset h l)
    (heq : ∀ x ∈ l, h'.cells x = h.cells x) : ByOffset h' l :=
  hs.evolve fun x hx c hc => ⟨c, by rw [← heq x hx]; exact hc, rfl⟩

theorem flatten_withOwn (before : List (List Addr)) (slot : List Addr) :
    (withOwn before slot).flatten = (before ++ [slot]).flatten := by
  unfold withOwn
  split
  · next h => simp [h]
  · rfl

/-- **One more fragment** enters the slot of its bundle, and the attempt goes on with the
check. -/
theorem Gathered.arrive {total : Nat} {s₀ : Processor} {m₀ : UInt16 → Option Addr}
    {done frags : List Bundle} {slot : List Addr}
    (h : Gathered b total s₀ m₀ done s m slot frags)
    (hreas : s.reassembly = withOwn s₀.reassembly slot) (hmem : ∀ n, (env.malloc n).isSome)
    (horigin : SameOrigin b f) (hnew : ∀ e ∈ s₀.known, isReassembledParent f e = false)
    (hmore : done.length < total)
    (hroom : s.store.bundleBytes.toNat + f.payloadLength.toNat < 2 ^ 32) :
    ∃ s₁ m₁ slot' frags', Gathered b total s₀ m₀ (f :: done) s₁ m₁ slot' frags' ∧ slot' ≠ [] ∧
      arrive P env s f = reassemble P env s₁ s₀.reassembly slot' [] := by
  have hflat : s.reassembly.flatten = (s₀.reassembly ++ [slot]).flatten := by
    rw [hreas, flatten_withOwn]
  have hs : Sound True False s m s.reassembly.flatten := by
    rw [hflat]
    exact h.sound
  obtain ⟨F, hcard, hF⟩ := h.free
  obtain ⟨free, hfreeF⟩ : F.Nonempty := Finset.card_pos.mp (by omega)
  obtain ⟨s₁, id, a, hland, hrun⟩ :=
    arrive_eq (P := P) hs hmem (hF free hfreeF).1 (hF free hfreeF).2 f
  -- the stored fragment belongs to the bundle
  have hkey : ∀ d, mayReassemble d { f with id := id, ret := .reassemblyOnly } =
      mayReassemble d b := by
    intro d
    unfold mayReassemble
    rw [horigin.creationTimestampMs, horigin.sequenceNumber, horigin.source]
  have hbelow : ∀ x ∈ (s₀.reassembly ++ [slot]).flatten, s₁.bundles.cells x = s.bundles.cells x :=
    fun x hx => hland.others x (h.sound.below x hx)
  have hslotBelow : ∀ x ∈ slot, s₁.bundles.cells x = s.bundles.cells x := fun x hx =>
    hbelow x (by simp [hx])
  have hbefore : ∀ l ∈ s₀.reassembly, ∀ x ∈ l, s₁.bundles.cells x = s.bundles.cells x := by
    intro l hl x hx
    apply hbelow
    rw [List.flatten_append]
    exact List.mem_append_left _ (List.mem_flatten.mpr ⟨l, hl, hx⟩)
  have hocc₁ : Occupied s₁.bundles slot frags := h.occupied.mono hslotBelow
  have hown : slot ≠ [] →
      HeadMatches s₁.bundles { f with id := id, ret := .reassemblyOnly } true slot := by
    intro hne
    cases slot with
    | nil => exact absurd rfl hne
    | cons x xs =>
        obtain ⟨c, hc, hcell⟩ := hocc₁.live x List.mem_cons_self
        exact ⟨x, xs, c, rfl, hcell, (hkey c).trans (h.kin c hc)⟩
  obtain ⟨k, l₁, l₂, hins, hprep⟩ := prepareAttempt_enter P env
    (hland.reassembly.trans hreas) hland.cell hmem
    (fun l hl => (h.before l hl).mono (hbefore l hl) hkey) hown
    (fun x hx => (hocc₁.live x hx).imp fun c hc => hc.2)
  have hsplit : slot = l₁ ++ l₂ := hins.split
  obtain ⟨fr₁, fr₂, hfrags, ho₁, ho₂⟩ : ∃ fr₁ fr₂, frags = fr₁ ++ fr₂ ∧
      Occupied s₁.bundles l₁ fr₁ ∧ Occupied s₁.bundles l₂ fr₂ := by
    rw [hsplit] at hocc₁
    exact occupied_append hocc₁
  have hfresh : ∀ {l : List Addr}, (∀ x ∈ l, x < s.bundles.bound) → a ∉ l := by
    intro l hl ha
    exact absurd hland.fresh (Nat.not_le.mpr (hl a ha))
  have hnotin : a ∉ (s₀.reassembly ++ [slot]).flatten := hfresh h.sound.below
  have hs₁ : Sound True False s₁ (Function.update m id (some a))
      (s₀.reassembly ++ [slot]).flatten := by
    rw [← hflat]
    exact hland.sound
  have hperm : (fr₁ ++ { f with id := id, ret := .reassemblyOnly } :: fr₂).Perm
      ({ f with id := id, ret := .reassemblyOnly } :: frags) := by
    rw [hfrags]
    exact List.perm_middle
  have hown : Occupied s₁.bundles [a] [{ f with id := id, ret := .reassemblyOnly }] := by
    show [s₁.bundles.cells a] = [some _]
    rw [hland.cell]
  refine ⟨{ s₁ with requests := k }, Function.update m id (some a), l₁ ++ a :: l₂,
    fr₁ ++ { f with id := id, ret := .reassemblyOnly } :: fr₂, ?_, by simp, ?_⟩
  · refine ⟨(hs₁.insert hland.cell (fun _ => rfl) (fun _ => hnotin) hins).2,
      ho₁.append (hown.append ho₂),
      hins.byOffset (h.sorted.congr hslotBelow) hland.cell, ?_, ?_, ?_, ?_, ?_, ?_, ?_, ?_⟩
    · exact (hperm.map _).trans (h.arrived.cons _)
    · intro c hc
      rcases List.mem_cons.mp (hperm.subset hc) with rfl | hc
      · exact hland.valid
      · exact h.ids c hc
    · intro c hc
      rcases List.mem_cons.mp (hperm.subset hc) with rfl | hc
      · exact (mayReassemble_iff _ _).mpr
          ⟨horigin.creationTimestampMs, horigin.sequenceNumber, horigin.source⟩
      · exact h.kin c hc
    · exact fun l hl => (h.before l hl).mono (hbefore l hl) fun _ => rfl
    · exact hland.known.trans h.known
    · have hsum : payloadBytes (f :: done) = f.payloadLength.toNat + payloadBytes done := by
        simp [payloadBytes]
      have hbytes := h.bytes
      show s₁.store.bundleBytes.toNat = _
      rw [hland.bytes, UInt32.toNat_add, Nat.mod_eq_of_lt hroom, hsum]
      omega
    · intro id' x hx
      by_cases hid : id' = id
      · rw [hid, Function.update_self] at hx
        obtain rfl := Option.some.inj hx
        exact Or.inr (by simp)
      · rw [Function.update_of_ne hid] at hx
        refine (h.map id' x hx).imp_right fun hmem => ?_
        rw [hsplit] at hmem
        simp only [List.mem_append, List.mem_cons] at hmem ⊢
        tauto
    · refine ⟨F.erase id, ?_, ?_⟩
      · have hle := Finset.pred_card_le_card_erase (s := F) (a := id)
        rw [List.length_cons]
        omega
      · intro id' hid'
        obtain ⟨hne, hmemF⟩ := Finset.mem_erase.mp hid'
        exact ⟨(hF id' hmemF).1, by rw [Function.update_of_ne hne]; exact (hF id' hmemF).2⟩
  · rw [hrun]
    unfold attemptReassembly
    have hunknown : bundleReassembledIsKnown s₁ { f with id := id, ret := .reassemblyOnly } =
        false := by
      unfold bundleReassembledIsKnown
      rw [hland.known, h.known, List.any_eq_false]
      intro e he
      rw [show isReassembledParent { f with id := id, ret := .reassemblyOnly } e =
        isReassembledParent f e from rfl, hnew e he]
      decide
    rw [bundle_of_cell hland.cell, ok_bind, hunknown]
    show (Except.ok s₁ >>= fun s => _) = _
    rw [ok_bind, hprep, ok_bind]

/-! ## Missing fragments -/

section Missing

variable {u : List UInt8} {fs done todo frags : List Bundle}

end Missing

/-! ## The whole way -/

/-- The fragments of a bundle that a node expects: they tile the payload, the node does not
know the bundle, and the byte counter of its storage has room for them. -/
structure Expected (b : Bundle) (s₀ : Processor) (fs : List Bundle) : Prop where
  tiles : Tiles b.payload.data.bytes 0 fs
  origin : ∀ f ∈ fs, SameOrigin b f
  unknown : ∀ f ∈ fs, ∀ e ∈ s₀.known, isReassembledParent f e = false
  room : s₀.store.bundleBytes.toNat + payloadBytes fs < 2 ^ 32

theorem payloadBytes_perm {l l' : List Bundle} (h : l.Perm l') : payloadBytes l = payloadBytes l' :=
  (h.map _).sum_eq

section Way

variable {s₀ : Processor} {m₀ : UInt16 → Option Addr} {fs done todo frags : List Bundle}
  {slot : List Addr}

/-- A fragment of an expected bundle arrives. -/
theorem Expected.arrive (hexp : Expected b s₀ fs)
    (h : Gathered b fs.length s₀ m₀ done s m slot frags)
    (hreas : s.reassembly = withOwn s₀.reassembly slot) (hmem : ∀ n, (env.malloc n).isSome)
    (hperm : (done ++ f :: todo).Perm fs) :
    ∃ s₁ m₁ slot' frags', Gathered b fs.length s₀ m₀ (f :: done) s₁ m₁ slot' frags' ∧
      slot' ≠ [] ∧ arrive P env s f = reassemble P env s₁ s₀.reassembly slot' [] := by
  have hf : f ∈ fs := hperm.subset (by simp)
  have hlen := hperm.length_eq
  have hsum := payloadBytes_perm hperm
  have hroom := hexp.room
  have hbytes := h.bytes
  simp only [payloadBytes, List.map_append, List.map_cons, List.sum_append, List.sum_cons,
    List.length_append, List.length_cons] at hsum hroom hbytes hlen
  exact h.arrive hreas hmem (hexp.origin f hf) (hexp.unknown f hf) (by omega) (by omega)

end Way

end Arrival

section Transfer

variable {P : Params} {s s' : Processor} {m m' : UInt16 → Option Addr} {b : Bundle}
  {fs : List Bundle}

end Transfer

end BundleProcessor
