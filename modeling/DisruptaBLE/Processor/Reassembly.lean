import DisruptaBLE.Processor.Delivery
import DisruptaBLE.Processor.Known
import DisruptaBLE.Processor.Slots

/-!
# Reassembly

Specifications of the functions of reassembly, up to `bundle_attempt_reassembly`.

Reassembly is safe unless the original bundle of a fragment is known already: then the
fragment is discarded, and the search for its slot goes on with it.  Where it is safe,
the fragment comes to stand in its slot in order, or the slot is complete and all its
fragments are gone, or there was no memory and the fragment alone is gone.
-/

namespace BundleProcessor

open PtrHeap BundleStorage Outcome

section Specs

variable {careful exact : Prop} {P : Params} {env : Env} {s : Processor}
  {m : UInt16 → Option Addr} {frags : List Addr} {a : Addr} {b : Bundle}

/-- The bundles of a list are alive in a careful state. -/
def Alive (careful : Prop) (s : Processor) (l : List Addr) : Prop :=
  careful → ∀ x ∈ l, ∃ b, s.bundles.cells x = some b

theorem SoundParts.alive (hs : Sound careful exact s m frags) {l : List Addr}
    (hl : l ⊆ frags) : Alive careful s l := by
  intro hc x hx
  obtain ⟨c, hcell, _⟩ := (hs.frags hc).live x (hl hx)
  exact ⟨c, hcell⟩

theorem Alive.head {x : Addr} {l : List Addr} (h : Alive careful s (x :: l)) :
    careful → ∃ b, s.bundles.cells x = some b := fun hc => h hc x List.mem_cons_self

theorem Alive.tail {x : Addr} {l : List Addr} (h : Alive careful s (x :: l)) :
    Alive careful s l := fun hc y hy => h hc y (List.mem_cons_of_mem _ hy)

theorem canReassemble_spec {l : List Addr} (hl : Alive careful s l) (pos : UInt32) :
    Ends (Tolerated careful) (canReassemble s pos l) fun _ => True := by
  induction l generalizing pos with
  | nil => trivial
  | cons x xs ih =>
      unfold canReassemble
      apply ends_bundle hl.head
      intro c _
      dsimp only
      split
      · trivial
      split
      · trivial
      · exact ih hl.tail _

/-- Where `add_to_reassembly_bundle_list` puts a fragment: behind those with a smaller or
equal offset, and before one with a greater offset. -/
structure Inserted (h : Heap Bundle) (a : Addr) (b : Bundle) (l l₁ l₂ : List Addr) : Prop where
  split : l = l₁ ++ l₂
  front : ∀ x ∈ l₁, ∃ c, h.cells x = some c ∧ c.fragmentOffset ≤ b.fragmentOffset
  back : ∀ x xs, l₂ = x :: xs → ∃ c, h.cells x = some c ∧ b.fragmentOffset < c.fragmentOffset

theorem insertFragment_spec {l : List Addr} (hl : Alive careful s l)
    (hb : s.bundles.cells a = some b) :
    Ends (Tolerated careful) (insertFragment s a l) fun l' => ∃ l₁ l₂,
      l' = l₁ ++ a :: l₂ ∧ Inserted s.bundles a b l l₁ l₂ := by
  induction l with
  | nil => exact ⟨[], [], rfl, rfl, by simp, by simp⟩
  | cons x xs ih =>
      unfold insertFragment
      apply ends_bundle hl.head
      intro c hc
      apply ends_of_eq (bundle_of_cell hb)
      split
      · next hlt =>
        refine ⟨[], x :: xs, rfl, rfl, by simp, ?_⟩
        intro y ys hy
        obtain ⟨rfl, rfl⟩ := List.cons.inj hy
        exact ⟨c, hc, hlt⟩
      · next hnlt =>
        apply (ih hl.tail).bind
        rintro rest ⟨l₁, l₂, rfl, hins⟩
        refine ⟨x :: l₁, l₂, rfl, by rw [hins.split]; rfl, ?_, hins.back⟩
        intro y hy
        rcases List.mem_cons.mp hy with rfl | hy
        · exact ⟨c, hc, UInt32.not_lt.mp hnlt⟩
        · exact hins.front y hy

theorem Inserted.perm {h : Heap Bundle} {l l₁ l₂ : List Addr} (hins : Inserted h a b l l₁ l₂) :
    (l₁ ++ a :: l₂).Perm (a :: l) := by
  rw [hins.split]
  exact List.perm_middle

/-- Whether the first fragment of a slot belongs to the same bundle. -/
def HeadMatches (h : Heap Bundle) (b : Bundle) (answer : Bool) (slot : List Addr) : Prop :=
  ∃ x xs c, slot = x :: xs ∧ h.cells x = some c ∧ mayReassemble c b = answer

/-- The slot that is found stands between the others. -/
theorem findSlot_spec {l : List (List Addr)} (hl : Alive careful s l.flatten)
    (hb : s.bundles.cells a = some b) :
    Ends (Tolerated careful) (findSlot s a l) fun r =>
      (∀ before slot after, r = some (before, slot, after) →
        l = before ++ slot :: after ∧ HeadMatches s.bundles b true slot) ∧
      (r = none → ∀ slot ∈ l, HeadMatches s.bundles b false slot) := by
  induction l with
  | nil => exact ⟨fun _ _ _ h => (by cases h), by simp⟩
  | cons slot rest ih =>
      cases slot with
      | nil => exact tolerated_other _
      | cons x xs =>
          unfold findSlot
          apply ends_bundle hl.head
          intro c hc
          apply ends_of_eq (bundle_of_cell hb)
          split
          · next hmatch =>
            refine ⟨?_, fun h => by cases h⟩
            intro before slot after h
            obtain ⟨rfl, rfl, rfl⟩ : [] = before ∧ x :: xs = slot ∧ rest = after := by
              simpa using h
            exact ⟨rfl, x, xs, c, rfl, hc, hmatch⟩
          · next hmatch =>
            have hrest : Alive careful s rest.flatten := by
              intro hcar y hy
              exact hl hcar y (by simp [List.mem_flatten.mp hy])
            have hhead : HeadMatches s.bundles b false (x :: xs) :=
              ⟨x, xs, c, rfl, hc, by simpa using hmatch⟩
            apply (ih hrest).bind
            intro r ⟨hsome, hnone⟩
            cases r with
            | none =>
                refine ⟨fun _ _ _ h => (by cases h), fun _ slot hslot => ?_⟩
                rcases List.mem_cons.mp hslot with rfl | hslot
                · exact hhead
                · exact hnone rfl slot hslot
            | some found =>
                obtain ⟨before₀, slot₀, after₀⟩ := found
                refine ⟨?_, fun h => by cases h⟩
                intro before slot after h
                obtain ⟨rfl, rfl, rfl⟩ : (x :: xs) :: before₀ = before ∧ slot₀ = slot ∧
                    after₀ = after := by
                  simpa using h
                obtain ⟨heq, hmatch⟩ := hsome before₀ slot₀ after₀ rfl
                exact ⟨by rw [heq]; rfl, hmatch⟩

/-- **The copying loop**: each fragment of the slot is discarded. -/
theorem copyFragments_spec {l rest : List Addr} (hs : Sound careful exact s m (l ++ rest))
    (aduLength pos : Nat) (payload : List UInt8) :
    Ends (Tolerated careful) (copyFragments P aduLength l pos payload s) fun r => ∃ m',
      Sound careful exact r.2 m' rest ∧ Fades s m r.2 m' ∧ r.2.accepted = s.accepted ∧
      r.2.known = s.known ∧ ∀ x ∈ l, r.2.bundles.cells x = none := by
  induction l generalizing s m pos payload with
  | nil => exact ⟨m, hs, .refl, rfl, rfl, by simp⟩
  | cons x xs ih =>
      unfold copyFragments
      apply ends_bundle
      · intro hc
        exact hs.alive (List.Subset.refl _) hc x (by simp)
      intro c hcell
      have hnew : careful → x ∉ xs ++ rest := by
        intro hc
        exact (List.nodup_cons.mp (hs.frags hc).nodup).1
      have hacc : careful → x ∉ s.accepted := by
        intro hc hmem
        exact not_frag_of_accepted hs hc hmem (by simp)
      have htail : Sound careful exact s m (xs ++ rest) :=
        hs.withFrags (fun y hy => hs.below y (List.mem_cons_of_mem _ hy))
          fun hc => (hs.frags hc).sublist (List.sublist_cons_self _ _)
      have hs₁ := htail.set_ret hcell { c.ret with reassemblyPending := false }
        (fun hc h => absurd h (hacc hc)) (fun hc h => absurd h (hnew hc))
      apply ends_of_eq (update_of_cell hcell _)
      have hdisc := bundleDiscard_spec hs₁ (put_self _ _ _)
        (fun hc => by
          have hret : c.ret = .reassemblyOnly := (hs.frags hc).ret (by simp) hcell
          simp [hret, RetConstraints.reassemblyOnly, RetConstraints.none])
        hacc hnew
      apply hdisc.bind
      intro s₂ ⟨hs₂, hdisc₂⟩
      -- both branches go on with the other fragments
      have hgo : ∀ pos payload, Ends (Tolerated careful)
          (copyFragments P aduLength xs pos payload s₂) fun r => ∃ m',
            Sound careful exact r.2 m' rest ∧ Fades s m r.2 m' ∧ r.2.accepted = s.accepted ∧
            r.2.known = s.known ∧ ∀ y ∈ x :: xs, r.2.bundles.cells y = none := by
        intro pos payload
        apply (ih hs₂ pos payload).mono
        intro r ⟨m', hs', hfades, hacc', hknown', hgone⟩
        refine ⟨m', hs', hdisc₂.of_put.fades.trans hfades, hacc'.trans hdisc₂.lists.accepted,
          hknown'.trans hdisc₂.lists.known, ?_⟩
        intro y hy
        rcases List.mem_cons.mp hy with rfl | hy
        · exact hfades.gone hdisc₂.self
        · exact hgone y hy
      dsimp only
      split
      · exact hgo _ _
      · exact hgo _ _

theorem not_admin_bundleAduInit (h : hasFlag b.procFlags flagAdministrativeRecord = false) :
    hasFlag (bundleAduInit b).procFlags flagAdministrativeRecord = false := by
  have hzero : b.procFlags &&& flagAdministrativeRecord = 0 := by simpa [hasFlag] using h
  have hand : (bundleAduInit b).procFlags &&& flagAdministrativeRecord = 0 := by
    rw [bundleAduInit, UInt32.and_assoc, UInt32.and_comm _ flagAdministrativeRecord,
      ← UInt32.and_assoc, hzero, UInt32.zero_and]
  simp [hasFlag, hand]

/-- Fragments that can be reassembled: either at most one bundle is in custody, or they
do not belong to an administrative record. -/
def FragmentsHarmless (s : Processor) (l : List Addr) : Prop :=
  s.accepted.length ≤ 1 ∨ ∀ x ∈ l, ∀ c, s.bundles.cells x = some c →
    hasFlag c.procFlags flagAdministrativeRecord = false

theorem flatten_between (before : List (List Addr)) (slot : List Addr)
    (after : List (List Addr)) :
    (slot ++ (before ++ after).flatten).Perm (before ++ slot :: after).flatten := by
  simp only [List.flatten_append, List.flatten_cons]
  rw [← List.append_assoc]
  exact (List.perm_append_comm.append_right _).trans (by simp)

theorem Punctual.of_bare {D : Lineage → UInt64} {b' : Bundle} (h : Punctual D b)
    (hbare : b'.bare = b.bare) : Punctual D b' := by
  have hts := eq_of_bare Bundle.creationTimestampMs (fun _ => rfl) hbare
  have hlin := eq_of_bare Bundle.lineage (fun _ => rfl) hbare
  refine ⟨by rw [hts]; exact h.1, fun now => ?_⟩
  rw [eq_of_bare (bundleGetExpirationTimeS now) (fun _ => rfl) hbare, hlin]
  exact h.2 now

/-- The list of known bundles stays sound, if the bundles at some addresses are punctual. -/
def KeepsKnown (s s' : Processor) (l : List Addr) : Prop :=
  ∀ D, (∀ x ∈ l, ∀ c, s.bundles.cells x = some c → Punctual D c) → KnownSound D s.known →
    KnownSound D s'.known

theorem keepsKnown_of_eq {s' : Processor} {l : List Addr} (h : s'.known = s.known) :
    KeepsKnown s s' l := by
  intro D _ hk
  rw [h]
  exact hk

/-- **`try_reassemble`**: nothing changes, or the slot is gone with its fragments. -/
theorem tryReassemble_spec {before after : List (List Addr)} {slot : List Addr}
    (hs : Sound careful exact s m (before ++ slot :: after).flatten)
    (hfrag : careful → FragmentsHarmless s slot) :
    Ends (Tolerated careful) (tryReassemble P env s before slot after) fun s' => ∃ m',
      Sound careful exact s' m' s'.reassembly.flatten ∧ Fades s m s' m' ∧
      ((s'.reassembly = before ++ slot :: after ∧ s'.bundles = s.bundles) ∨
        (s'.reassembly = before ++ after ∧ ∀ x ∈ slot, s'.bundles.cells x = none)) ∧
      KeepsKnown s s' slot := by
  have hslot : Sound careful exact s m (slot ++ (before ++ after).flatten) :=
    hs.withFrags (fun x hx => hs.below x ((flatten_between before slot after).subset hx))
      fun hc => (hs.frags hc).perm (flatten_between before slot after)
  have hstay : ∀ n, ∃ m', Sound careful exact
      { s with reassembly := before ++ slot :: after, requests := n } m'
        (before ++ slot :: after).flatten ∧
      Fades s m { s with reassembly := before ++ slot :: after, requests := n } m' ∧
      ((before ++ slot :: after = before ++ slot :: after ∧ s.bundles = s.bundles) ∨
        (before ++ slot :: after = before ++ after ∧ ∀ x ∈ slot, s.bundles.cells x = none)) ∧
      KeepsKnown s { s with reassembly := before ++ slot :: after, requests := n } slot :=
    fun n => ⟨m, hs, ⟨fun _ c h => ⟨c, h, rfl⟩, Nat.le_refl _, fun _ _ h => h, rfl⟩,
      Or.inl ⟨rfl, rfl⟩, keepsKnown_of_eq rfl⟩
  unfold tryReassemble
  apply (canReassemble_spec (s := { s with reassembly := before ++ slot :: after })
    (hslot.alive (List.subset_append_left _ _)) 0).bind
  intro complete _
  cases complete with
  | false => exact hstay s.requests
  | true =>
      cases slot with
      | nil => exact hstay s.requests
      | cons first others =>
          dsimp only
          apply ends_bundle
          · intro hc
            exact hslot.alive (List.Subset.refl _) hc first (by simp)
          intro c hcell
          unfold malloc
          cases env.malloc s.requests with
          | none => exact hstay _
          | some gap =>
              dsimp only
              generalize hknown : bundleAddReassembledAsKnown env _ c = s₁
              have hparts : s₁.bundles = s.bundles ∧ s₁.store = s.store ∧
                  s₁.accepted = s.accepted ∧ s₁.outQueue = s.outQueue := by
                rw [← hknown]
                exact ⟨rfl, rfl, rfl, rfl⟩
              obtain ⟨hbun, hstore, hacc, hout⟩ := hparts
              have hkeeps : KeepsKnown s s₁ (first :: others) := by
                intro D hpunct hk
                rw [← hknown]
                exact hk.add (hpunct first (by simp) c hcell) _ _ _
              have hs₁ : Sound careful exact s₁ m
                  (first :: others ++ (before ++ after).flatten) := by
                rw [Sound, hbun, hstore, hacc]
                exact hslot
              apply (copyFragments_spec hs₁ _ _ _).bind
              rintro ⟨payload, s₂⟩ ⟨m₂, hs₂, hfades, hacc₂, hknown₂, hgone⟩
              have hadu : careful → AduHarmless P { s₂ with reassembly := before ++ after }
                  { bundleAduInit c with payload := payload } := by
                intro hc hadmin record _ _
                rcases hfrag hc with hlen | hno
                · apply recordHarmless_of_length
                  have heq : s₂.accepted = s.accepted := hacc₂.trans hacc
                  rw [← heq] at hlen
                  exact hlen
                · have hnot := not_admin_bundleAduInit (hno first (by simp) c hcell)
                  rw [show _ = false from hnot] at hadmin
                  cases hadmin
              apply (bundleDeliverAdu_spec (s := { s₂ with reassembly := before ++ after }) hs₂
                hadu).mono
              intro s' ⟨m', hs', hfades', hreas, hknown'⟩
              have hfades₂ : Fades s₂ m₂ s' m' :=
                ⟨hfades'.cells, hfades'.bound, hfades'.map, hfades'.outQueue⟩
              have hfades₁ := hfades.trans hfades₂
              refine ⟨m', ?_, ⟨?_, ?_, hfades₁.map, hfades₁.outQueue.trans hout⟩,
                Or.inr ⟨hreas, ?_⟩, ?_⟩
              · rw [hreas]
                exact hs'
              · rw [← hbun]
                exact hfades₁.cells
              · rw [← hbun]
                exact hfades₁.bound
              · intro x hx
                exact hfades'.gone (hgone x hx)
              · intro D hpunct hk
                rw [hknown'.trans hknown₂]
                exact hkeeps D hpunct hk

/-- `add_to_reassembly_bundle_list`: the fragment is entered, or deleted for want of
memory. -/
theorem addToReassemblyBundleList_spec {slot : List Addr} (hs : Sound careful exact s m frags)
    (hslot : Alive careful s slot) (hb : s.bundles.cells a = some b)
    (hfr : careful → a ∉ frags) (hacc : careful → a ∉ s.accepted) :
    Ends (Tolerated careful) (addToReassemblyBundleList P env s slot a) fun r =>
      (∃ l₁ l₂, r = (l₁ ++ a :: l₂, { s with requests := s.requests + 1 }) ∧
        Inserted s.bundles a b slot l₁ l₂) ∨
      (env.malloc s.requests = none ∧ r.1 = slot ∧
        ∃ m', Sound careful exact r.2 m' frags ∧ Deleted careful s m a r.2 m') := by
  unfold addToReassemblyBundleList malloc
  apply (insertFragment_spec hslot hb).bind
  rintro slot' ⟨l₁, l₂, rfl, hins⟩
  cases hmem : env.malloc s.requests with
  | none =>
      apply (bundleDelete_spec (s := { s with requests := s.requests + 1 }) hs hb hfr
        (fun hc h => absurd h (hacc hc)) _).bind
      intro s' ⟨m', hs', hdel⟩
      exact Or.inr ⟨rfl, rfl, m', hs', ⟨hdel.self, hdel.others, hdel.bound, hdel.grew,
        hdel.reassembly, hdel.known, hdel.delivered, hdel.accepted⟩⟩
  | some gap => exact Or.inl ⟨l₁, l₂, rfl, hins⟩

/-! ## Entering a slot -/

theorem FragmentsHarmless.subset {l l' : List Addr} (h : FragmentsHarmless s l)
    (hsub : l' ⊆ l) : FragmentsHarmless s l' :=
  h.imp_right fun hno x hx => hno x (hsub hx)

/-- Without the fragment itself, its slot may still be complete. -/
theorem FragmentsHarmless.of_deleted {s' : Processor} {m' : UInt16 → Option Addr}
    {slot : List Addr} (hc : careful) (h : FragmentsHarmless s slot)
    (hdel : Deleted careful s m a s' m') (hlive : Alive careful s slot) (ha : a ∉ slot) :
    FragmentsHarmless s' slot := by
  rcases h with hlen | hno
  · exact Or.inl ((hdel.accepted hc).length_le.trans hlen)
  · refine Or.inr fun x hx c hcell => hno x hx c ?_
    obtain ⟨d, hd⟩ := hlive hc x hx
    have hxa : x ≠ a := by
      rintro rfl
      exact ha hx
    rwa [hdel.others x (Heap.lt_bound_of_cell hd) hxa] at hcell

/-- What a fragment comes to: it is gone, or it waits in the reassembly list. -/
def FragmentKept (s : Processor) (a : Addr) (b : Bundle) : Prop :=
  s.bundles.cells a = none ∨ (s.bundles.cells a = some b ∧ a ∈ s.reassembly.flatten)

/-- A bundle that waited for reassembly still does, or it is gone. -/
def WaitsOrGone (s : Processor) (x : Addr) : Prop :=
  x ∈ s.reassembly.flatten ∨ s.bundles.cells x = none

/-- What becomes of the reassembly list when a fragment enters a slot: the fragment
waits there; or there is no memory for it; or the slot is complete. -/
inductive Entered (env : Env) (s : Processor) (a : Addr) (b : Bundle)
    (before : List (List Addr)) (slot : List Addr) (after : List (List Addr)) :
    List (List Addr) → Prop
  | waiting {l₁ l₂ : List Addr} (hins : Inserted s.bundles a b slot l₁ l₂) :
      Entered env s a b before slot after (before ++ (l₁ ++ a :: l₂) :: after)
  | refused (hmem : env.malloc s.requests = none) :
      Entered env s a b before slot after (before ++ slot :: after)
  | complete : Entered env s a b before slot after (before ++ after)

theorem Entered.subset {before after slots : List (List Addr)} {slot : List Addr}
    (hent : Entered env s a b before slot after slots) :
    slots.flatten ⊆ a :: (before ++ slot :: after).flatten := by
  intro x hx
  cases hent with
  | refused => exact List.mem_cons_of_mem _ hx
  | complete =>
      simp only [List.flatten_append, List.flatten_cons, List.mem_cons, List.mem_append] at hx ⊢
      tauto
  | waiting hins =>
      rw [hins.split]
      simp only [List.flatten_append, List.flatten_cons, List.mem_cons, List.mem_append] at hx ⊢
      tauto

theorem waitsOrGone_of_tried {before after : List (List Addr)} {slot : List Addr}
    {s' : Processor}
    (hend : (s'.reassembly = before ++ slot :: after ∧ s'.bundles = s.bundles) ∨
      (s'.reassembly = before ++ after ∧ ∀ x ∈ slot, s'.bundles.cells x = none))
    {x : Addr} (hx : x ∈ (before ++ slot :: after).flatten) : WaitsOrGone s' x := by
  rcases hend with ⟨hreas, _⟩ | ⟨hreas, hgone⟩
  · exact Or.inl (by rw [hreas]; exact hx)
  · rcases List.mem_append.mp ((flatten_between before slot after).symm.subset hx) with h | h
    · exact Or.inr (hgone x h)
    · exact Or.inl (by rw [hreas]; exact h)

/-- A fragment is one of the references from its entry on. -/
theorem SoundParts.insert {before after : List (List Addr)} {slot l₁ l₂ : List Addr}
    (hs : Sound careful exact s m (before ++ slot :: after).flatten)
    (hb : s.bundles.cells a = some b) (hret : careful → b.ret = .reassemblyOnly)
    (hnew : careful → a ∉ (before ++ slot :: after).flatten)
    (hins : Inserted s.bundles a b slot l₁ l₂) :
    (before ++ (l₁ ++ a :: l₂) :: after).flatten.Perm (a :: (before ++ slot :: after).flatten) ∧
      Sound careful exact s m (before ++ (l₁ ++ a :: l₂) :: after).flatten := by
  have hperm : (before ++ (l₁ ++ a :: l₂) :: after).flatten.Perm
      (a :: (before ++ slot :: after).flatten) :=
    calc (before ++ (l₁ ++ a :: l₂) :: after).flatten.Perm
          (l₁ ++ a :: l₂ ++ (before ++ after).flatten) :=
          (flatten_between before (l₁ ++ a :: l₂) after).symm
      _ |>.Perm (a :: slot ++ (before ++ after).flatten) := hins.perm.append_right _
      _ |>.Perm (a :: (before ++ slot :: after).flatten) :=
          (flatten_between before slot after).cons a
  refine ⟨hperm, hs.withFrags ?_ fun hc =>
    ((hs.frags hc).cons hb (hret hc) (hnew hc)).perm hperm⟩
  intro x hx
  rcases List.mem_cons.mp (hperm.subset hx) with rfl | hx
  · exact Heap.lt_bound_of_cell hb
  · exact hs.below x hx

/-- A fragment is entered into a slot between others. -/
theorem enterSlot_spec {before after : List (List Addr)} {slot : List Addr}
    (hs : Sound careful exact s m (before ++ slot :: after).flatten)
    (hb : s.bundles.cells a = some b) (hret : careful → b.ret = .reassemblyOnly)
    (hnew : careful → a ∉ (before ++ slot :: after).flatten)
    (hfrag : careful → FragmentsHarmless s (a :: slot)) :
    Ends (Tolerated careful)
      (addToReassemblyBundleList P env s slot a >>= fun r =>
        tryReassemble P env r.2 before r.1 after)
      fun s' => ∃ m', Sound careful exact s' m' s'.reassembly.flatten ∧ Grew s m s' m' ∧
        Evolves s s' ∧ Entered env s a b before slot after s'.reassembly ∧
        KeepsKnown s s' (a :: slot) ∧ FragmentKept s' a b ∧
        ∀ x ∈ (before ++ slot :: after).flatten, WaitsOrGone s' x := by
  have hsub : slot ⊆ (before ++ slot :: after).flatten := by
    intro x hx
    simp [hx]
  have hacc : careful → a ∉ s.accepted := by
    intro hc hmem
    have hcust := (hs.accepted hc).ret hmem hb
    rw [hret hc] at hcust
    cases hcust
  apply (addToReassemblyBundleList_spec hs (hs.alive hsub) hb hnew hacc).bind
  rintro ⟨slot', s₁⟩ (⟨l₁, l₂, heq, hins⟩ | ⟨hmem, rfl, m₁, hs₁, hdel⟩)
  · obtain ⟨rfl, rfl⟩ := Prod.mk.inj heq
    obtain ⟨hperm, hs₁⟩ := hs.insert hb hret hnew hins
    have hfrag' : careful → FragmentsHarmless s (l₁ ++ a :: l₂) := fun hc =>
      (hfrag hc).subset hins.perm.subset
    apply (tryReassemble_spec (s := { s with requests := s.requests + 1 }) hs₁ hfrag').mono
    intro s' ⟨m', hs', hfades, hend, hkeeps⟩
    have hmem : a ∈ l₁ ++ a :: l₂ := by simp
    have hkeeps' : KeepsKnown s s' (a :: slot) := by
      intro D hpunct
      exact hkeeps D fun x hx => hpunct x (hins.perm.subset hx)
    refine ⟨m', hs', hfades.grew, ⟨hfades.evolves.cells, hfades.bound⟩, ?_, hkeeps', ?_, ?_⟩
    · rcases hend with ⟨hreas, _⟩ | ⟨hreas, _⟩
      · rw [hreas]
        exact .waiting hins
      · rw [hreas]
        exact .complete
    · rcases hend with ⟨hreas, hbun⟩ | ⟨_, hgone⟩
      · refine Or.inr ⟨by rw [hbun]; exact hb, ?_⟩
        rw [hreas]
        simp
      · exact Or.inl (hgone a hmem)
    · intro x hx
      exact waitsOrGone_of_tried hend (hperm.symm.subset (List.mem_cons_of_mem _ hx))
  · have hfrag' : careful → FragmentsHarmless s₁ slot' := fun hc =>
      ((hfrag hc).subset (List.subset_cons_self _ _)).of_deleted hc hdel (hs.alive hsub)
        fun h => hnew hc (hsub h)
    apply (tryReassemble_spec hs₁ hfrag').mono
    intro s' ⟨m', hs', hfades, hend, hkeeps⟩
    have hkeeps' : KeepsKnown s s' (a :: slot') := by
      intro D hpunct hk
      apply hkeeps D
      · intro x hx c hc
        obtain ⟨c₀, hc₀, hbare⟩ := hdel.evolves.cells x (hs.below x (hsub hx)) c hc
        exact (hpunct x (List.mem_cons_of_mem _ hx) c₀ hc₀).of_bare hbare
      · rw [hdel.known]
        exact hk
    refine ⟨m', hs', hdel.grew.trans hfades.grew, hdel.evolves.trans hfades.evolves, ?_,
      hkeeps', Or.inl (hfades.gone hdel.self), fun x hx => waitsOrGone_of_tried hend hx⟩
    rcases hend with ⟨hreas, _⟩ | ⟨hreas, _⟩
    · rw [hreas]
      exact .refused hmem
    · rw [hreas]
      exact .complete

/-- The fragments of the other slots belong to other bundles. -/
theorem OrderlySlots.others {h : Heap Bundle} {before after : List (List Addr)}
    {slot : List Addr} (hs : OrderlySlots h (before ++ slot :: after)) :
    ∀ l ∈ before ++ after, ∀ x ∈ l, ∀ y ∈ slot,
      Related (fun c d => mayReassemble c d = false) h x y := by
  obtain ⟨_, hafter, hcross⟩ := List.pairwise_append.mp hs.apart
  intro l hl x hx y hy
  rcases List.mem_append.mp hl with hl | hl
  · exact hcross l hl slot List.mem_cons_self x hx y hy
  · intro c d hc hd
    rw [mayReassemble_comm]
    exact (List.pairwise_cons.mp hafter).1 l hl y hy x hx d c hd hc

/-- How the offsets of a slot compare with that of the fragment that enters it. -/
theorem Inserted.offsets {h : Heap Bundle} {slot l₁ l₂ : List Addr}
    (hins : Inserted h a b slot l₁ l₂) (hslot : ByOffset h slot) :
    (∀ x ∈ l₁, ∀ c, h.cells x = some c → c.fragmentOffset ≤ b.fragmentOffset) ∧
    ∀ x ∈ l₂, ∀ c, h.cells x = some c → b.fragmentOffset ≤ c.fragmentOffset := by
  obtain ⟨hsplit, hfront, hback⟩ := hins
  subst hsplit
  constructor
  · intro x hx c hc
    obtain ⟨c', hc', hle⟩ := hfront x hx
    rw [hc] at hc'
    obtain rfl := Option.some.inj hc'
    exact hle
  · intro x hx c hc
    cases l₂ with
    | nil => cases hx
    | cons y ys =>
        obtain ⟨e, he, hlt⟩ := hback y ys rfl
        have hsorted := (List.pairwise_append.mp hslot).2.1
        rcases List.mem_cons.mp hx with rfl | hx
        · rw [hc] at he
          obtain rfl := Option.some.inj he
          exact UInt32.le_of_lt hlt
        · exact UInt32.le_trans (UInt32.le_of_lt hlt)
            ((List.pairwise_cons.mp hsorted).1 x hx e c he hc)

theorem Inserted.byOffset {h : Heap Bundle} {slot l₁ l₂ : List Addr}
    (hins : Inserted h a b slot l₁ l₂) (hslot : ByOffset h slot) (hb : h.cells a = some b) :
    ByOffset h (l₁ ++ a :: l₂) := by
  obtain ⟨hfront, hback⟩ := hins.offsets hslot
  rw [hins.split] at hslot
  exact hslot.enter hb hfront hback

/-- A fragment that enters a slot of its bundle is put in order. -/
theorem Inserted.orderly {h : Heap Bundle} {slot l₁ l₂ : List Addr}
    (hins : Inserted h a b slot l₁ l₂) (hslot : SlotOrderly h slot) (hb : h.cells a = some b)
    (hkin : ∀ x ∈ slot, ∀ c, h.cells x = some c → mayReassemble c b = true) :
    SlotOrderly h (l₁ ++ a :: l₂) := by
  obtain ⟨hfront, hback⟩ := hins.offsets hslot.sorted
  rw [hins.split] at hslot hkin
  exact hslot.enter hb hfront hback hkin

/-- Slots stay sorted when a fragment enters one of them. -/
theorem Entered.sorted {before after slots : List (List Addr)} {slot : List Addr}
    (hent : Entered env s a b before slot after slots)
    (hs : ∀ l ∈ before ++ slot :: after, ByOffset s.bundles l) (hb : s.bundles.cells a = some b) :
    ∀ l ∈ slots, ByOffset s.bundles l := by
  cases hent with
  | refused => exact hs
  | complete =>
      intro l hl
      apply hs l
      simp only [List.mem_append, List.mem_cons] at hl ⊢
      tauto
  | waiting hins =>
      intro l hl
      simp only [List.mem_append, List.mem_cons] at hl
      rcases hl with hl | rfl | hl
      · exact hs l (by simp [hl])
      · exact hins.byOffset (hs slot (by simp)) hb
      · exact hs l (by simp [hl])

/-- The whole slot belongs to the bundle of its first fragment. -/
theorem HeadMatches.all {h : Heap Bundle} {slot : List Addr} {answer : Bool}
    (hmatch : HeadMatches h b answer slot) (hslot : SlotOrderly h slot) :
    ∀ x ∈ slot, ∀ c, h.cells x = some c → mayReassemble c b = answer := by
  obtain ⟨y, ys, e, rfl, he, rfl⟩ := hmatch
  intro x hx c hc
  have hkin := hslot.kin x hx y List.mem_cons_self c e hc he
  rw [mayReassemble_comm c b, mayReassemble_eq_of_kin hkin, mayReassemble_comm]

/-- **The order after an entry** into a slot of the same bundle. -/
theorem Entered.orderly {before after slots : List (List Addr)} {slot : List Addr}
    (hent : Entered env s a b before slot after slots)
    (hs : OrderlySlots s.bundles (before ++ slot :: after)) (hb : s.bundles.cells a = some b)
    (hmatch : HeadMatches s.bundles b true slot) : OrderlySlots s.bundles slots := by
  have hslot := hs.each slot (by simp)
  cases hent with
  | refused => exact hs
  | complete => exact hs.sublist (by simp)
  | waiting hins =>
      apply hs.replace (hins.orderly hslot hb (hmatch.all hslot))
      intro l hl x hx y hy c d hc hd
      rcases List.mem_cons.mp (hins.perm.subset hy) with rfl | hy
      · rw [hb] at hd
        obtain rfl := Option.some.inj hd
        obtain ⟨z, zs, e, rfl, he, hke⟩ := hmatch
        rw [← mayReassemble_eq_of_kin hke]
        exact hs.others l hl x hx z List.mem_cons_self c e hc he
      · exact hs.others l hl x hx y hy c d hc hd

/-- The order after an entry into a new slot. -/
theorem Entered.orderly_new {slots slots' : List (List Addr)}
    (hent : Entered env s a b slots [] [] slots') (hs : OrderlySlots s.bundles slots)
    (hb : s.bundles.cells a = some b)
    (hmatch : ∀ slot ∈ slots, HeadMatches s.bundles b false slot)
    (hmem : (env.malloc s.requests).isSome) : OrderlySlots s.bundles slots' := by
  cases hent with
  | refused hnone =>
      rw [hnone] at hmem
      cases hmem
  | complete =>
      rw [List.append_nil]
      exact hs
  | waiting hins =>
      obtain ⟨rfl, rfl⟩ := List.append_eq_nil_iff.mp hins.split.symm
      apply hs.append hb
      intro l hl x hx c hc
      exact (hmatch l hl).all (hs.each l hl) x hx c hc

/-! ## The whole attempt -/

/-- What the handling of the bundle at `a` does to the state, as far as all bundles are
concerned.  `room` is what the order of the slots needs. -/
structure Handled (careful exact room : Prop) (a : Addr) (s : Processor)
    (m : UInt16 → Option Addr) (s' : Processor) (m' : UInt16 → Option Addr) : Prop where
  sound : Sound careful exact s' m' s'.reassembly.flatten
  grew : Grew s m s' m'
  evolves : Evolves s s'
  slots : s'.reassembly.flatten ⊆ a :: s.reassembly.flatten
  left : ∀ x ∈ s.reassembly.flatten, WaitsOrGone s' x
  sorted : (∀ l ∈ s.reassembly, ByOffset s.bundles l) → ∀ l ∈ s'.reassembly, ByOffset s'.bundles l
  orderly : careful → room → OrderlySlots s.bundles s.reassembly →
    OrderlySlots s'.bundles s'.reassembly
  known : KeepsKnown s s' (a :: s.reassembly.flatten)

/-- Other bundles than the fragments were handled. -/
theorem Handled.of_same_slots {room : Prop} {s' : Processor} {m' : UInt16 → Option Addr}
    (hs : Sound careful exact s m s.reassembly.flatten)
    (hs' : Sound careful exact s' m' s.reassembly.flatten) (hgrew : Grew s m s' m')
    (hev : Evolves s s') (hreas : s'.reassembly = s.reassembly)
    (hknown : KeepsKnown s s' (a :: s.reassembly.flatten)) :
    Handled careful exact room a s m s' m' where
  sound := by
    rw [hreas]
    exact hs'
  grew := hgrew
  evolves := hev
  slots := by
    rw [hreas]
    exact List.subset_cons_self _ _
  left x hx := Or.inl (by rw [hreas]; exact hx)
  sorted hsorted l hl := by
    rw [hreas] at hl
    exact (hsorted l hl).evolve fun x hx =>
      hev.cells x (hs.below x (List.mem_flatten.mpr ⟨l, hl, hx⟩))
  orderly _ _ hord := by
    rw [hreas]
    exact hord.evolve fun x hx => hev.cells x (hs.below x hx)
  known := hknown

theorem Handled.mono {room room' : Prop} {s' : Processor} {m' : UInt16 → Option Addr}
    (h : Handled careful exact room a s m s' m') (hroom : room' → room) :
    Handled careful exact room' a s m s' m' :=
  ⟨h.sound, h.grew, h.evolves, h.slots, h.left, h.sorted, fun hc hr => h.orderly hc (hroom hr),
    h.known⟩

/-- The order of the slots needs nothing. -/
theorem Handled.any {room : Prop} {s' : Processor} {m' : UInt16 → Option Addr}
    (h : Handled careful exact True a s m s' m') : Handled careful exact room a s m s' m' :=
  h.mono fun _ => trivial

theorem joinSlot_spec (hs : Sound careful exact s m s.reassembly.flatten)
    (hb : s.bundles.cells a = some b) (hret : careful → b.ret = .reassemblyOnly)
    (hnew : careful → a ∉ s.reassembly.flatten)
    (hfrag : careful → FragmentsHarmless s (a :: s.reassembly.flatten)) :
    Ends (Tolerated careful) (joinSlot P env s a) fun s' => ∃ m',
      Handled careful exact (SlotRoomy env s a) a s m s' m' ∧ FragmentKept s' a b := by
  have hacc : careful → a ∉ s.accepted := by
    intro hc hmem
    have hcust := (hs.accepted hc).ret hmem hb
    rw [hret hc] at hcust
    cases hcust
  unfold joinSlot
  apply (findSlot_spec (hs.alive (List.Subset.refl _)) hb).bind_of_ok
  intro r hsearch ⟨hfound, hnone⟩
  cases r with
  | some found =>
      obtain ⟨before, slot, after⟩ := found
      obtain ⟨hreas, hmatch⟩ := hfound before slot after rfl
      have hsub : a :: slot ⊆ a :: s.reassembly.flatten := by
        rw [hreas]
        intro x hx
        rcases List.mem_cons.mp hx with rfl | hx
        · exact List.mem_cons_self
        · simp [hx]
      have hs₁ : Sound careful exact s m (before ++ slot :: after).flatten := by
        rw [← hreas]
        exact hs
      have hnew₁ : careful → a ∉ (before ++ slot :: after).flatten := by
        rw [← hreas]
        exact hnew
      apply (enterSlot_spec hs₁ hb hret hnew₁ fun hc => (hfrag hc).subset hsub).mono
      intro s' ⟨m', hs', hgrew, hev, hent, hkeeps, hkept, hleft⟩
      have hsame : ∀ x ∈ s'.reassembly.flatten, ∀ c', s'.bundles.cells x = some c' →
          ∃ c, s.bundles.cells x = some c ∧ c'.bare = c.bare := by
        intro x hx c' hc'
        refine hev.cells x ?_ c' hc'
        rcases List.mem_cons.mp (hent.subset hx) with rfl | hx
        · exact Heap.lt_bound_of_cell hb
        · exact hs₁.below x hx
      refine ⟨m', ⟨hs', hgrew, hev, ?_, ?_, ?_, ?_, ?_⟩, hkept⟩
      · rw [hreas]
        exact hent.subset
      · rw [hreas]
        exact hleft
      · intro hsorted l hl
        rw [hreas] at hsorted
        exact (hent.sorted hsorted hb l hl).evolve fun x hx =>
          hsame x (List.mem_flatten.mpr ⟨l, hl, hx⟩)
      · intro _ _ hord
        rw [hreas] at hord
        exact (hent.orderly hord hb hmatch).evolve hsame
      · intro D hpunct
        exact hkeeps D fun x hx => hpunct x (hsub hx)
  | none =>
      dsimp only
      unfold malloc
      cases hmem : env.malloc s.requests with
      | none =>
          apply (bundleDelete_spec (s := { s with requests := s.requests + 1 }) hs hb hnew
            (fun hc h => absurd h (hacc hc)) _).mono
          intro s' ⟨m', hs', hdel⟩
          exact ⟨m', .of_same_slots hs hs' hdel.grew ⟨hdel.evolves.cells, hdel.bound⟩
            hdel.reassembly (keepsKnown_of_eq hdel.known), Or.inl hdel.self⟩
      | some gap =>
          dsimp only
          have hflat : (s.reassembly ++ [] :: []).flatten = s.reassembly.flatten := by simp
          have hs₁ : Sound careful exact { s with requests := s.requests + 1 } m
              (s.reassembly ++ [] :: []).flatten := by
            rw [hflat]
            exact hs
          have hfrag₁ : careful →
              FragmentsHarmless { s with requests := s.requests + 1 } (a :: []) :=
            fun hc => (hfrag hc).subset (by simp)
          apply (enterSlot_spec hs₁ hb hret (by rw [hflat]; exact hnew) hfrag₁).mono
          intro s' ⟨m', hs', hgrew, hev, hent, hkeeps, hkept, hleft⟩
          have hsub : s'.reassembly.flatten ⊆ a :: s.reassembly.flatten := by
            rw [← hflat]
            exact hent.subset
          rw [hflat] at hleft
          have hsame : ∀ x ∈ s'.reassembly.flatten, ∀ c', s'.bundles.cells x = some c' →
              ∃ c, s.bundles.cells x = some c ∧ c'.bare = c.bare := by
            intro x hx c' hc'
            refine hev.cells x ?_ c' hc'
            rcases List.mem_cons.mp (hsub hx) with rfl | hx
            · exact Heap.lt_bound_of_cell hb
            · exact hs.below x hx
          refine ⟨m', ⟨hs', hgrew, ⟨hev.cells, hev.bound⟩, hsub, hleft, ?_, ?_, ?_⟩, hkept⟩
          · intro hsorted l hl
            have hslots : ∀ l ∈ s.reassembly ++ [] :: [], ByOffset s.bundles l := by
              intro l hl
              rcases List.mem_append.mp hl with hl | hl
              · exact hsorted l hl
              · obtain rfl := List.mem_singleton.mp hl
                exact List.Pairwise.nil
            exact (hent.sorted hslots hb l hl).evolve fun x hx =>
              hsame x (List.mem_flatten.mpr ⟨l, hl, hx⟩)
          · intro _ hroom hord
            have hmem' : (env.malloc (s.requests + 1)).isSome := by
              apply hroom
              · unfold newSlotRequest
                rw [hsearch]
              · rw [hmem]
                rfl
            exact (hent.orderly_new hord hb (hnone rfl) hmem').evolve hsame
          · intro D hpunct
            exact hkeeps D fun x hx => hpunct x (by simpa using Or.inl hx)

/-- The search with a fragment that was freed ends in an access to it. -/
theorem joinSlot_dead (hnc : ¬ careful) (ha : s.bundles.cells a = none) {Q : Processor → Prop} :
    Ends (Tolerated careful) (joinSlot P env s a) Q := by
  have hdelete : ∀ {s : Processor} {Q : Processor → Prop} (reason : ReportReason),
      s.bundles.cells a = none → Ends (Tolerated careful) (bundleDelete P env s a reason) Q := by
    intro s Q reason ha
    exact ends_dead hnc ha
  unfold joinSlot
  cases hreas : s.reassembly with
  | cons slot rest =>
      cases slot with
      | nil => exact tolerated_other _
      | cons x xs =>
          apply Ends.bind (R := fun _ => False)
          · apply ends_bundle (fun hc => absurd hc hnc)
            intro c _
            exact ends_dead hnc ha
          · exact fun _ h => h.elim
  | nil =>
      unfold findSlot
      rw [ok_bind]
      dsimp only
      unfold malloc
      cases env.malloc s.requests with
      | none => exact hdelete _ ha
      | some gap =>
          dsimp only
          unfold addToReassemblyBundleList insertFragment malloc
          rw [ok_bind]
          dsimp only
          cases env.malloc (s.requests + 1) with
          | none =>
              apply Ends.bind (R := fun _ => False)
              · apply Ends.bind (R := fun _ => False)
                · exact hdelete (s := { s with requests := s.requests + 1 + 1 }) _ ha
                · exact fun _ h => h.elim
              · exact fun _ h => h.elim
          | some gap =>
              apply ends_of_eq rfl
              unfold tryReassemble
              apply Ends.bind (R := fun _ => False)
              · exact ends_dead hnc ha
              · exact fun _ h => h.elim

/-- **`bundle_attempt_reassembly`**.  It does not return if the original bundle is known. -/
theorem bundleAttemptReassembly_spec (hs : Sound careful exact s m s.reassembly.flatten)
    (hb : s.bundles.cells a = some b) (hret : careful → b.ret = .reassemblyOnly)
    (hnew : careful → a ∉ s.reassembly.flatten)
    (hfrag : careful → FragmentsHarmless s (a :: s.reassembly.flatten))
    (hknown : careful → bundleReassembledIsKnown s b = false) :
    Ends (Tolerated careful) (bundleAttemptReassembly P env s a) fun s' => ∃ m',
      Handled careful exact (SlotRoomy env s a) a s m s' m' ∧ FragmentKept s' a b ∧
      bundleReassembledIsKnown s b = false := by
  unfold bundleAttemptReassembly
  apply ends_of_eq (bundle_of_cell hb)
  cases hk : bundleReassembledIsKnown s b with
  | false =>
      apply ends_of_eq rfl
      apply (joinSlot_spec hs hb hret hnew hfrag).mono
      intro s' ⟨m', hh, hkept⟩
      exact ⟨m', hh, hkept, rfl⟩
  | true =>
      have hnc : ¬ careful := by
        intro hc
        rw [hknown hc] at hk
        cases hk
      apply Ends.bind (R := fun s₁ => s₁.bundles.cells a = none)
      · apply ends_of_eq (update_of_cell hb _)
        have hs₁ := hs.set_ret hb { b.ret with reassemblyPending := false }
          (fun hc => absurd hc hnc) (fun hc => absurd hc hnc)
        apply (bundleDiscard_spec hs₁ (put_self _ _ _) (fun hc => absurd hc hnc)
          (fun hc => absurd hc hnc) (fun hc => absurd hc hnc)).mono
        intro s₁ ⟨_, hdisc⟩
        exact hdisc.self
      · intro s₁ hdead
        exact joinSlot_dead hnc hdead

end Specs

end BundleProcessor
