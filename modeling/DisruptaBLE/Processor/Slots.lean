import DisruptaBLE.Processor.Records

/-!
# The order of the reassembly list

A slot holds the fragments of one bundle, by ascending offset; no two slots hold
fragments of the same bundle.  `OrderlySlots` says so, and the lemmas below say what
keeps it: handling other bundles, the removal of a slot, and the entry of a fragment
where `add_to_reassembly_bundle_list` puts it.

An empty slot is not in order: `bundle_attempt_reassembly` reads its first bundle.  Such
a slot is linked when there is memory for the slot and none for its entry, which
`SlotRoomy` rules out.
-/

namespace BundleProcessor

open PtrHeap

/-- The number of the request for a new slot, if no slot is found for the bundle. -/
def newSlotRequest (s : Processor) (a : Addr) : Option Nat :=
  match findSlot s a s.reassembly with
  | .ok none => some s.requests
  | _ => none

/-- If a new slot is needed and there is memory for it, there is also memory for its
entry. -/
def SlotRoomy (env : Env) (s : Processor) (a : Addr) : Prop :=
  ∀ n, newSlotRequest s a = some n → (env.malloc n).isSome → (env.malloc (n + 1)).isSome

/-- A relation between the bundles at two addresses. -/
def Related (R : Bundle → Bundle → Prop) (h : Heap Bundle) (x y : Addr) : Prop :=
  ∀ c d, h.cells x = some c → h.cells y = some d → R c d

/-- Fragments by ascending offset. -/
def ByOffset (h : Heap Bundle) (slot : List Addr) : Prop :=
  slot.Pairwise (Related (fun c d => c.fragmentOffset ≤ d.fragmentOffset) h)

/-- The fragments of a slot. -/
structure SlotOrderly (h : Heap Bundle) (slot : List Addr) : Prop where
  nonempty : slot ≠ []
  sorted : ByOffset h slot
  kin : ∀ x ∈ slot, ∀ y ∈ slot, Related (fun c d => mayReassemble c d = true) h x y

/-- The slots of the reassembly list. -/
structure OrderlySlots (h : Heap Bundle) (slots : List (List Addr)) : Prop where
  each : ∀ slot ∈ slots, SlotOrderly h slot
  apart : slots.Pairwise fun l l' => ∀ x ∈ l, ∀ y ∈ l',
    Related (fun c d => mayReassemble c d = false) h x y

section Orderly

variable {h h' : Heap Bundle} {slot : List Addr} {slots before after : List (List Addr)}
  {a : Addr} {b : Bundle}

theorem orderlySlots_nil : OrderlySlots h [] := ⟨by simp, .nil⟩

theorem OrderlySlots.sublist {slots' : List (List Addr)} (hs : OrderlySlots h slots)
    (hsub : slots'.Sublist slots) : OrderlySlots h slots' :=
  ⟨fun slot hslot => hs.each slot (hsub.subset hslot), hs.apart.sublist hsub⟩

/-- What `may_reassemble` compares. -/
theorem mayReassemble_iff (c d : Bundle) : mayReassemble c d = true ↔
    c.creationTimestampMs = d.creationTimestampMs ∧ c.sequenceNumber = d.sequenceNumber ∧
      c.source = d.source := by
  simp [mayReassemble, and_assoc]

theorem mayReassemble_congr {c c' d d' : Bundle} (hc : c'.bare = c.bare)
    (hd : d'.bare = d.bare) : mayReassemble c' d' = mayReassemble c d := by
  have hc₁ : c'.creationTimestampMs = c.creationTimestampMs :=
    eq_of_bare Bundle.creationTimestampMs (fun _ => rfl) hc
  have hc₂ : c'.sequenceNumber = c.sequenceNumber :=
    eq_of_bare Bundle.sequenceNumber (fun _ => rfl) hc
  have hc₃ : c'.source = c.source :=
    eq_of_bare Bundle.source (fun _ => rfl) hc
  have hd₁ : d'.creationTimestampMs = d.creationTimestampMs :=
    eq_of_bare Bundle.creationTimestampMs (fun _ => rfl) hd
  have hd₂ : d'.sequenceNumber = d.sequenceNumber :=
    eq_of_bare Bundle.sequenceNumber (fun _ => rfl) hd
  have hd₃ : d'.source = d.source :=
    eq_of_bare Bundle.source (fun _ => rfl) hd
  unfold mayReassemble
  rw [hc₁, hc₂, hc₃, hd₁, hd₂, hd₃]

/-- A relation that depends on what stays of the bundles. -/
theorem Related.evolve {R : Bundle → Bundle → Prop} {x y : Addr} (hR : Related R h x y)
    (hx : ∀ c', h'.cells x = some c' → ∃ c, h.cells x = some c ∧ c'.bare = c.bare)
    (hy : ∀ c', h'.cells y = some c' → ∃ c, h.cells y = some c ∧ c'.bare = c.bare)
    (hcongr : ∀ c c' d d', c'.bare = c.bare → d'.bare = d.bare → R c d → R c' d') :
    Related R h' x y := by
  intro c' d' hc' hd'
  obtain ⟨c, hc, hcb⟩ := hx c' hc'
  obtain ⟨d, hd, hdb⟩ := hy d' hd'
  exact hcongr c c' d d' hcb hdb (hR c d hc hd)

theorem ByOffset.evolve (hs : ByOffset h slot)
    (hcells : ∀ x ∈ slot, ∀ c', h'.cells x = some c' →
      ∃ c, h.cells x = some c ∧ c'.bare = c.bare) : ByOffset h' slot := by
  refine List.Pairwise.imp_of_mem ?_ hs
  intro x y hx hy hR
  apply hR.evolve (hcells x hx) (hcells y hy)
  intro c c' d d' hc hd hle
  rw [show c'.fragmentOffset = c.fragmentOffset from
    eq_of_bare Bundle.fragmentOffset (fun _ => rfl) hc,
    show d'.fragmentOffset = d.fragmentOffset from
    eq_of_bare Bundle.fragmentOffset (fun _ => rfl) hd]
  exact hle

/-- **The order stays** while the bundles stay the same ones. -/
theorem OrderlySlots.evolve (hs : OrderlySlots h slots)
    (hcells : ∀ x ∈ slots.flatten, ∀ c', h'.cells x = some c' →
      ∃ c, h.cells x = some c ∧ c'.bare = c.bare) : OrderlySlots h' slots := by
  have hin : ∀ slot ∈ slots, ∀ x ∈ slot, ∀ c', h'.cells x = some c' →
      ∃ c, h.cells x = some c ∧ c'.bare = c.bare := by
    intro slot hslot x hx
    exact hcells x (List.mem_flatten.mpr ⟨slot, hslot, hx⟩)
  refine ⟨?_, ?_⟩
  · intro slot hslot
    obtain ⟨hne, hsorted, hkin⟩ := hs.each slot hslot
    refine ⟨hne, hsorted.evolve (hin slot hslot), ?_⟩
    · intro x hx y hy
      apply (hkin x hx y hy).evolve (hin slot hslot x hx) (hin slot hslot y hy)
      intro c c' d d' hc hd hR
      rw [mayReassemble_congr hc hd]
      exact hR
  · refine hs.apart.imp_of_mem ?_
    intro l l' hl hl' hR x hx y hy
    apply (hR x hx y hy).evolve (hin l hl x hx) (hin l' hl' y hy)
    intro c c' d d' hc hd hR
    rw [mayReassemble_congr hc hd]
    exact hR

theorem mayReassemble_eq_of_kin {c d : Bundle} (hcd : mayReassemble c d = true) (e : Bundle) :
    mayReassemble e c = mayReassemble e d := by
  obtain ⟨h₁, h₂, h₃⟩ := (mayReassemble_iff c d).mp hcd
  unfold mayReassemble
  rw [h₁, h₂, h₃]

theorem mayReassemble_comm (c d : Bundle) : mayReassemble c d = mayReassemble d c := by
  rw [Bool.eq_iff_iff, mayReassemble_iff, mayReassemble_iff]
  constructor
  · rintro ⟨h₁, h₂, h₃⟩
    exact ⟨h₁.symm, h₂.symm, h₃.symm⟩
  · rintro ⟨h₁, h₂, h₃⟩
    exact ⟨h₁.symm, h₂.symm, h₃.symm⟩

/-- A fragment is put behind those with a smaller or equal offset. -/
theorem ByOffset.enter {l₁ l₂ : List Addr} (hs : ByOffset h (l₁ ++ l₂))
    (hb : h.cells a = some b)
    (hfront : ∀ x ∈ l₁, ∀ c, h.cells x = some c → c.fragmentOffset ≤ b.fragmentOffset)
    (hback : ∀ x ∈ l₂, ∀ c, h.cells x = some c → b.fragmentOffset ≤ c.fragmentOffset) :
    ByOffset h (l₁ ++ a :: l₂) := by
  have hself : ∀ {c : Bundle}, h.cells a = some c → c = b := by
    intro c hc
    rw [hb] at hc
    exact (Option.some.inj hc).symm
  obtain ⟨hs₁, hs₂, hcross⟩ := List.pairwise_append.mp hs
  refine List.pairwise_append.mpr ⟨hs₁, List.pairwise_cons.mpr ⟨?_, hs₂⟩, ?_⟩
  · intro x hx c d hc hd
    obtain rfl := hself hc
    exact hback x hx d hd
  · intro x hx y hy
    rcases List.mem_cons.mp hy with rfl | hy
    · intro c d hc hd
      obtain rfl := hself hd
      exact hfront x hx c hc
    · exact hcross x hx y hy

/-- A fragment enters a slot of its bundle, behind those with a smaller or equal offset. -/
theorem SlotOrderly.enter {l₁ l₂ : List Addr} (hs : SlotOrderly h (l₁ ++ l₂))
    (hb : h.cells a = some b)
    (hfront : ∀ x ∈ l₁, ∀ c, h.cells x = some c → c.fragmentOffset ≤ b.fragmentOffset)
    (hback : ∀ x ∈ l₂, ∀ c, h.cells x = some c → b.fragmentOffset ≤ c.fragmentOffset)
    (hkin : ∀ x ∈ l₁ ++ l₂, ∀ c, h.cells x = some c → mayReassemble c b = true) :
    SlotOrderly h (l₁ ++ a :: l₂) := by
  have hself : ∀ {c : Bundle}, h.cells a = some c → c = b := by
    intro c hc
    rw [hb] at hc
    exact (Option.some.inj hc).symm
  have hmem : ∀ x ∈ l₁ ++ a :: l₂, x = a ∨ x ∈ l₁ ++ l₂ := by
    intro x hx
    simp only [List.mem_append, List.mem_cons] at hx ⊢
    tauto
  refine ⟨by simp, hs.sorted.enter hb hfront hback, ?_⟩
  · intro x hx y hy c d hc hd
    rcases hmem x hx with rfl | hxs
    · obtain rfl := hself hc
      rcases hmem y hy with rfl | hys
      · obtain rfl := hself hd
        simp [mayReassemble]
      · rw [mayReassemble_comm]
        exact hkin y hys d hd
    · rcases hmem y hy with rfl | hys
      · obtain rfl := hself hd
        exact hkin x hxs c hc
      · exact hs.kin x hxs y hys c d hc hd

/-- Another slot in the place of one. -/
theorem OrderlySlots.replace {slot' : List Addr}
    (hs : OrderlySlots h (before ++ slot :: after)) (hslot : SlotOrderly h slot')
    (hapart : ∀ l ∈ before ++ after, ∀ x ∈ l, ∀ y ∈ slot',
      Related (fun c d => mayReassemble c d = false) h x y) :
    OrderlySlots h (before ++ slot' :: after) := by
  obtain ⟨hb, ha, hcross⟩ := List.pairwise_append.mp hs.apart
  obtain ⟨_, ha⟩ := List.pairwise_cons.mp ha
  refine ⟨?_, List.pairwise_append.mpr ⟨hb, List.pairwise_cons.mpr ⟨?_, ha⟩, ?_⟩⟩
  · intro l hl
    simp only [List.mem_append, List.mem_cons] at hl
    rcases hl with hl | rfl | hl
    · exact hs.each l (by simp [hl])
    · exact hslot
    · exact hs.each l (by simp [hl])
  · intro l hl x hx y hy c d hc hd
    rw [mayReassemble_comm]
    exact hapart l (by simp [hl]) y hy x hx d c hd hc
  · intro l hl l' hl' x hx y hy
    rcases List.mem_cons.mp hl' with rfl | hl'
    · exact hapart l (by simp [hl]) x hx y hy
    · exact hcross l hl l' (List.mem_cons_of_mem _ hl') x hx y hy

/-- A new slot for the first fragment of a bundle. -/
theorem OrderlySlots.append (hs : OrderlySlots h slots) (hb : h.cells a = some b)
    (hapart : ∀ l ∈ slots, ∀ x ∈ l, ∀ c, h.cells x = some c → mayReassemble c b = false) :
    OrderlySlots h (slots ++ [[a]]) := by
  have hself : ∀ {c : Bundle}, h.cells a = some c → c = b := by
    intro c hc
    rw [hb] at hc
    exact (Option.some.inj hc).symm
  refine ⟨?_, List.pairwise_append.mpr ⟨hs.apart, List.pairwise_singleton _ _, ?_⟩⟩
  · intro l hl
    rcases List.mem_append.mp hl with hl | hl
    · exact hs.each l hl
    · obtain rfl := List.mem_singleton.mp hl
      refine ⟨by simp, List.pairwise_singleton _ _, ?_⟩
      intro x hx y hy c d hc hd
      obtain rfl := List.mem_singleton.mp hx
      obtain rfl := List.mem_singleton.mp hy
      obtain rfl := hself hc
      obtain rfl := hself hd
      simp [mayReassemble]
  · intro l hl l' hl' x hx y hy c d hc hd
    obtain rfl := List.mem_singleton.mp hl'
    obtain rfl := List.mem_singleton.mp hy
    obtain rfl := hself hd
    exact hapart l hl x hx c hc

end Orderly

end BundleProcessor
