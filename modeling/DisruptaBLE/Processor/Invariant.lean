import DisruptaBLE.Lib.Outcome
import DisruptaBLE.Processor.Handlers
import Mathlib.Algebra.BigOperators.Group.Finset.Basic
import Mathlib.Data.UInt

/-!
# The invariant of the bundle processor

`Sound` says that the storage and the bundles in memory agree: what is stored is
alive under its own id, and what is alive with an id is stored.  Two further parts
are switched on by a parameter each.  With `exact`, the byte counter of the storage
is the sum of the payload lengths.  With `careful`, the custody manager refers to
distinct bundles with accepted custody, and the reassembly list to distinct bundles
that wait for reassembly and for nothing else.

The same switch `careful` decides which faults the specifications below tolerate:
a careful program does not touch a freed bundle and drops no bundle with retention
constraints.  So one specification of a function serves both for what it does when it
returns, whatever the state, and for its safety in a careful one.
-/

namespace BundleProcessor

open PtrHeap BundleStorage Outcome

/-- The faults that a program may end in. -/
def Tolerated (careful : Prop) (f : Fault) : Prop := careful → f ≠ .stale ∧ f ≠ .retained

theorem tolerated_other {careful : Prop} (f : PtrHeap.Fault) : Tolerated careful (.other f) :=
  fun _ => ⟨by simp, by simp⟩

theorem tolerated_of_not {careful : Prop} (h : ¬ careful) (f : Fault) : Tolerated careful f :=
  fun hc => absurd hc h

/-- A part of the program without access to bundles: only what it returns matters. -/
theorem ends_outside {careful : Prop} {α γ : Type} {x : Except PtrHeap.Fault α}
    {f : α → Except Fault γ} {Q : γ → Prop}
    (h : ∀ a, x = .ok a → Ends (Tolerated careful) (f a) Q) :
    Ends (Tolerated careful) (outside x >>= f) Q := by
  cases x with
  | error e => exact tolerated_other e
  | ok a => exact h a rfl

/-! ## Reading and writing bundles -/

theorem bundle_of_cell {s : Processor} {a : Addr} {b : Bundle}
    (h : s.bundles.cells a = some b) : s.bundle a = .ok b := by
  simp [Processor.bundle, h]

theorem bundle_of_none {s : Processor} {a : Addr} (h : s.bundles.cells a = none) :
    s.bundle a = .error .stale := by
  simp [Processor.bundle, h]

theorem update_of_cell {s : Processor} {a : Addr} {b : Bundle}
    (h : s.bundles.cells a = some b) (f : Bundle → Bundle) :
    s.update a f = .ok (s.put a (f b)) := by
  simp [Processor.update, h]

theorem put_self (s : Processor) (a : Addr) (b : Bundle) :
    (s.put a b).bundles.cells a = some b := Heap.cells_set_self _ _ _

theorem put_ne (s : Processor) {a x : Addr} (hne : x ≠ a) (b : Bundle) :
    (s.put a b).bundles.cells x = s.bundles.cells x := Heap.cells_set_ne _ hne _

theorem bound_le_bound_put (s : Processor) (a : Addr) (b : Bundle) :
    s.bundles.bound ≤ (s.put a b).bundles.bound := Heap.bound_le_bound_set _ _ _

theorem update_of_none {s : Processor} {a : Addr} (h : s.bundles.cells a = none)
    (f : Bundle → Bundle) : s.update a f = .error .stale := by
  simp [Processor.update, h]

/-- Reading a bundle that a careful state keeps alive. -/
theorem ends_bundle {careful : Prop} {s : Processor} {a : Addr} {γ : Type}
    {f : Bundle → Except Fault γ} {Q : γ → Prop}
    (hlive : careful → ∃ b, s.bundles.cells a = some b)
    (h : ∀ b, s.bundles.cells a = some b → Ends (Tolerated careful) (f b) Q) :
    Ends (Tolerated careful) (s.bundle a >>= f) Q := by
  cases hb : s.bundles.cells a with
  | none =>
      rw [bundle_of_none hb]
      intro hc
      obtain ⟨b, hb'⟩ := hlive hc
      simp [hb] at hb'
  | some b => exact ends_of_eq (bundle_of_cell hb) (h b hb)

/-- Reading a bundle that was freed. -/
theorem ends_dead {careful : Prop} {s : Processor} {a : Addr} {γ : Type}
    {f : Bundle → Except Fault γ} {Q : γ → Prop} (hnc : ¬ careful)
    (ha : s.bundles.cells a = none) : Ends (Tolerated careful) (s.bundle a >>= f) Q := by
  rw [bundle_of_none ha]
  exact tolerated_of_not hnc _

/-- A step under a condition. -/
theorem ends_when {careful : Prop} {s : Processor} {c : Bool}
    {f : Processor → Except Fault Processor} {Q : Processor → Prop}
    (hyes : c = true → Ends (Tolerated careful) (f s) Q) (hno : c = false → Q s) :
    Ends (Tolerated careful) (s.when c f) Q := by
  cases c with
  | false => exact hno rfl
  | true => exact hyes rfl

/-! ## The bytes of the stored bundles -/

instance fintypeUInt16 : Fintype UInt16 :=
  Fintype.ofEquiv (Fin UInt16.size) ⟨UInt16.ofFin, UInt16.toFin, fun _ => rfl, fun _ => rfl⟩

/-- The payload length of the bundle behind an entry of the storage. -/
def lengthAt (bundles : Heap Bundle) (p : Option Addr) : UInt32 :=
  ((p.bind bundles.cells).map Bundle.payloadLength).getD 0

@[simp] theorem lengthAt_none (bundles : Heap Bundle) : lengthAt bundles none = 0 := rfl

theorem lengthAt_some {bundles : Heap Bundle} {a : Addr} {b : Bundle}
    (h : bundles.cells a = some b) : lengthAt bundles (some a) = b.payloadLength := by
  simp [lengthAt, h]

/-- The sum of the payload lengths over the ids. -/
def mapBytes (bundles : Heap Bundle) (m : UInt16 → Option Addr) : UInt32 :=
  ∑ id, lengthAt bundles (m id)

/-- Two sums that differ in one term. -/
theorem sum_exchange {f g : UInt16 → UInt32} (i : UInt16) (h : ∀ j, j ≠ i → f j = g j) :
    ∑ j, f j + g i = ∑ j, g j + f i := by
  have hrest : ∑ j ∈ Finset.univ.erase i, f j = ∑ j ∈ Finset.univ.erase i, g j :=
    Finset.sum_congr rfl fun j hj => h j (Finset.ne_of_mem_erase hj)
  rw [← Finset.add_sum_erase _ f (Finset.mem_univ i),
    ← Finset.add_sum_erase _ g (Finset.mem_univ i), hrest, add_right_comm, add_comm (f i),
    add_right_comm]

theorem mapBytes_congr {h h' : Heap Bundle} {m : UInt16 → Option Addr}
    (heq : ∀ id, lengthAt h' (m id) = lengthAt h (m id)) : mapBytes h' m = mapBytes h m :=
  Finset.sum_congr rfl fun id _ => heq id

/-- The bytes of a map with one more entry. -/
theorem mapBytes_update_some {h : Heap Bundle} {m : UInt16 → Option Addr} {id : UInt16}
    {a : Addr} {b : Bundle} (hnone : m id = none) (hb : h.cells a = some b) :
    mapBytes h (Function.update m id (some a)) = mapBytes h m + b.payloadLength := by
  have hex := sum_exchange (f := fun j => lengthAt h (Function.update m id (some a) j))
    (g := fun j => lengthAt h (m j)) id (fun j hj => by simp [Function.update_of_ne hj])
  simpa [mapBytes, hnone, lengthAt_some hb] using hex

/-- The bytes of a map with one entry less. -/
theorem mapBytes_update_none {h : Heap Bundle} {m : UInt16 → Option Addr} {id : UInt16}
    {a : Addr} {b : Bundle} (hsome : m id = some a) (hb : h.cells a = some b) :
    mapBytes h (Function.update m id none) = mapBytes h m - b.payloadLength := by
  have hex := sum_exchange (f := fun j => lengthAt h (m j))
    (g := fun j => lengthAt h (Function.update m id none j)) id
    (fun j hj => by simp [Function.update_of_ne hj])
  have heq : mapBytes h m = mapBytes h (Function.update m id none) + b.payloadLength := by
    simpa [mapBytes, hsome, lengthAt_some hb] using hex
  rw [heq, UInt32.add_sub_cancel]

/-! ## The invariant -/

/-- The references of a list are distinct and lead to bundles whose constraints
satisfy `p`. -/
structure Refs (p : RetConstraints → Prop) (bundles : Heap Bundle) (l : List Addr) : Prop where
  nodup : l.Nodup
  live : ∀ a ∈ l, ∃ b, bundles.cells a = some b ∧ p b.ret

section Refs

variable {p : RetConstraints → Prop} {h h' : Heap Bundle} {l l' : List Addr}

theorem Refs.nil : Refs p h [] := ⟨List.nodup_nil, by simp⟩

theorem Refs.mono (hl : Refs p h l)
    (hkeep : ∀ a ∈ l, ∀ b, h.cells a = some b → p b.ret → ∃ b', h'.cells a = some b' ∧ p b'.ret) :
    Refs p h' l := by
  refine ⟨hl.nodup, fun a ha => ?_⟩
  obtain ⟨b, hb, hp⟩ := hl.live a ha
  exact hkeep a ha b hb hp

theorem Refs.sublist (hl : Refs p h l) (hsub : l'.Sublist l) : Refs p h l' :=
  ⟨hl.nodup.sublist hsub, fun a ha => hl.live a (hsub.subset ha)⟩

theorem Refs.perm (hl : Refs p h l) (hperm : l'.Perm l) : Refs p h l' :=
  ⟨hperm.nodup_iff.mpr hl.nodup, fun a ha => hl.live a (hperm.subset ha)⟩

theorem Refs.cons (hl : Refs p h l) {a : Addr} {b : Bundle} (hb : h.cells a = some b)
    (hp : p b.ret) (ha : a ∉ l) : Refs p h (a :: l) := by
  refine ⟨List.nodup_cons.mpr ⟨ha, hl.nodup⟩, ?_⟩
  intro x hx
  rcases List.mem_cons.mp hx with rfl | hx
  · exact ⟨b, hb, hp⟩
  · exact hl.live x hx

theorem Refs.ret (hl : Refs p h l) {a : Addr} {b : Bundle} (ha : a ∈ l)
    (hb : h.cells a = some b) : p b.ret := by
  obtain ⟨c, hc, hp⟩ := hl.live a ha
  rw [hb] at hc
  obtain rfl := Option.some.inj hc
  exact hp

/-- What is not alive is not referred to. -/
theorem Refs.not_mem (hl : Refs p h l) {a : Addr} (ha : h.cells a = none) : a ∉ l := by
  intro hmem
  obtain ⟨c, hc, _⟩ := hl.live a hmem
  simp [ha] at hc

/-- A write to one bundle. -/
theorem Refs.set (hl : Refs p h l) {a : Addr} {b' : Bundle} (hp : a ∈ l → p b'.ret) :
    Refs p (h.set a b') l := by
  refine hl.mono fun x hx b hb hpb => ?_
  by_cases hxa : x = a
  · subst hxa
    exact ⟨b', by simp, hp hx⟩
  · exact ⟨b, by simpa [hxa] using hb, hpb⟩

/-- The release of a bundle without a reference. -/
theorem Refs.erase (hl : Refs p h l) {a : Addr} (ha : a ∉ l) : Refs p (h.erase a) l := by
  refine hl.mono fun x hx b hb hpb => ⟨b, ?_, hpb⟩
  have hxa : x ≠ a := by
    rintro rfl
    exact ha hx
  simpa [hxa] using hb

end Refs

/-- The invariant, over the parts of the state that it concerns.  `m` is the map that
the storage represents, and `frags` are the bundles that reassembly refers to. -/
structure SoundParts (careful exact : Prop) (bundles : Heap Bundle) (store : Store Addr)
    (accepted : List Addr) (m : UInt16 → Option Addr) (frags : List Addr) : Prop where
  rep : Represents store m
  stored : ∀ id a, m id = some a → ∃ b, bundles.cells a = some b ∧ b.id = id
  ids : ∀ a b, bundles.cells a = some b → b.id ≠ invId → m b.id = some a
  bytes : exact → store.bundleBytes = mapBytes bundles m
  below : ∀ a ∈ frags, a < bundles.bound
  accepted : careful → Refs (·.custodyAccepted = true) bundles accepted
  frags : careful → Refs (· = .reassemblyOnly) bundles frags

/-- The invariant of a state. -/
abbrev Sound (careful exact : Prop) (s : Processor) (m : UInt16 → Option Addr)
    (frags : List Addr) : Prop :=
  SoundParts careful exact s.bundles s.store s.accepted m frags

section Sound

variable {careful exact : Prop} {s : Processor} {m : UInt16 → Option Addr} {frags : List Addr}

theorem sound_init : Sound careful exact Processor.init (fun _ => none) [] where
  rep := ⟨.nil, storeHolds_init, rfl⟩
  stored _ _ h := by cases h
  ids _ _ h := by cases h
  bytes _ := by simp [mapBytes, Processor.init, Store.init]
  below _ h := by cases h
  accepted _ := Refs.nil
  frags _ := Refs.nil

/-- Other references of the reassembly list. -/
theorem SoundParts.withFrags (hs : Sound careful exact s m frags) {frags' : List Addr}
    (hbelow : ∀ a ∈ frags', a < s.bundles.bound)
    (hfr : careful → Refs (· = .reassemblyOnly) s.bundles frags') :
    Sound careful exact s m frags' :=
  ⟨hs.rep, hs.stored, hs.ids, hs.bytes, hbelow, hs.accepted, hfr⟩

/-- A bundle is stored under its own id only. -/
theorem SoundParts.id_eq (hs : Sound careful exact s m frags) {a : Addr} {b : Bundle}
    (hb : s.bundles.cells a = some b) {id : UInt16} (hm : m id = some a) : id = b.id := by
  obtain ⟨c, hc, hcid⟩ := hs.stored id a hm
  rw [hb] at hc
  obtain rfl := Option.some.inj hc
  exact hcid.symm

/-- A bundle without an id is not stored. -/
theorem SoundParts.not_stored (hs : Sound careful exact s m frags) {a : Addr} {b : Bundle}
    (hb : s.bundles.cells a = some b) (hid : b.id = invId) (id : UInt16) : m id ≠ some a := by
  intro hm
  have heq := hs.id_eq hb hm
  rw [heq, hid, hs.rep.map_invId] at hm
  cases hm

/-- What is not alive is not stored. -/
theorem SoundParts.not_stored_of_none (hs : Sound careful exact s m frags) {a : Addr}
    (ha : s.bundles.cells a = none) (id : UInt16) : m id ≠ some a := by
  intro hm
  obtain ⟨c, hc, _⟩ := hs.stored id a hm
  simp [ha] at hc

/-- The bytes do not depend on bundles that are not stored. -/
theorem mapBytes_frame {h h' : Heap Bundle} {a : Addr} (hm : ∀ id, m id ≠ some a)
    (hcells : ∀ x, x ≠ a → h'.cells x = h.cells x) : mapBytes h' m = mapBytes h m := by
  refine mapBytes_congr fun id => ?_
  cases hx : m id with
  | none => rfl
  | some x =>
      have hxa : x ≠ a := by
        intro heq
        obtain rfl := heq
        exact hm id hx
      simp [lengthAt, hcells x hxa]

theorem mapBytes_set {h : Heap Bundle} {a : Addr} (hm : ∀ id, m id ≠ some a) (b : Bundle) :
    mapBytes (h.set a b) m = mapBytes h m :=
  mapBytes_frame hm fun _ hx => Heap.cells_set_ne h hx b

theorem mapBytes_erase {h : Heap Bundle} {a : Addr} (hm : ∀ id, m id ≠ some a) :
    mapBytes (h.erase a) m = mapBytes h m :=
  mapBytes_frame hm fun _ hx => Heap.cells_erase_ne h hx

/-- A write to a bundle that keeps its id and its payload length, and the constraints
that references to it rely on. -/
theorem SoundParts.set (hs : Sound careful exact s m frags) {a : Addr} {b b' : Bundle}
    (hb : s.bundles.cells a = some b) (hid : b'.id = b.id)
    (hlen : exact → b'.payloadLength = b.payloadLength)
    (hacc : careful → a ∈ s.accepted → b'.ret.custodyAccepted = true)
    (hfr : careful → a ∈ frags → b'.ret = .reassemblyOnly) :
    Sound careful exact (s.put a b') m frags where
  rep := hs.rep
  stored id x hx := by
    obtain ⟨c, hc, hcid⟩ := hs.stored id x hx
    by_cases hxa : x = a
    · subst hxa
      exact ⟨b', put_self _ _ _, by rw [hid, hs.id_eq hb hx]⟩
    · exact ⟨c, by rwa [put_ne _ hxa], hcid⟩
  ids x c hc hne := by
    by_cases hxa : x = a
    · subst hxa
      rw [put_self] at hc
      obtain rfl := Option.some.inj hc
      rw [hid] at hne ⊢
      exact hs.ids x b hb hne
    · rw [put_ne _ hxa] at hc
      exact hs.ids x c hc hne
  bytes he := by
    refine (hs.bytes he).trans (mapBytes_congr fun id => ?_).symm
    cases hm : m id with
    | none => rfl
    | some x =>
        by_cases hxa : x = a
        · subst hxa
          rw [lengthAt_some hb, lengthAt_some (put_self _ _ _), hlen he]
        · simp [lengthAt, Processor.put, hxa]
  below x hx := Nat.lt_of_lt_of_le (hs.below x hx) (bound_le_bound_put _ _ _)
  accepted hc := (hs.accepted hc).set (hacc hc)
  frags hc := (hs.frags hc).set (hfr hc)

/-- A write to the constraints of a bundle. -/
theorem SoundParts.set_ret (hs : Sound careful exact s m frags) {a : Addr} {b : Bundle}
    (hb : s.bundles.cells a = some b) (ret : RetConstraints)
    (hacc : careful → a ∈ s.accepted → ret.custodyAccepted = true)
    (hfr : careful → a ∈ frags → ret = .reassemblyOnly) :
    Sound careful exact (s.put a { b with ret }) m frags :=
  hs.set hb rfl (fun _ => rfl) hacc hfr

/-- Another memory for the same storage. -/
theorem SoundParts.withStore (hs : Sound careful exact s m frags) {store : Store Addr}
    (hrep : Represents store m) (hbytes : store.bundleBytes = s.store.bundleBytes) :
    SoundParts careful exact s.bundles store s.accepted m frags :=
  ⟨hrep, hs.stored, hs.ids, fun he => hbytes.trans (hs.bytes he), hs.below, hs.accepted,
    hs.frags⟩

/-- A write to a bundle that keeps its id, its payload length and its constraints. -/
theorem SoundParts.set_same (hs : Sound careful exact s m frags) {a : Addr} {b b' : Bundle}
    (hb : s.bundles.cells a = some b) (hid : b'.id = b.id)
    (hlen : b'.payloadLength = b.payloadLength) (hret : b'.ret = b.ret) :
    Sound careful exact (s.put a b') m frags :=
  hs.set hb hid (fun _ => hlen)
    (fun hc hmem => by rw [hret]; exact (hs.accepted hc).ret hmem hb)
    (fun hc hmem => by rw [hret]; exact (hs.frags hc).ret hmem hb)

/-- A bundle without an id in memory that was not used. -/
theorem SoundParts.alloc (hs : Sound careful exact s m frags) {a : Addr} {b : Bundle}
    (ha : s.bundles.cells a = none) (hid : b.id = invId) :
    Sound careful exact (s.put a b) m frags := by
  refine ⟨hs.rep, ?_, ?_, ?_, ?_, ?_, ?_⟩
  · intro id x hx
    obtain ⟨c, hc, hcid⟩ := hs.stored id x hx
    have hxa : x ≠ a := by
      rintro rfl
      simp [ha] at hc
    exact ⟨c, by rwa [put_ne _ hxa], hcid⟩
  · intro x c hc hne
    by_cases hxa : x = a
    · subst hxa
      rw [put_self] at hc
      obtain rfl := Option.some.inj hc
      exact absurd hid hne
    · rw [put_ne _ hxa] at hc
      exact hs.ids x c hc hne
  · intro he
    exact (hs.bytes he).trans (mapBytes_set (hs.not_stored_of_none ha) b).symm
  · intro x hx
    exact Nat.lt_of_lt_of_le (hs.below x hx) (bound_le_bound_put _ _ _)
  · intro hc
    exact (hs.accepted hc).set fun hmem => absurd hmem ((hs.accepted hc).not_mem ha)
  · intro hc
    exact (hs.frags hc).set fun hmem => absurd hmem ((hs.frags hc).not_mem ha)

/-- The entry of a bundle into the storage. -/
theorem SoundParts.enter (hs : Sound careful exact s m frags) {a : Addr} {b : Bundle}
    {store : Store Addr} {id : UInt16} (hb : s.bundles.cells a = some b) (hid : b.id = invId)
    (hne : id ≠ invId) (hnone : m id = none)
    (hrep : Represents store (Function.update m id (some a)))
    (hbytes : store.bundleBytes = s.store.bundleBytes + b.payloadLength) :
    SoundParts careful exact (s.bundles.set a { b with id }) store s.accepted
      (Function.update m id (some a)) frags := by
  have hkeep : ∀ {p : RetConstraints → Prop} {l : List Addr}, Refs p s.bundles l →
      Refs p (s.bundles.set a { b with id }) l := by
    intro p l hl
    refine hl.set fun hmem => ?_
    have hret := hl.ret hmem hb
    exact hret
  refine ⟨hrep, ?_, ?_, ?_,
    fun x hx => Nat.lt_of_lt_of_le (hs.below x hx) (Heap.bound_le_bound_set _ _ _),
    fun hc => hkeep (hs.accepted hc), fun hc => hkeep (hs.frags hc)⟩
  · intro id' x hx
    by_cases hid' : id' = id
    · subst hid'
      obtain rfl : a = x := by simpa using hx
      exact ⟨{ b with id := id' }, by simp, rfl⟩
    · rw [Function.update_of_ne hid'] at hx
      have hxa : x ≠ a := by
        rintro rfl
        exact hs.not_stored hb hid id' hx
      obtain ⟨c, hc, hcid⟩ := hs.stored id' x hx
      exact ⟨c, by simpa [hxa] using hc, hcid⟩
  · intro x c hc hcne
    by_cases hxa : x = a
    · subst hxa
      obtain rfl : { b with id } = c := by simpa using hc
      simp
    · have hm := hs.ids x c (by simpa [hxa] using hc) hcne
      have hcid : c.id ≠ id := by
        intro heq
        rw [heq, hnone] at hm
        cases hm
      rw [Function.update_of_ne hcid]
      exact hm
  · intro he
    rw [hbytes, hs.bytes he, mapBytes_update_some hnone (b := { b with id }) (by simp),
      mapBytes_set (hs.not_stored hb hid)]
    rfl

/-- The removal of a bundle from the storage and from memory. -/
theorem SoundParts.remove (hs : Sound careful exact s m frags) {a : Addr} {b : Bundle}
    {store : Store Addr} (hb : s.bundles.cells a = some b)
    (hrep : Represents store (Function.update m b.id none))
    (hbytes : store.bundleBytes = s.store.bundleBytes - lengthAt s.bundles (m b.id))
    (hacc : careful → a ∉ s.accepted) (hfr : careful → a ∉ frags) :
    SoundParts careful exact (s.bundles.erase a) store s.accepted
      (Function.update m b.id none) frags := by
  have hgone : ∀ id, Function.update m b.id none id ≠ some a := by
    intro id hm
    by_cases hid : id = b.id
    · simp [hid] at hm
    · rw [Function.update_of_ne hid] at hm
      exact hid (hs.id_eq hb hm)
  refine ⟨hrep, ?_, ?_, ?_, hs.below, fun hc => (hs.accepted hc).erase (hacc hc),
    fun hc => (hs.frags hc).erase (hfr hc)⟩
  · intro id x hx
    have hxa : x ≠ a := by
      rintro rfl
      exact hgone id hx
    by_cases hid : id = b.id
    · simp [hid] at hx
    · rw [Function.update_of_ne hid] at hx
      obtain ⟨c, hc, hcid⟩ := hs.stored id x hx
      exact ⟨c, by simpa [hxa] using hc, hcid⟩
  · intro x c hc hne
    by_cases hxa : x = a
    · simp [hxa] at hc
    · have hm := hs.ids x c (by simpa [hxa] using hc) hne
      have hid : c.id ≠ b.id := by
        intro heq
        rw [heq] at hm hne
        rw [hs.ids a b hb hne] at hm
        exact hxa (Option.some.inj hm).symm
      rw [Function.update_of_ne hid]
      exact hm
  · intro he
    rw [mapBytes_erase hgone, hbytes, hs.bytes he]
    cases hm : m b.id with
    | none => rw [← hm, Function.update_eq_self, hm, lengthAt_none, UInt32.sub_zero]
    | some x =>
        obtain ⟨c, hc, _⟩ := hs.stored _ x hm
        rw [mapBytes_update_none hm hc, lengthAt_some hc]

end Sound

end BundleProcessor
