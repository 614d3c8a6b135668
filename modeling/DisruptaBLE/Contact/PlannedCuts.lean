import DisruptaBLE.Contact.RouterRuns

/-!
# Planned fragments

The search of the router plans how many bytes of the payload every fragment gets.
`apply_fragmentation` turns this plan into limits for the size of fragments: it adds to the planned
number of bytes the minimal size of a fragment of the original bundle.  The fragmenter takes off
again the minimal size of what is left of the copy.

`planned_fragments_iff` says when the plan is carried out: exactly if these two sizes agree at every
cut, and there is memory for the entries of the storage.  They never agree for a bundle of version 7
that was not a fragment before (`not_minSizesAgree_whole`): the fields for fragments are missing in
the first size, and counted twice in the second one.
-/

namespace ContactRouter

open PtrHeap (Addr Heap)
open BundleProcessor BundleStorage Bundle7 Outcome

/-! ## Definitions -/

/-- The bundle itself after a cut that leaves it `n` bytes. -/
def firstBy (c : Bundle) (n : UInt32) : Bundle :=
  if c.protocolVersion = 6 then firstOf6 c n else firstOf c n

/-- The remainder of a cut that leaves the bundle itself `n` bytes. -/
def remainderBy (c : Bundle) (n : UInt32) : Bundle :=
  if c.protocolVersion = 6 then remainderOf6 c n else remainderOf c n

/-- The size that the first loop of `apply_fragmentation` asks the original bundle for. -/
def plannedMinSize (first : Bool) (b : Bundle) : Nat × Bundle :=
  if first then bundleGetFirstFragmentMinSize b else bundleGetMidFragmentMinSize b

/-- At every planned cut, the minimal size of a fragment of the original bundle `b` is that of
the bundle `c` that is cut, as 32-bit numbers. -/
def MinSizesAgree : Bool → Bundle → Bundle → List FragmentRoute → Prop
  | _, _, _, [] => True
  | first, b, c, r :: rs =>
      UInt32.ofNat (plannedMinSize first b).1 =
          UInt32.ofNat (bundleGetFirstFragmentMinSize c).1 ∧
        MinSizesAgree false (plannedMinSize first b).2
          (remainderBy (bundleGetFirstFragmentMinSize c).2 r.payloadSize) rs

/-- A bundle has this many bytes of payload. -/
def LengthAt (s : Processor) (x : Addr) (n : UInt32) : Prop :=
  ∃ c, s.bundles.cells x = some c ∧ c.payloadLength = n

/-- Bundles have these many bytes of payload. -/
def SizesAt (s : Processor) (sizes : List UInt32) (xs : List Addr) : Prop :=
  List.Forall₂ (fun n x => LengthAt s x n) sizes xs

/-- Fragments one after the other, from an offset on. -/
def OffsetsFrom (s : Processor) : UInt32 → List Addr → Prop
  | _, [] => True
  | offset, x :: xs =>
      ∃ c, s.bundles.cells x = some c ∧ c.fragmentOffset = offset ∧
        OffsetsFrom s (offset + c.payloadLength) xs

/-- The fragments with these ids are the planned ones: they are stored, they are distinct bundles,
each has as many bytes as planned, the offset of each is where the one before it ends, and together
they have the payload. -/
structure Realised (s : Processor) (b : Bundle) (routes : List FragmentRoute) (ids : List UInt16)
    (frags : List Addr) : Prop where
  stored : List.Forall₂ (fun id x => bundleStorageGet s.store id = .ok (some x)) ids frags
  distinct : frags.Nodup
  sizes : SizesAt s (routes.map (·.payloadSize)) frags
  offsets : OffsetsFrom s b.fragmentOffset frags
  bytes : frags.flatMap (bytesAt s) = b.payload.data.bytes

/-! ## One cut -/

section Cut

variable {mem : Bool} {c w : Bundle} {size : Nat} {p : UInt32} {r : Fragmented}

/-- The bytes that a cut leaves to the bundle itself. -/
def cutLength (size : Nat) (p : UInt32) (c : Bundle) : UInt32 :=
  UInt32.ofNat size + p - UInt32.ofNat (bundleGetFirstFragmentMinSize c).1

theorem cutLength_eq_iff (size : Nat) (p : UInt32) (c : Bundle) :
    cutLength size p c = p ↔
      UInt32.ofNat size = UInt32.ofNat (bundleGetFirstFragmentMinSize c).1 := by
  unfold cutLength
  generalize UInt32.ofNat (bundleGetFirstFragmentMinSize c).1 = y
  generalize UInt32.ofNat size = x
  grind

/-- **A cut, for all versions**: it fails, or there is nothing to cut, or it leaves the bundle the
bytes that the limit allows. -/
theorem fragmentBundle_cases
    (h : bundlefragmenterFragmentBundle mem c (UInt32.ofNat size + p).toUInt64 = .ok (r, w)) :
    w = (bundleGetFirstFragmentMinSize c).2 ∧
      (r = .null ∨ (r = .same ∧ w.payloadLength ≤ cutLength size p c) ∨
        (cutLength size p c < w.payloadLength ∧
          r = .split (firstBy w (cutLength size p c)) (remainderBy w (cutLength size p c)))) := by
  unfold bundlefragmenterFragmentBundle at h
  split at h
  · next hsix =>
    have hmin : bundleGetFirstFragmentMinSize c = getSerializedSize c true true false := if_pos hsix
    have hcut : ((UInt32.ofNat size + p).toUInt64 -
        UInt64.ofNat (getSerializedSize c true true false).1).toUInt32 = cutLength size p c := by
      unfold cutLength
      rw [hmin, UInt64.toUInt32_sub, UInt32.toUInt32_toUInt64, UInt64.toUInt32_ofNat']
    have hversion : (getSerializedSize c true true false).2.protocolVersion = 6 := hsix
    unfold bundle6FragmentBundle at h
    dsimp only at h
    rw [hcut] at h
    rw [hmin]
    split at h
    · next hle =>
      obtain ⟨rfl, rfl⟩ := Prod.mk.inj (Except.ok.inj h)
      exact ⟨rfl, .inr (.inl ⟨rfl, hle⟩)⟩
    · next hlt =>
      split at h
      · obtain ⟨rfl, rfl⟩ := Prod.mk.inj (Except.ok.inj h)
        exact ⟨rfl, .inl rfl⟩
      · split at h
        · cases h
        · obtain ⟨rfl, rfl⟩ := Prod.mk.inj (Except.ok.inj h)
          refine ⟨rfl, .inr (.inr ⟨UInt32.not_le.mp hlt, ?_⟩)⟩
          rw [firstBy, remainderBy, if_pos hversion, if_pos hversion]
  · next hsix =>
    split at h
    · next hseven =>
      have hmin : bundleGetFirstFragmentMinSize c = (bundle7GetFirstFragmentMinSize c, c) := by
        unfold bundleGetFirstFragmentMinSize
        rw [if_neg hsix, if_pos hseven]
      obtain ⟨rfl, rfl⟩ := Prod.mk.inj (Except.ok.inj h)
      rw [hmin]
      refine ⟨rfl, ?_⟩
      unfold bundle7FragmentBundle
      dsimp only
      split
      · exact .inl rfl
      · next hroom =>
        have hcut : UInt32.ofNat ((UInt32.ofNat size + p).toUInt64.toNat -
            bundle7GetFirstFragmentMinSize c) = cutLength size p c := by
          unfold cutLength
          rw [hmin, UInt32.ofNat_sub (Nat.not_lt.mp hroom), UInt32.toNat_toUInt64,
            UInt32.ofNat_toNat]
        rw [hcut]
        split
        · next hle => exact .inr (.inl ⟨rfl, hle⟩)
        · next hlt =>
          split
          · refine .inr (.inr ⟨UInt32.not_le.mp hlt, ?_⟩)
            rw [firstBy, remainderBy, if_neg hsix, if_neg hsix]
          · exact .inl rfl
    · next hseven =>
      obtain ⟨rfl, rfl⟩ := Prod.mk.inj (Except.ok.inj h)
      refine ⟨?_, .inl rfl⟩
      unfold bundleGetFirstFragmentMinSize
      rw [if_neg hsix, if_neg hseven]

end Cut

/-- What the fragments of a cut inherit. -/
theorem firstBy_fields {c : Bundle} {n : UInt32} (hn : n < c.payloadLength) :
    (firstBy c n).fragmentOffset = c.fragmentOffset ∧ (firstBy c n).payloadLength = n := by
  have hlt : n.toNat < c.payload.data.bytes.length := by
    rw [UInt32.lt_iff_toNat_lt, Bundle.payloadLength, Buffer.toNat_length] at hn
    exact hn
  have hlen : (firstBytes c.payload.data n.toNat).length = n := by
    apply UInt32.toNat_inj.mp
    rw [Buffer.toNat_length]
    exact List.length_take_of_le (Nat.le_of_lt hlt)
  unfold firstBy
  split
  · unfold firstOf6 Bundle.payloadLength
    rw [(recalculate_eq _).choose_spec]
    exact ⟨rfl, hlen⟩
  · obtain ⟨hoffset, -, hdata, -, -⟩ := firstOf_fields c n
    refine ⟨hoffset, ?_⟩
    rw [Bundle.payloadLength, hdata]
    exact hlen

theorem remainderBy_fields {c : Bundle} {n : UInt32} :
    (remainderBy c n).fragmentOffset = c.fragmentOffset + n ∧
      (remainderBy c n).payloadLength.toNat = c.payloadLength.toNat - n.toNat := by
  have hlen : (otherBytes c.payload.data n.toNat).length.toNat =
      c.payloadLength.toNat - n.toNat := by
    rw [Bundle.payloadLength, Buffer.toNat_length, Buffer.toNat_length]
    exact List.length_drop
  unfold remainderBy
  split
  · unfold remainderOf6 Bundle.payloadLength at *
    rw [(recalculate_eq _).choose_spec]
    exact ⟨rfl, hlen⟩
  · obtain ⟨hoffset, -, hdata, -, -⟩ := remainderOf_fields c n
    refine ⟨hoffset, ?_⟩
    rw [Bundle.payloadLength, hdata]
    exact hlen

theorem SameContents.payloadLength_eq {b c : Bundle} (h : SameContents b c) :
    c.payloadLength = b.payloadLength := by
  rw [h]
  rfl

theorem SameContents.fragmentOffset_eq {b c : Bundle} (h : SameContents b c) :
    c.fragmentOffset = b.fragmentOffset := by
  rw [h]

/-! ## The first loop -/

section Loop

variable {env : Env} {s s' : Processor} {a cur : Addr} {b c : Bundle} {done frags : List Addr}
  {r : FragmentRoute} {rs : List FragmentRoute}

/-- The memory before a cut: the sizes of the original bundle and of the remainder were asked for.
-/
def queriedAt (s : Processor) (a cur : Addr) (b c : Bundle) : Processor :=
  ({ s.put a b with requests := s.requests + 1 } : Processor).put cur c

theorem queriedAt_cur : (queriedAt s a cur b c).bundles.cells cur = some c := put_self _ _ _

theorem queriedAt_self (hne : cur ≠ a) : (queriedAt s a cur b c).bundles.cells a = some b := by
  unfold queriedAt
  rw [put_ne _ hne.symm]
  exact put_self _ _ _

theorem queriedAt_ne {y : Addr} (hcur : y ≠ cur) (ha : y ≠ a) :
    (queriedAt s a cur b c).bundles.cells y = s.bundles.cells y := by
  unfold queriedAt
  rw [put_ne _ hcur]
  exact put_ne _ ha _

theorem queriedAt_none (hne : cur ≠ a) {y : Addr}
    (hy : (queriedAt s a cur b c).bundles.cells y = none) :
    y ≠ cur ∧ y ≠ a ∧ s.bundles.cells y = none := by
  have hcur : y ≠ cur := by
    rintro rfl
    rw [queriedAt_cur] at hy
    cases hy
  have ha : y ≠ a := by
    rintro rfl
    rw [queriedAt_self hne] at hy
    cases hy
  rw [queriedAt_ne hcur ha] at hy
  exact ⟨hcur, ha, hy⟩

/-- **One round of the first loop**, if the loop succeeds. -/
theorem cutFragments_round (hb : s.bundles.cells a = some b) (hc : s.bundles.cells cur = some c)
    (hne : cur ≠ a) (h : cutFragments env a s done cur (r :: rs) = .ok (some frags, s')) :
    ∃ mem res w, bundlefragmenterFragmentBundle mem c
        (UInt32.ofNat (plannedMinSize (decide (done = [])) b).1 + r.payloadSize).toUInt64 =
          .ok (res, w) ∧
      ((res = .same ∧
        cutFragments env a (queriedAt s a cur (plannedMinSize (decide (done = [])) b).2 w)
          (done ++ [cur]) cur rs = .ok (some frags, s')) ∨
      ∃ first remainder x, res = .split first remainder ∧
        (queriedAt s a cur (plannedMinSize (decide (done = [])) b).2 w).bundles.cells x = none ∧
        cutFragments env a
          (((queriedAt s a cur (plannedMinSize (decide (done = [])) b).2 w).put cur first).put x
            remainder) (done ++ [cur]) x rs = .ok (some frags, s')) := by
  have hquery : (if done = [] then bundleGetFirstFragmentMinSize b
      else bundleGetMidFragmentMinSize b) = plannedMinSize (decide (done = [])) b := by
    simp [plannedMinSize]
  unfold cutFragments at h
  rw [bundle_of_cell hb, PtrHeap.ok_bind, hquery] at h
  generalize plannedMinSize (decide (done = [])) b = query at h
  obtain ⟨size, b'⟩ := query
  dsimp only at h ⊢
  rw [update_of_cell hb, PtrHeap.ok_bind] at h
  have hc₁ : (s.put a b').bundles.cells cur = some c := by
    rw [put_ne _ hne]
    exact hc
  rw [bundle_of_cell hc₁, PtrHeap.ok_bind] at h
  rcases hmalloc : malloc env (s.put a b') with ⟨mem, s₂⟩
  rw [hmalloc] at h
  have hs₂ : s₂ = { s.put a b' with requests := s.requests + 1 } :=
    (congrArg Prod.snd hmalloc).symm
  dsimp only at h
  obtain ⟨⟨res, w⟩, hcut, h⟩ := ok_of_bind h
  refine ⟨mem.isSome, res, w, hcut, ?_⟩
  have hc₂ : s₂.bundles.cells cur = some c := by
    rw [hs₂]
    exact hc₁
  have hput : s₂.put cur w = queriedAt s a cur b' w := by
    rw [hs₂]
    rfl
  dsimp only at h
  rw [update_of_cell hc₂, PtrHeap.ok_bind, hput] at h
  cases res with
  | null =>
      obtain ⟨_, _, h⟩ := ok_of_bind h
      cases h
  | same => exact .inl ⟨rfl, h⟩
  | split first remainder =>
      dsimp only at h
      rw [update_of_cell queriedAt_cur, PtrHeap.ok_bind] at h
      generalize hx : ((queriedAt s a cur b' w).put cur first).bundles.bound + mem.getD 0 = x at h
      -- the remainder lies above all memory in use
      have hfresh : ((queriedAt s a cur b' w).put cur first).bundles.cells x = none :=
        Heap.free_above _ _ (by rw [← hx]; exact Nat.le_add_right _ _)
      have hxc : x ≠ cur := by
        rintro rfl
        rw [put_self] at hfresh
        cases hfresh
      rw [put_ne _ hxc] at hfresh
      exact .inr ⟨first, remainder, x, rfl, hfresh, h⟩

/-- What the first loop makes of the bundle `c` at `cur`: the fragments `new`. -/
structure CutsTo (s s' : Processor) (a cur : Addr) (b c : Bundle) (first : Bool)
    (rs : List FragmentRoute) (new : List Addr) : Prop where
  head : ∃ rest, new = cur :: rest
  length : new.length = rs.length + 1
  fresh : ∀ y ∈ new, y = cur ∨ s.bundles.cells y = none
  kept : ∀ y, y ≠ a → y ≠ cur → s.bundles.cells y ≠ none → s'.bundles.cells y = s.bundles.cells y
  offsets : new.Nodup → OffsetsFrom s' c.fragmentOffset new
  planned : ∀ last : UInt32, 0 < last.toNat →
    (rs.map fun r => r.payloadSize.toNat).sum + last.toNat = c.payloadLength.toNat →
    ((new.Nodup ∧ SizesAt s' (rs.map (·.payloadSize) ++ [last]) new) ↔ MinSizesAgree first b c rs)

/-- A round without a cut names the bundle twice. -/
theorem CutsTo.same {w : Bundle} {new : List Addr} {first : Bool} (hne : cur ≠ a)
    (hw : w = (bundleGetFirstFragmentMinSize c).2)
    (hle : w.payloadLength ≤ cutLength (plannedMinSize first b).1 r.payloadSize c)
    (h : CutsTo (queriedAt s a cur (plannedMinSize first b).2 w) s' a cur
      (plannedMinSize first b).2 w false rs new) :
    CutsTo s s' a cur b c first (r :: rs) (cur :: new) := by
  obtain ⟨rest, hrest⟩ := h.head
  have hdup : ¬(cur :: new).Nodup := by
    rw [hrest]
    simp
  have hsame : SameContents c w := by
    rw [hw]
    exact sameContents_first c
  refine ⟨⟨new, rfl⟩, by simp [h.length], ?_, ?_, fun hnd => absurd hnd hdup, ?_⟩
  · intro y hy
    rcases List.mem_cons.mp hy with rfl | hy
    · exact .inl rfl
    · rcases h.fresh y hy with rfl | hnone
      · exact .inl rfl
      · exact .inr (queriedAt_none hne hnone).2.2
  · intro y ha hcur hlive
    rw [← queriedAt_ne hcur ha] at hlive
    rw [h.kept y ha hcur hlive, queriedAt_ne hcur ha]
  · intro last hpos hsum
    constructor
    · rintro ⟨hnd, -⟩
      exact absurd hnd hdup
    · rintro ⟨hagree, -⟩
      rw [(cutLength_eq_iff _ _ _).mpr hagree, UInt32.le_iff_toNat_le,
        hsame.payloadLength_eq] at hle
      rw [List.map_cons, List.sum_cons] at hsum
      omega

/-- A round with a cut. -/
theorem CutsTo.split {w : Bundle} {x : Addr} {n : UInt32} {new : List Addr} {first : Bool}
    (hne : cur ≠ a) (hw : w = (bundleGetFirstFragmentMinSize c).2)
    (hn : n = cutLength (plannedMinSize first b).1 r.payloadSize c) (hlt : n < w.payloadLength)
    (hx : (queriedAt s a cur (plannedMinSize first b).2 w).bundles.cells x = none)
    (h : CutsTo (((queriedAt s a cur (plannedMinSize first b).2 w).put cur (firstBy w n)).put x
      (remainderBy w n)) s' a x (plannedMinSize first b).2 (remainderBy w n) false rs new) :
    CutsTo s s' a cur b c first (r :: rs) (cur :: new) := by
  obtain ⟨hxc, hxa, hxs⟩ := queriedAt_none hne hx
  obtain ⟨hoffset, hlength⟩ := firstBy_fields hlt
  obtain ⟨hoffset', hlength'⟩ := @remainderBy_fields w n
  have hsame : SameContents c w := by
    rw [hw]
    exact sameContents_first c
  have hothers : ∀ y, y ≠ cur → y ≠ x → y ≠ a →
      (((queriedAt s a cur (plannedMinSize first b).2 w).put cur (firstBy w n)).put x
        (remainderBy w n)).bundles.cells y = s.bundles.cells y := by
    intro y hyc hyx hya
    rw [put_ne _ hyx, put_ne _ hyc, queriedAt_ne hyc hya]
  -- the first fragment is not touched any more
  have hfirst : (((queriedAt s a cur (plannedMinSize first b).2 w).put cur (firstBy w n)).put x
      (remainderBy w n)).bundles.cells cur = some (firstBy w n) := by
    rw [put_ne _ hxc.symm, put_self]
  have hfirst' : s'.bundles.cells cur = some (firstBy w n) := by
    rw [h.kept cur hne hxc.symm (by rw [hfirst]; simp), hfirst]
  have hnot : cur ∉ new := by
    intro hmem
    rcases h.fresh cur hmem with heq | hnone
    · exact hxc heq.symm
    · rw [hfirst] at hnone
      cases hnone
  refine ⟨⟨new, rfl⟩, by simp [h.length], ?_, ?_, ?_, ?_⟩
  · intro y hy
    rcases List.mem_cons.mp hy with rfl | hy
    · exact .inl rfl
    · rcases h.fresh y hy with rfl | hnone
      · exact .inr hxs
      · obtain ⟨hyx, hyc⟩ : y ≠ x ∧ y ≠ cur := by
          constructor
          · rintro rfl
            rw [put_self] at hnone
            cases hnone
          · rintro rfl
            rw [hfirst] at hnone
            cases hnone
        rw [put_ne _ hyx, put_ne _ hyc] at hnone
        exact .inr (queriedAt_none hne hnone).2.2
  · intro y ha hcur hlive
    have hyx : y ≠ x := by
      rintro rfl
      exact hlive hxs
    have hcell := hothers y hcur hyx ha
    rw [h.kept y ha hyx (by rw [hcell]; exact hlive), hcell]
  · intro hnd
    refine ⟨firstBy w n, hfirst', ?_, ?_⟩
    · rw [hoffset, hsame.fragmentOffset_eq]
    · rw [hlength, ← hsame.fragmentOffset_eq, ← hoffset']
      exact h.offsets (List.nodup_cons.mp hnd).2
  · intro last hpos hsum
    rw [List.map_cons, List.sum_cons, ← hsame.payloadLength_eq] at hsum
    have hcut := cutLength_eq_iff (plannedMinSize first b).1 r.payloadSize c
    rw [← hn] at hcut
    have hhead : LengthAt s' cur r.payloadSize ↔ n = r.payloadSize := by
      rw [← hlength]
      constructor
      · rintro ⟨d, hd, hlen⟩
        rw [hfirst'] at hd
        obtain rfl := Option.some.inj hd
        exact hlen
      · intro hlen
        exact ⟨_, hfirst', hlen⟩
    unfold MinSizesAgree
    rw [← hcut, ← hw, List.nodup_cons, SizesAt, List.map_cons, List.cons_append,
      List.forall₂_cons, hhead]
    constructor
    · rintro ⟨⟨-, hnd⟩, hnr, hsizes⟩
      refine ⟨hnr, ?_⟩
      rw [← hnr]
      apply (h.planned last hpos ?_).mp ⟨hnd, hsizes⟩
      rw [hlength', hnr]
      omega
    · rintro ⟨hnr, hagree⟩
      rw [← hnr] at hagree
      obtain ⟨hnd, hsizes⟩ := (h.planned last hpos (by rw [hlength', hnr]; omega)).mpr hagree
      exact ⟨⟨hnot, hnd⟩, hnr, hsizes⟩

/-- **The first loop**: the fragments are as planned exactly if the minimal sizes agree. -/
theorem cutFragments_cutsTo (hb : s.bundles.cells a = some b) (hc : s.bundles.cells cur = some c)
    (hne : cur ≠ a) (h : cutFragments env a s done cur rs = .ok (some frags, s')) :
    ∃ new, frags = done ++ new ∧ CutsTo s s' a cur b c (decide (done = [])) rs new := by
  induction rs generalizing s done cur b c with
  | nil =>
      obtain ⟨hfrags, rfl⟩ := Prod.mk.inj (Except.ok.inj h)
      obtain rfl := Option.some.inj hfrags
      refine ⟨[cur], rfl, ⟨[], rfl⟩, rfl, ?_, fun _ _ _ _ => rfl, ?_, ?_⟩
      · intro y hy
        exact .inl (List.mem_singleton.mp hy)
      · intro _
        exact ⟨c, hc, rfl, trivial⟩
      · intro last _ hsum
        have hlast : c.payloadLength = last := by
          apply UInt32.toNat_inj.mp
          simpa using hsum.symm
        simp only [MinSizesAgree, iff_true]
        exact ⟨List.nodup_singleton _, .cons ⟨c, hc, hlast⟩ .nil⟩
  | cons r rs ih =>
      obtain ⟨mem, res, w, hcut, hround⟩ := cutFragments_round hb hc hne h
      obtain ⟨hw, hcases⟩ := fragmentBundle_cases hcut
      have hlater : decide (done ++ [cur] = []) = false := by simp
      rcases hround with ⟨rfl, hrest⟩ | ⟨first, remainder, x, rfl, hx, hrest⟩
      · obtain ⟨new, rfl, hnew⟩ := ih (queriedAt_self hne) queriedAt_cur hne hrest
        rw [hlater] at hnew
        refine ⟨cur :: new, by simp, CutsTo.same hne hw ?_ hnew⟩
        rcases hcases with hnull | ⟨-, hle⟩ | ⟨-, hsplit⟩
        · cases hnull
        · exact hle
        · cases hsplit
      · rcases hcases with hnull | ⟨hsame, -⟩ | ⟨hlt, hsplit⟩
        · cases hnull
        · cases hsame
        · obtain ⟨rfl, rfl⟩ := Fragmented.split.inj hsplit
          obtain ⟨hxc, hxa, -⟩ := queriedAt_none hne hx
          have hb' : (((queriedAt s a cur (plannedMinSize (decide (done = [])) b).2 w).put cur
              (firstBy w (cutLength (plannedMinSize (decide (done = [])) b).1 r.payloadSize c))).put
                x
              (remainderBy w (cutLength (plannedMinSize (decide (done = [])) b).1 r.payloadSize
                c))).bundles.cells a = some (plannedMinSize (decide (done = [])) b).2 := by
            rw [put_ne _ hxa.symm, put_ne _ hne.symm, queriedAt_self hne]
          obtain ⟨new, rfl, hnew⟩ := ih hb' (put_self _ _ _) hxa hrest
          rw [hlater] at hnew
          exact ⟨cur :: new, by simp, CutsTo.split hne hw rfl hlt hx hnew⟩

end Loop

/-! ## The second loop -/

/-- What the plan says about a bundle in memory: its offset and its payload. -/
def partsAt (s : Processor) (y : Addr) : Option (UInt32 × BlockBody) :=
  (s.bundles.cells y).map fun c => (c.fragmentOffset, c.payload)

section Parts

variable {s s' : Processor} {y : Addr} {c : Bundle}

theorem partsAt_of_cell (hc : s.bundles.cells y = some c) :
    partsAt s y = some (c.fragmentOffset, c.payload) := by
  rw [partsAt, hc, Option.map_some]

theorem partsAt_congr (h : s'.bundles.cells y = s.bundles.cells y) :
    partsAt s' y = partsAt s y := by
  rw [partsAt, partsAt, h]

/-- A bundle with the parts of another one. -/
theorem cell_of_partsAt (h : partsAt s' y = partsAt s y) (hc : s.bundles.cells y = some c) :
    ∃ d, s'.bundles.cells y = some d ∧ d.fragmentOffset = c.fragmentOffset ∧
      d.payload = c.payload := by
  rw [partsAt_of_cell hc] at h
  obtain ⟨d, hd, hparts⟩ := Option.map_eq_some_iff.mp h
  obtain ⟨hoffset, hpayload⟩ := Prod.mk.inj hparts
  exact ⟨d, hd, hoffset, hpayload⟩

theorem lengthAt_of_parts {n : UInt32} (h : partsAt s' y = partsAt s y) (hl : LengthAt s y n) :
    LengthAt s' y n := by
  obtain ⟨c, hc, hlen⟩ := hl
  obtain ⟨d, hd, -, hpayload⟩ := cell_of_partsAt h hc
  refine ⟨d, hd, ?_⟩
  rw [Bundle.payloadLength, hpayload]
  exact hlen

theorem offsetsFrom_of_parts {offset : UInt32} {xs : List Addr}
    (h : ∀ y ∈ xs, partsAt s' y = partsAt s y) (ho : OffsetsFrom s offset xs) :
    OffsetsFrom s' offset xs := by
  induction xs generalizing offset with
  | nil => trivial
  | cons x xs ih =>
      obtain ⟨c, hc, hoffset, hrest⟩ := ho
      obtain ⟨d, hd, hoffset', hpayload⟩ := cell_of_partsAt (h x List.mem_cons_self) hc
      have hlength : d.payloadLength = c.payloadLength := by
        rw [Bundle.payloadLength, hpayload]
        rfl
      refine ⟨d, hd, hoffset'.trans hoffset, ?_⟩
      rw [hlength]
      exact ih (fun y hy => h y (List.mem_cons_of_mem _ hy)) hrest

theorem sizesAt_of_parts {sizes : List UInt32} {xs : List Addr}
    (h : ∀ y ∈ xs, partsAt s' y = partsAt s y) (hs : SizesAt s sizes xs) :
    SizesAt s' sizes xs := by
  unfold SizesAt at *
  induction hs with
  | nil => exact .nil
  | cons hl _ ih =>
      exact .cons (lengthAt_of_parts (h _ List.mem_cons_self) hl)
        (ih fun y hy => h y (List.mem_cons_of_mem _ hy))

theorem bytesAt_of_parts (h : partsAt s' y = partsAt s y) : bytesAt s' y = bytesAt s y := by
  have hb : ∀ t : Processor, bytesAt t y = ((partsAt t y).map fun q => q.2.data.bytes).getD [] := by
    intro t
    rw [bytesAt, partsAt, Option.map_map]
    rfl
  rw [hb, hb, h]

end Parts

section Adding

variable {env : Env} {a x : Addr} {b c : Bundle}

/-- The rounds of the second loop, if it succeeds. -/
inductive Adds (env : Env) : Router → List (FragmentRoute × Addr) → Router → Prop
  | nil {s : Router} : Adds env s [] s
  | cons {s s₂ s' : Router} {r : FragmentRoute} {x : Addr} {id : UInt16} {node : Processor}
      {rest : List (FragmentRoute × Addr)} (hstore : storageAdd env s.node x = .ok (id, node))
      (hroute : routerAddBundleToRoute env { s with node } r x = .ok (true, s₂))
      (hrest : Adds env s₂ rest s') : Adds env s ((r, x) :: rest) s'

theorem adds_of_addFragments {s s' : Router} {done rest : List (FragmentRoute × Addr)}
    (h : addFragments env s done rest = .ok (true, s')) : Adds env s rest s' := by
  induction rest generalizing s done with
  | nil =>
      obtain ⟨-, rfl⟩ := Prod.mk.inj (Except.ok.inj h)
      exact .nil
  | cons p rest ih =>
      obtain ⟨r, x⟩ := p
      unfold addFragments at h
      obtain ⟨⟨id, node⟩, hstore, h⟩ := ok_of_bind h
      obtain ⟨⟨routed, s₂⟩, hroute, h⟩ := ok_of_bind h
      dsimp only at h
      split at h
      · next hrouted =>
        subst hrouted
        exact .cons hstore hroute (ih h)
      · obtain ⟨_, _, h⟩ := ok_of_bind h
        obtain ⟨_, _, h⟩ := ok_of_bind h
        obtain ⟨_, _, h⟩ := ok_of_bind h
        cases h

/-- Without memory for an entry of the storage, the bundle gets no id. -/
theorem storageAdd_unserved {s s' : Processor} {id : UInt16} (hc : s.bundles.cells x = some c)
    (hmem : env.malloc s.requests = none) (h : storageAdd env s x = .ok (id, s')) : id = invId := by
  unfold storageAdd malloc at h
  rw [bundle_of_cell hc, PtrHeap.ok_bind] at h
  dsimp only at h
  rw [hmem, Option.map_none] at h
  obtain ⟨⟨id', store⟩, hstore, h⟩ := ok_of_bind h
  dsimp only at h
  rw [update_of_cell (s := { s with store := store, requests := s.requests + 1 }) hc] at h
  obtain ⟨rfl, -⟩ := Prod.mk.inj (Except.ok.inj h)
  cases hadd : bundleStorageAdd s.store x ⟨c.id, some c.payloadLength⟩ none with
  | error f =>
      rw [hadd] at hstore
      cases hstore
  | ok o =>
      rw [hadd] at hstore
      obtain rfl := Except.ok.inj hstore
      exact bundleStorageAdd_unserved hadd

/-- What a successful second loop leaves. -/
structure AddsTo (env : Env) (s s' : Router) (a : Addr) (b : Bundle)
    (frags : List (FragmentRoute × Addr)) : Prop where
  held : ∃ m, Held s'.node m a b
  parts : ∀ y, partsAt s'.node y = partsAt s.node y
  others : ∀ y, y ∉ frags.map Prod.snd → s'.node.bundles.cells y = s.node.bundles.cells y
  served : (frags.map Prod.snd).Nodup →
    (StorageServed env s.node.requests (frags.map Prod.fst) ↔
      ∀ x ∈ frags.map Prod.snd, ∃ c, s'.node.bundles.cells x = some c ∧ c.id ≠ invId)

/-- **The second loop**: a fragment gets an id exactly if the request of the storage for its entry
is served. -/
theorem Adds.addsTo {s s' : Router} {m : UInt16 → Option Addr} {frags : List (FragmentRoute × Addr)}
    (hadds : Adds env s frags s') (h : Held s.node m a b) (hne : ∀ q ∈ frags, q.2 ≠ a) :
    AddsTo env s s' a b frags := by
  induction hadds generalizing m with
  | nil => exact ⟨⟨m, h⟩, fun _ => rfl, fun _ _ => rfl, fun _ => by simp [StorageServed]⟩
  | @cons s s₂ s' r x id node rest hstore hroute hrest ih =>
      have hxa : x ≠ a := hne (r, x) List.mem_cons_self
      cases hc : s.node.bundles.cells x with
      | none =>
          unfold storageAdd at hstore
          rw [bundle_of_none hc] at hstore
          cases hstore
      | some c =>
          obtain ⟨hinv, hbundles, hreq, hid, m₁, h₁⟩ := (h.storageAdd hxa hc).of_ok hstore
          dsimp only at hbundles hreq hid h₁
          have hcell₁ : node.bundles.cells x = some { c with id } := by
            rw [hbundles]
            exact Heap.cells_set_self _ _ _
          obtain ⟨hq, -, hrouted⟩ :=
            (routerAddBundleToRoute_spec (s := { s with node }) hcell₁).of_ok hroute
          dsimp only at hq hrouted
          obtain ⟨hreq₂, -⟩ := hrouted rfl
          obtain ⟨c₂, hc₂, hsame⟩ := hq.self
          have hothers : ∀ y, y ≠ x → s₂.node.bundles.cells y = s.node.bundles.cells y := by
            intro y hy
            rw [hq.others y hy, hbundles]
            exact Heap.cells_set_ne _ hy _
          have hids : env.malloc s.node.requests ≠ none ↔ c₂.id ≠ invId := by
            rw [hsame.id_eq]
            constructor
            · exact hid
            · intro hvalid hmem
              exact hvalid (storageAdd_unserved hc hmem hstore)
          obtain ⟨hheld, hparts, hcells, hserved⟩ :=
            ih (h₁.queried hcell₁ hq) fun q hq => hne q (List.mem_cons_of_mem _ hq)
          refine ⟨hheld, fun y => ?_, fun y hy => ?_, fun hnd => ?_⟩
          · rw [hparts y]
            by_cases hyx : y = x
            · subst hyx
              rw [partsAt_of_cell hc₂, partsAt_of_cell hc, hsame]
            · exact partsAt_congr (hothers y hyx)
          · rw [List.map_cons, List.mem_cons, not_or] at hy
            rw [hcells y hy.2, hothers y hy.1]
          · rw [List.map_cons, List.nodup_cons] at hnd
            have hlast : s'.node.bundles.cells x = some c₂ := by
              rw [hcells x hnd.1, hc₂]
            rw [List.map_cons, List.map_cons, StorageServed, List.forall_mem_cons, hids,
              ← hserved hnd.2, hreq₂]
            simp only [hreq, hlast, Option.some.injEq, exists_eq_left']

end Adding

/-! ## The plan -/

section Plan

variable {env : Env} {m : UInt16 → Option Addr} {a : Addr} {b : Bundle} {s s' : Router}
  {routes : List FragmentRoute} {result : ProcessingResult}

theorem idsOf_forall₂ {s : Processor} {frags : List Addr} {ids : List UInt16}
    (h : idsOf s frags = .ok ids) :
    List.Forall₂ (fun id x => ∃ c, s.bundles.cells x = some c ∧ c.id = id) ids frags := by
  induction frags generalizing ids with
  | nil =>
      obtain rfl := Except.ok.inj h
      exact .nil
  | cons x xs ih =>
      unfold idsOf at h
      cases hc : s.bundles.cells x with
      | none =>
          rw [bundle_of_none hc] at h
          cases h
      | some c =>
          rw [bundle_of_cell hc, PtrHeap.ok_bind] at h
          obtain ⟨rest, hrest, h⟩ := ok_of_bind h
          obtain rfl := Except.ok.inj h
          exact .cons ⟨c, hc, rfl⟩ (ih hrest)

/-- The fragments before the bundle is removed, and the state after it. -/
structure Applied (env : Env) (s s' : Router) (a : Addr) (b : Bundle) (routes : List FragmentRoute)
    (ids : List UInt16) (frags : List Addr) : Prop where
  length : frags.length = routes.length
  others : a ∉ frags
  agree : ∀ last : UInt32, 0 < last.toNat →
    (routes.dropLast.map fun r => r.payloadSize.toNat).sum + last.toNat = b.payloadLength.toNat →
    ((frags.Nodup ∧ SizesAt s'.node (routes.dropLast.map (·.payloadSize) ++ [last]) frags) ↔
      MinSizesAgree true b (initializeFirstFragment b) routes.dropLast)
  offsets : frags.Nodup → OffsetsFrom s'.node b.fragmentOffset frags
  bytes : frags.Nodup → frags.flatMap (bytesAt s'.node) = b.payload.data.bytes
  ids : List.Forall₂ (fun id x => ∃ c, s'.node.bundles.cells x = some c ∧ c.id = id) ids frags
  stored : ∀ x ∈ frags, ∀ c, s'.node.bundles.cells x = some c → c.id ≠ invId →
    bundleStorageGet s'.node.store c.id = .ok (some x)
  served : frags.Nodup → (StorageServed env (s.node.requests + routes.length) routes ↔
    ∀ x ∈ frags, ∃ c, s'.node.bundles.cells x = some c ∧ c.id ≠ invId)

/-- The original bundle goes, and everything else stays. -/
theorem removeBundle_ok {frags : List Addr} {count : Int} (h : Held s.node m a b)
    (hrun : (do
      let b ← s.node.bundle a
      let node ← storageDelete s.node b.id
      let node ← bundleFree node a
      let ids ← idsOf node frags
      pure (ProcessingResult.mk count ids, { s with node })) = .ok (result, s')) :
    idsOf s'.node frags = .ok result.fragmentIds ∧
      (∀ y, y ≠ a → s'.node.bundles.cells y = s.node.bundles.cells y) ∧
      ∀ y c, y ≠ a → s.node.bundles.cells y = some c → c.id ≠ invId →
        bundleStorageGet s'.node.store c.id = .ok (some y) := by
  obtain ⟨d, hd, hbd⟩ := h.cell
  rw [bundle_of_cell hd, PtrHeap.ok_bind] at hrun
  obtain ⟨node, hdelete, hrun⟩ := ok_of_bind hrun
  obtain ⟨store, rfl, hrep, -⟩ := (storageDelete_spec h.sound d.id).of_ok hdelete
  rw [bundleFree_of_cell (s := { s.node with store := store }) hd, PtrHeap.ok_bind] at hrun
  obtain ⟨ids, hids, hrun⟩ := ok_of_bind hrun
  obtain ⟨rfl, rfl⟩ := Prod.mk.inj (Except.ok.inj hrun)
  refine ⟨hids, fun y hy => Heap.cells_erase_ne _ hy, fun y c hy hc hvalid => ?_⟩
  have hne : c.id ≠ d.id := by
    rw [hbd.id_eq]
    exact h.id_ne hy hc
  change bundleStorageGet store c.id = .ok (some y)
  rw [hrep.get, Function.update_of_ne hne, h.sound.ids y c hc hvalid]

/-- **What `apply_fragmentation` does if it succeeds.** -/
theorem applyFragmentation_applied (h : Held s.node m a b) (hb : s.node.bundles.cells a = some b)
    (hn : routes ≠ []) (hrun : applyFragmentation env s a routes = .ok (result, s'))
    (hok : 1 ≤ result.statusOrFragments) :
    ∃ frags, Applied env s s' a b routes result.fragmentIds frags := by
  have hfail : ∀ {t : Router}, .ok (⟨resultNoMemory, []⟩, t) = (.ok (result, s') :
      Except Fault (ProcessingResult × Router)) → False := by
    intro t ht
    obtain ⟨rfl, -⟩ := Prod.mk.inj (Except.ok.inj ht)
    exact absurd hok (by decide)
  unfold applyFragmentation newBundle malloc at hrun
  rw [bundle_of_cell hb, PtrHeap.ok_bind] at hrun
  dsimp only at hrun
  cases hm : env.malloc s.node.requests with
  | none =>
      rw [hm] at hrun
      exact (hfail hrun).elim
  | some gap =>
      rw [hm] at hrun
      dsimp only at hrun
      set node : Processor := { s.node with requests := s.node.requests + 1 } with hnode
      have hfresh : node.bundles.cells (node.bundles.bound + gap) = none :=
        node.bundles.free_above _ (Nat.le_add_right _ _)
      generalize node.bundles.bound + gap = x at hfresh hrun
      have hxa : x ≠ a := by
        rintro rfl
        rw [show node.bundles.cells x = s.node.bundles.cells x from rfl, hb] at hfresh
        cases hfresh
      have h₁ : Held (node.put x (initializeFirstFragment b)) m a b :=
        (h.requests _).alloc hfresh (recalculate_id _)
      have hb₁ : (node.put x (initializeFirstFragment b)).bundles.cells a = some b := by
        rw [put_ne _ hxa.symm]
        exact hb
      split at hrun
      · exact (hfail hrun).elim
      · obtain ⟨⟨frags, node₂⟩, hcut, hrun⟩ := ok_of_bind hrun
        cases frags with
        | none => exact (hfail hrun).elim
        | some frags =>
            obtain ⟨new, hnew, hto⟩ := cutFragments_cutsTo hb₁ (put_self _ _ _) hxa hcut
            have hfirst : decide (([] : List Addr) = []) = true := rfl
            rw [hfirst] at hto
            rw [List.nil_append] at hnew
            subst hnew
            have hinto := (cutFragments_spec routes.dropLast [] x h₁
              (pieces_first hxa (.refl b))).of_ok hcut
            have hpieces := hinto.pieces frags rfl
            have hreq : node₂.requests = s.node.requests + 1 + routes.dropLast.length :=
              hinto.requests frags rfl
            have hpos := List.length_pos_of_ne_nil hn
            have hlen : frags.length = routes.length := by
              rw [hto.length, List.length_dropLast]
              omega
            have hfst : (routes.zip frags).map Prod.fst = routes := List.map_fst_zip hlen.ge
            have hsnd : (routes.zip frags).map Prod.snd = frags := List.map_snd_zip hlen.le
            have hothers : ∀ y ∈ frags, y ≠ a := fun y hy => (hpieces.loose y hy).1
            obtain ⟨⟨added, s₃⟩, hadd, hrun⟩ := ok_of_bind hrun
            cases added with
            | false => exact (hfail hrun).elim
            | true =>
                obtain ⟨⟨m₃, h₃⟩, hparts, -, hserved⟩ := (adds_of_addFragments hadd).addsTo
                  hinto.held fun q hq => hothers q.2 (List.of_mem_zip hq).2
                obtain ⟨hids, hcells, hstored⟩ := removeBundle_ok h₃ hrun
                rw [hsnd] at hserved hids
                have hparts' : ∀ y ∈ frags, partsAt s'.node y = partsAt node₂ y := fun y hy =>
                  (partsAt_congr (hcells y (hothers y hy))).trans (hparts y)
                have hpayload : (initializeFirstFragment b).payloadLength = b.payloadLength := by
                  rw [Bundle.payloadLength, initializeFirstFragment, recalculate_payload]
                  rfl
                have hoffset : (initializeFirstFragment b).fragmentOffset = b.fragmentOffset := by
                  rw [initializeFirstFragment, (recalculate_eq _).choose_spec]
                refine ⟨frags, hlen, fun hmem => hothers a hmem rfl, ?_, ?_, ?_,
                  idsOf_forall₂ hids, ?_, ?_⟩
                · intro last hlast hsum
                  rw [← hpayload] at hsum
                  rw [← hto.planned last hlast hsum]
                  constructor
                  · rintro ⟨hnd, hsizes⟩
                    exact ⟨hnd, sizesAt_of_parts (fun y hy => (hparts' y hy).symm) hsizes⟩
                  · rintro ⟨hnd, hsizes⟩
                    exact ⟨hnd, sizesAt_of_parts hparts' hsizes⟩
                · intro hnd
                  rw [← hoffset]
                  exact offsetsFrom_of_parts hparts' (hto.offsets hnd)
                · intro hnd
                  rw [← hpieces.bytes hnd]
                  exact List.flatMap_congr fun y hy => bytesAt_of_parts (hparts' y hy)
                · intro y hy c hc hvalid
                  rw [hcells y (hothers y hy)] at hc
                  exact hstored y c (hothers y hy) hc hvalid
                · intro hnd
                  have hcount : s.node.requests + 1 + routes.dropLast.length =
                      s.node.requests + routes.length := by
                    rw [List.length_dropLast]
                    omega
                  have hserved := hserved hnd
                  rw [hfst, hreq, hcount] at hserved
                  rw [hserved]
                  refine forall₂_congr fun y hy => ?_
                  rw [hcells y (hothers y hy)]

/-- Lists that are related to the same ids. -/
theorem forall₂_unique {ids : List UInt16} {xs ys : List Addr} {P Q : UInt16 → Addr → Prop}
    {V : Addr → Prop} (hxs : List.Forall₂ P ids xs) (hys : List.Forall₂ Q ids ys)
    (h : ∀ x ∈ xs, ∀ id y, P id x → Q id y → y = x ∧ V x) : ys = xs ∧ ∀ x ∈ xs, V x := by
  induction hxs generalizing ys with
  | nil =>
      cases hys
      exact ⟨rfl, by simp⟩
  | cons hp _ ih =>
      cases hys with
      | cons hq hys =>
          obtain ⟨rfl, hv⟩ := h _ List.mem_cons_self _ _ hp hq
          obtain ⟨rfl, hvs⟩ := ih hys fun x hx => h x (List.mem_cons_of_mem _ hx)
          exact ⟨rfl, List.forall_mem_cons.mpr ⟨hv, hvs⟩⟩

theorem forall₂_of_mem {ids : List UInt16} {xs : List Addr} {P Q : UInt16 → Addr → Prop}
    (hxs : List.Forall₂ P ids xs) (h : ∀ x ∈ xs, ∀ id, P id x → Q id x) :
    List.Forall₂ Q ids xs := by
  induction hxs with
  | nil => exact .nil
  | cons hp _ ih =>
      exact .cons (h _ List.mem_cons_self _ hp) (ih fun x hx => h x (List.mem_cons_of_mem _ hx))

theorem SameContents.realised_iff {d : Bundle} {ids : List UInt16} {frags : List Addr}
    {s : Processor} (h : SameContents b d) :
    Realised s b routes ids frags ↔ Realised s d routes ids frags := by
  have hpayload : d.payload = b.payload := by rw [h]
  constructor
  · rintro ⟨hstored, hnd, hsizes, hoffsets, hbytes⟩
    exact ⟨hstored, hnd, hsizes, by rwa [h.fragmentOffset_eq], by rwa [hpayload]⟩
  · rintro ⟨hstored, hnd, hsizes, hoffsets, hbytes⟩
    exact ⟨hstored, hnd, hsizes, by rwa [← h.fragmentOffset_eq], by rwa [← hpayload]⟩

/-- **The plan is carried out exactly if the sizes agree and the fragments get ids.** -/
theorem Applied.realised_iff {ids : List UInt16} {frags : List Addr}
    (h : Applied env s s' a b routes ids frags) (hn : routes ≠ [])
    (hpos : ∀ r ∈ routes, 0 < r.payloadSize.toNat)
    (hsum : (routes.map fun r => r.payloadSize.toNat).sum = b.payloadLength.toNat) :
    (∃ frags, Realised s'.node b routes ids frags) ↔
      MinSizesAgree true b (initializeFirstFragment b) routes.dropLast ∧
        StorageServed env (s.node.requests + routes.length) routes := by
  have hsplit : routes.dropLast ++ [routes.getLast hn] = routes := List.dropLast_append_getLast hn
  have hsizes : routes.map (·.payloadSize) =
      routes.dropLast.map (·.payloadSize) ++ [(routes.getLast hn).payloadSize] := by
    conv => lhs; rw [← hsplit]
    rw [List.map_append, List.map_singleton]
  have hagree := h.agree (routes.getLast hn).payloadSize (hpos _ (List.getLast_mem hn)) (by
    rw [← hsum]
    conv => rhs; rw [← hsplit]
    rw [List.map_append, List.sum_append, List.map_singleton, List.sum_singleton])
  rw [← hsizes] at hagree
  rw [← hagree]
  constructor
  · rintro ⟨frags', hr⟩
    have hvalid : ∀ x ∈ frags, ∀ id y,
        (∃ c, s'.node.bundles.cells x = some c ∧ c.id = id) →
        bundleStorageGet s'.node.store id = .ok (some y) →
        y = x ∧ ∃ c, s'.node.bundles.cells x = some c ∧ c.id ≠ invId := by
      rintro x hx _ y ⟨c, hc, rfl⟩ hget
      have hne : c.id ≠ invId := by
        intro hinv
        rw [hinv] at hget
        cases hget
      rw [h.stored x hx c hc hne] at hget
      exact ⟨(Option.some.inj (Except.ok.inj hget)).symm, c, hc, hne⟩
    obtain ⟨rfl, hids⟩ := forall₂_unique h.ids hr.stored hvalid
    exact ⟨⟨hr.distinct, hr.sizes⟩, (h.served hr.distinct).mpr hids⟩
  · rintro ⟨⟨hnd, hlengths⟩, hserved⟩
    have hids := (h.served hnd).mp hserved
    refine ⟨frags, ?_, hnd, hlengths, h.offsets hnd, h.bytes hnd⟩
    apply forall₂_of_mem h.ids
    rintro x hx _ ⟨c, hc, rfl⟩
    obtain ⟨c', hc', hvalid⟩ := hids x hx
    rw [hc] at hc'
    obtain rfl := Option.some.inj hc'
    exact h.stored x hx c hc hvalid

end Plan

/-- **Planned fragments**: for every bundle in the storage of a node in any run, and every plan
for two or more fragments with payload that adds up to its payload, if `apply_fragmentation`
succeeds, the fragments are the planned ones exactly if the minimal sizes agree at every cut, and
there is memory for the entries of the fragments in the storage.  The cached length of the primary
block may have been recalculated by the search. -/
theorem planned_fragments_iff {P : Params} {env : Env} {s s' : Router} {a : Addr} {b d : Bundle}
    {routes : List FragmentRoute} {result : ProcessingResult} (hs : Operating P s)
    (hstored : bundleStorageGet s.node.store b.id = .ok (some a))
    (hb : s.node.bundles.cells a = some b) (hd : SameContents b d)
    (hn : 2 ≤ routes.length) (hpos : ∀ r ∈ routes, 0 < r.payloadSize.toNat)
    (hsum : (routes.map fun r => r.payloadSize.toNat).sum = b.payloadLength.toNat)
    (hrun : applyFragmentation env { s with node := s.node.put a d } a routes = .ok (result, s'))
    (hok : 1 ≤ result.statusOrFragments) :
    (∃ frags, Realised s'.node b routes result.fragmentIds frags) ↔
      MinSizesAgree true d (initializeFirstFragment d) routes.dropLast ∧
        StorageServed env (s.node.requests + routes.length) routes := by
  obtain ⟨m, hsound⟩ := hs.sound
  obtain ⟨b', hb', -, hheld⟩ := held_of_stored hsound hstored
  rw [hb] at hb'
  obtain rfl := Option.some.inj hb'
  have hput := hheld.queried hb (queried_put s.node hd)
  have hheld' : Held (s.node.put a d) m a d := by
    refine ⟨hput.sound, ?_, d, put_self _ _ _, .refl d⟩
    rw [hd.id_eq]
    exact hput.entry
  have hne : routes ≠ [] := by
    rintro rfl
    exact absurd hn (by decide)
  obtain ⟨frags, happlied⟩ := applyFragmentation_applied
    (s := { s with node := s.node.put a d }) hheld' (put_self _ _ _) hne hrun hok
  rw [← hd.payloadLength_eq] at hsum
  simp only [hd.realised_iff]
  exact happlied.realised_iff hne hpos hsum

/-- A bundle with twenty bytes of payload and these flags. -/
def parcel (flags : UInt32) : Bundle :=
  bundleRecalculateHeaderLength
    { note "dtn://x/a" [] with
      procFlags := flags
      totalAduLength := 20
      payload := ⟨1, 0, ⟨List.replicate 20 7, by decide⟩, [], .none⟩ }

/-- A contact for some kilobytes. -/
def openContact : Contact :=
  { noContact with
    remainingCapacityP0 := 4096
    remainingCapacityP1 := 4096
    remainingCapacityP2 := 4096 }

/-- The small node with one bundle and a contact. -/
def inTouch (b : Bundle) : Router := ⟨holding b, fun _ => openContact⟩

/-- A plan for two fragments, of twelve and eight bytes. -/
def twelveAndEight : List FragmentRoute := [⟨12, 1, [0], 0⟩, ⟨8, 1, [0], 0⟩]

theorem operating_inTouch {b : Bundle}
    (h : storeBundle calm Processor.init b = .ok (holding b)) : Operating smallNode (inTouch b) :=
  .store (s := ⟨Processor.init, fun _ => openContact⟩) (.init _) h

/-- The small node asks a bundle with these flags for its sizes, and cuts it. -/
def cutParcel (flags : UInt32) : Except Fault (ProcessingResult × Router) :=
  let s := inTouch (parcel flags)
  applyFragmentation calm { s with node := s.node.put 0 { parcel flags with id := 1 } } 0
    twelveAndEight

/-- A bundle that is a fragment already is cut as planned. -/
theorem planned_fragments_of_fragment :
    ∃ result s', cutParcel flagIsFragment = .ok (result, s') ∧
      ∃ frags, Realised s'.node { parcel flagIsFragment with id := 1 } twelveAndEight
        result.fragmentIds frags := by
  have hstatus : (cutParcel flagIsFragment).map (fun o => o.1.statusOrFragments) = .ok 2 := rfl
  cases hrun : cutParcel flagIsFragment with
  | error f =>
      rw [hrun] at hstatus
      cases hstatus
  | ok o =>
      obtain ⟨result, s'⟩ := o
      rw [hrun] at hstatus
      have hok : 1 ≤ result.statusOrFragments := by
        rw [show result.statusOrFragments = 2 from Except.ok.inj hstatus]
        decide
      refine ⟨result, s', rfl, ?_⟩
      unfold cutParcel at hrun
      dsimp only at hrun
      apply (planned_fragments_iff (operating_inTouch (b := parcel flagIsFragment) rfl) rfl rfl
        (.refl _) (by decide) (by decide) rfl hrun hok).mpr
      exact ⟨⟨rfl, trivial⟩, by decide, by decide, trivial⟩

/-- The lengths of the payloads of stored bundles. -/
def storedLengths (s : Processor) (ids : List UInt16) : List (Option UInt32) :=
  ids.map fun id =>
    match bundleStorageGet s.store id with
    | .ok (some x) => (s.bundles.cells x).map (·.payloadLength)
    | _ => none

theorem Realised.storedLengths_eq {s : Processor} {b : Bundle} {routes : List FragmentRoute}
    {ids : List UInt16} {frags : List Addr} (h : Realised s b routes ids frags) :
    storedLengths s ids = routes.map fun r => some r.payloadSize := by
  obtain ⟨hstored, -, hsizes, -, -⟩ := h
  induction hstored generalizing routes with
  | nil =>
      cases routes with
      | nil => rfl
      | cons r rs => cases hsizes
  | cons hget _ ih =>
      cases routes with
      | nil => cases hsizes
      | cons r rs =>
          obtain ⟨⟨c, hc, hlen⟩, hsizes⟩ := List.forall₂_cons.mp hsizes
          have hrest := ih hsizes
          simp only [storedLengths, List.map_cons, hget, hc, Option.map_some, hlen] at hrest ⊢
          rw [hrest]

/-- A bundle that is not a fragment is cut into eight and twelve bytes. -/
theorem planned_fragments_missed :
    ¬∀ (P : Params) (env : Env) (s s' : Router) (a : Addr) (b : Bundle)
      (routes : List FragmentRoute) (result : ProcessingResult), Operating P s →
      bundleStorageGet s.node.store b.id = .ok (some a) → s.node.bundles.cells a = some b →
      bundleMustNotFragment b = false → 2 ≤ routes.length →
      (∀ r ∈ routes, 0 < r.payloadSize.toNat) →
      (routes.map fun r => r.payloadSize.toNat).sum = b.payloadLength.toNat →
      applyFragmentation env s a routes = .ok (result, s') → 1 ≤ result.statusOrFragments →
      ∃ frags, Realised s'.node b routes result.fragmentIds frags := by
  intro hall
  have hlengths : (applyFragmentation calm (inTouch (parcel 0)) 0 twelveAndEight).map
      (fun o => (o.1.statusOrFragments, storedLengths o.2.node o.1.fragmentIds)) =
        .ok (2, [some 8, some 12]) := rfl
  cases hrun : applyFragmentation calm (inTouch (parcel 0)) 0 twelveAndEight with
  | error f =>
      rw [hrun] at hlengths
      cases hlengths
  | ok o =>
      obtain ⟨result, s'⟩ := o
      rw [hrun] at hlengths
      obtain ⟨hstatus, hstored⟩ := Prod.mk.inj (Except.ok.inj hlengths)
      have hok : 1 ≤ result.statusOrFragments := by
        rw [show result.statusOrFragments = 2 from hstatus]
        decide
      obtain ⟨frags, hr⟩ := hall smallNode calm (inTouch (parcel 0)) s' 0
        { parcel 0 with id := 1 } twelveAndEight result (operating_inTouch rfl) rfl rfl (by decide)
        (by decide) (by decide) rfl hrun hok
      have hplanned := hr.storedLengths_eq
      rw [show storedLengths s'.node result.fragmentIds = [some 8, some 12] from
        hstored] at hplanned
      exact absurd hplanned (by decide)

/-! ## Bundles of version 7 -/

section Seven

variable {b : Bundle}

/-- A copy of the blocks has the same size. -/
theorem firstFragmentBlocks_copy (b : Bundle) :
    ((initializeFirstFragment b).blocks.map firstFragmentBlockSize).sum =
      (b.blocks.map firstFragmentBlockSize).sum := by
  have hdup : firstFragmentBlockSize ∘ bundleBlockDup = firstFragmentBlockSize := rfl
  unfold initializeFirstFragment
  rw [(recalculate_eq _).choose_spec]
  simp only [Bundle.blocks, List.map_append, List.map_cons, List.map_map, hdup]
  rfl

theorem isFragmented_copy (b : Bundle) : (initializeFirstFragment b).isFragmented = true := by
  unfold initializeFirstFragment
  rw [(recalculate_eq _).choose_spec]
  exact hasFlag_or (by decide)

theorem cborUintSizeof_le (n : UInt64) : bundle7CborUintSizeof n ≤ 9 := by
  unfold bundle7CborUintSizeof
  split_ifs <;> omega

theorem fragmentFieldsSize_le (b : Bundle) : fragmentFieldsSize b ≤ 10 := by
  unfold fragmentFieldsSize
  have hle := cborUintSizeof_le b.payloadLength.toUInt64
  split <;> omega

/-- **The first cut of version 7**: the sizes agree exactly if the cached length of the primary
block and the fields of a fragment of the original bundle add up to those of its copy. -/
theorem firstMinSizes_agree_iff (hseven : b.protocolVersion = 7) :
    UInt32.ofNat (plannedMinSize true b).1 =
        UInt32.ofNat (bundleGetFirstFragmentMinSize (initializeFirstFragment b)).1 ↔
      b.primaryBlockLength.toNat + fragmentFieldsSize b =
        (initializeFirstFragment b).primaryBlockLength.toNat +
          fragmentFieldsSize (initializeFirstFragment b) := by
  have hsize : ∀ c : Bundle, c.protocolVersion = 7 →
      (bundleGetFirstFragmentMinSize c).1 = bundle7GetFirstFragmentMinSize c := by
    intro c hc
    unfold bundleGetFirstFragmentMinSize
    rw [if_neg (by rw [hc]; decide), if_pos hc]
  have hcopy : (initializeFirstFragment b).protocolVersion = 7 := by
    unfold initializeFirstFragment
    rw [(recalculate_eq _).choose_spec]
    exact hseven
  have h₁ := fragmentFieldsSize_le b
  have h₂ := fragmentFieldsSize_le (initializeFirstFragment b)
  have h₃ := b.primaryBlockLength.toNat_lt
  have h₄ := (initializeFirstFragment b).primaryBlockLength.toNat_lt
  rw [plannedMinSize, if_pos rfl, hsize b hseven, hsize _ hcopy]
  unfold bundle7GetFirstFragmentMinSize
  rw [firstFragmentBlocks_copy, ← UInt32.toNat_inj, UInt32.toNat_ofNat', UInt32.toNat_ofNat']
  omega

/-- A bundle that was not a fragment is never cut as planned, unless its header is longer than that
of a fragment: the fields of a fragment lie in the header of the copy, and are added once more. -/
theorem not_minSizesAgree_whole (hseven : b.protocolVersion = 7) (hwhole : b.isFragmented = false)
    (hlonger : b.primaryBlockLength ≤ (initializeFirstFragment b).primaryBlockLength)
    (r : FragmentRoute) (rs : List FragmentRoute) :
    ¬MinSizesAgree true b (initializeFirstFragment b) (r :: rs) := by
  rintro ⟨hfirst, -⟩
  rw [firstMinSizes_agree_iff hseven] at hfirst
  rw [UInt16.le_iff_toNat_le] at hlonger
  have hnone : fragmentFieldsSize b = 0 := by
    unfold fragmentFieldsSize
    rw [if_neg (by rw [hwhole]; decide)]
  have hsome : 0 < fragmentFieldsSize (initializeFirstFragment b) := by
    unfold fragmentFieldsSize
    rw [if_pos (isFragmented_copy b)]
    omega
  omega

end Seven

end ContactRouter
