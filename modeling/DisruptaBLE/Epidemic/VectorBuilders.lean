import DisruptaBLE.Epidemic.RoutingAgent
import DisruptaBLE.Epidemic.VectorGrowth

/-!
# Building summary vectors

The walks that build summary vectors are sequences of additions (`addInfos_eq`,
`addKnown_eq`, `diffLoop_eq`), so a new vector ends in one of three ways, which
`FillResult` lists: it is filled, a request for memory is refused, or the capacity wraps
around.
-/

namespace EpidemicRouter

open PtrHeap
open BundleProcessor (KnownEntry)

/-! ## Walks -/

section Walks

variable {malloc : Nat → Bool}

/-- The entries of a list. -/
def bundleInfos (infos : Heap BundleInfo) (l : List Addr) : List BundleInfo :=
  l.filterMap infos.cells

/-- The walk collects the entries with `p`, in the order of the list. -/
theorem collectSv_eq {infos : Heap BundleInfo} {p : BundleInfo → Bool} {q : Ptr}
    {l : List Addr} {fuel : Nat} (h : IsSeg infos BundleInfo.next q l none)
    (hfuel : l.length < fuel) :
    collectSv infos p fuel q = .ok (((bundleInfos infos l).filter p).map BundleInfo.svEntry) := by
  induction l generalizing q fuel with
  | nil =>
      obtain rfl : q = none := h
      obtain ⟨fuel, rfl⟩ : ∃ k, fuel = k + 1 := ⟨fuel - 1, by omega⟩
      rfl
  | cons a l ih =>
      obtain ⟨rfl, e, he, hrest⟩ := h
      obtain ⟨fuel, rfl⟩ : ∃ k, fuel = k + 1 := ⟨fuel - 1, by omega⟩
      have hlen : l.length < fuel := by simpa using hfuel
      have hentries : bundleInfos infos (a :: l) = e :: bundleInfos infos l :=
        List.filterMap_cons_some he
      rw [collectSv, Heap.load_cell he, ok_bind, ih hrest hlen, ok_bind, hentries,
        List.filter_cons]
      split <;> rfl

/-- **What a walk collects**: the hashes of the list entries with a property, in the order of the
list. -/
theorem entriesOf_eq {s : Router} {l : List Addr}
    (h : IsSeg s.infos BundleInfo.next s.head l none) (p : BundleInfo → Bool) :
    entriesOf s p = ((bundleInfos s.infos l).filter p).map BundleInfo.svEntry := by
  have hwalk := collectSv_eq (p := p) h (Nat.lt_succ_of_le h.length_le)
  exact Except.ok.inj ((collectSv_entriesOf h p).symm.trans hwalk)

/-- The walk over the bundle list adds what it collects. -/
theorem addInfos_eq {infos : Heap BundleInfo} {p : BundleInfo → Bool} {fuel : Nat} {q : Ptr}
    {es : List SvEntry} (hes : collectSv infos p fuel q = .ok es) (sv : SummaryVector) :
    addInfos malloc infos p fuel q sv = addEntries malloc es sv := by
  induction fuel generalizing q es sv with
  | zero => cases hes
  | succ fuel ih =>
      cases q with
      | none =>
          obtain rfl := Except.ok.inj hes
          rfl
      | some a =>
          unfold collectSv at hes
          obtain ⟨e, he, hes⟩ := bind_eq_ok.mp hes
          obtain ⟨rest, hrest, hes⟩ := bind_eq_ok.mp hes
          unfold addInfos
          rw [he, ok_bind]
          cases hp : p e with
          | false =>
              rw [hp] at hes
              obtain rfl := Except.ok.inj hes
              exact ih hrest sv
          | true =>
              rw [hp] at hes
              obtain rfl := Except.ok.inj hes
              rw [if_pos rfl, if_pos rfl, addEntries_cons]
              cases summaryVectorAddEntryByCopy malloc sv e.svEntry with
              | error f => rfl
              | ok added =>
                  cases added with
                  | none => rfl
                  | some sv' => exact ih hrest sv'

/-- The loop over the known bundles adds their hashes. -/
theorem addKnown_eq (env : AgentEnv) (known : List KnownEntry) (sv : SummaryVector) :
    addKnown env known sv = addEntries env.malloc (knownEntries env.halHash known) sv := by
  induction known generalizing sv with
  | nil => rfl
  | cons k ks ih =>
      change (summaryVectorAddEntryByCopy env.malloc sv
        (svEntryFromUniqueIdentifier env.halHash k.uniqueIdentifier) >>= _) = _
      change _ = (summaryVectorAddEntryByCopy env.malloc sv
        (svEntryFromUniqueIdentifier env.halHash k.uniqueIdentifier) >>= _)
      congr 1
      funext added
      cases added with
      | none => rfl
      | some sv' => exact ih sv'

/-- More entries are added to the vector that the first ones lead to. -/
theorem addEntries_append {es fs : List SvEntry} {sv sv' : SummaryVector}
    (h : addEntries malloc es sv = .ok (some sv')) :
    addEntries malloc (es ++ fs) sv = addEntries malloc fs sv' := by
  induction es generalizing sv with
  | nil =>
      obtain rfl := Option.some.inj (Except.ok.inj h)
      rfl
  | cons e es ih =>
      rw [addEntries_cons] at h
      rw [List.cons_append, addEntries_cons]
      obtain ⟨added, hadd, h⟩ := bind_eq_ok.mp h
      rw [hadd, ok_bind]
      cases added with
      | none => cases h
      | some next => exact ih h

end Walks

/-! ## New vectors -/

/-- The memory of `summary_vector_create`. -/
def CreateServed (malloc : Nat → Bool) : Prop :=
  malloc summaryVectorSize = true ∧ malloc (defaultCapacity.toNat * svEntrySize) = true

/-- A request for memory is refused before a new vector has room for a number of entries: its
capacity neither reaches it nor wraps around. -/
def GrowthRefused (malloc : Nat → Bool) (count : Nat) : Prop :=
  ¬ GrowthServed malloc defaultCapacity.toNat count ∧
    ¬ GrowthOverruns malloc defaultCapacity.toNat count

/-- How a new vector is filled with entries. -/
inductive FillResult (malloc : Nat → Bool) (es : List SvEntry) :
    Except Fault (Option SummaryVector) → Prop where
  | filled {sv : SummaryVector} : GrowthServed malloc defaultCapacity.toNat es.length →
      ¬ GrowthOverruns malloc defaultCapacity.toNat es.length → sv.entries = es →
      FillResult malloc es (.ok (some sv))
  | refused : GrowthRefused malloc es.length → FillResult malloc es (.ok none)
  | overrun {f : Fault} : GrowthOverruns malloc defaultCapacity.toNat es.length →
      ¬ GrowthServed malloc defaultCapacity.toNat es.length → FillResult malloc es (.error f)

section New

variable {malloc : Nat → Bool}

theorem summaryVectorCreate_served (h : CreateServed malloc) :
    summaryVectorCreate malloc = some ⟨[], defaultCapacity, Nat.zero_le _⟩ := by
  unfold summaryVectorCreate summaryVectorCreateWithCapacity
  rw [h.1, h.2]
  rfl

theorem summaryVectorCreate_refused (h : ¬ CreateServed malloc) :
    summaryVectorCreate malloc = none := by
  unfold summaryVectorCreate summaryVectorCreateWithCapacity
  rw [if_neg]
  rwa [Bool.and_eq_true]

/-- **Filling a new vector** has one of three results. -/
theorem fill_result {sv : SummaryVector} (hsv : summaryVectorCreate malloc = some sv)
    (es : List SvEntry) : FillResult malloc es (addEntries malloc es sv) := by
  obtain ⟨hempty, hcap⟩ := summaryVectorCreateWithCapacity_some hsv
  have hserved := @addEntries_eq_some_iff malloc es sv
  have hover := @addEntries_eq_error_iff malloc es sv
  rw [hempty, hcap, List.length_nil, Nat.zero_add] at hserved hover
  cases hrun : addEntries malloc es sv with
  | error f =>
      apply FillResult.overrun (hover.mp ⟨f, hrun⟩)
      intro h
      obtain ⟨sv', hsv'⟩ := hserved.mpr h
      cases hrun.symm.trans hsv'
  | ok filled =>
      have hnot : ¬ GrowthOverruns malloc defaultCapacity.toNat es.length := by
        intro h
        obtain ⟨f, hf⟩ := hover.mpr h
        cases hrun.symm.trans hf
      cases filled with
      | some sv' =>
          have hentries := addEntries_entries hrun
          rw [hempty, List.nil_append] at hentries
          exact .filled (hserved.mp ⟨sv', hrun⟩) hnot hentries
      | none =>
          apply FillResult.refused
          apply And.intro _ hnot
          intro h
          obtain ⟨sv', hsv'⟩ := hserved.mpr h
          cases hrun.symm.trans hsv'

end New

/-- What `create_offer_sv` returns are the entries that should be offered, in the order of the
list. -/
theorem createOfferSv_entries {malloc : Nat → Bool} {s : Router} {l : List Addr}
    (h : IsSeg s.infos BundleInfo.next s.head l none) {now : Nat} {eid : CStr}
    {offer : SummaryVector} (hoffer : createOfferSv malloc s now eid = .ok (some offer)) :
    offer.entries = entriesOf s (bundleShouldBeOffered now eid) := by
  unfold createOfferSv at hoffer
  cases hsv : summaryVectorCreate malloc with
  | none =>
      rw [hsv] at hoffer
      cases hoffer
  | some sv =>
      rw [hsv] at hoffer
      dsimp only at hoffer
      rw [addInfos_eq (collectSv_entriesOf h _)] at hoffer
      have hfill := fill_result hsv (entriesOf s (bundleShouldBeOffered now eid))
      rw [hoffer] at hfill
      cases hfill with
      | filled _ _ hentries => exact hentries

end EpidemicRouter
