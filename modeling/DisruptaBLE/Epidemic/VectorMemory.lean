import DisruptaBLE.Epidemic.VectorBuilders

/-!
# Summary vectors in memory

The functions that build summary vectors and those that use them, with the vectors in
memory: which of them are released, and what happens to a pointer to a released one.

`create_known_sv` of the router releases its vector when it cannot grow, and returns the
pointer all the same.  `send_offer_sv`, `on_offer_msg` and `routing_agent_update` read
and release what they got.  `summary_vectors_alive_iff` says for each function, for every
bundle list and every pattern of refused requests, exactly when it does what it should.
-/

namespace EpidemicRouter

open PtrHeap
open BundleProcessor (KnownEntry)

/-! ## Definitions -/

/-- The summary vectors in memory.  No address is used twice. -/
abbrev Vectors := Heap SummaryVector

/-- The ways in which a run goes wrong. -/
inductive VectorFault where
  /-- a vector is read or released after its release -/
  | released
  /-- another fault -/
  | other (f : Fault)
  deriving DecidableEq, Repr

/-- A part that works on live vectors only. -/
def onLive {α : Type} : Except Fault α → Except VectorFault α
  | .ok r => .ok r
  | .error f => .error (.other f)

namespace Vectors

/-- A new vector, and the pointer to it. -/
def add (h : Vectors) (sv : SummaryVector) : Vectors × Ptr := (h.set h.bound sv, some h.bound)

/-- A vector that has been built and released again. -/
def addReleased (h : Vectors) (sv : SummaryVector) : Vectors × Ptr :=
  ((h.set h.bound sv).erase h.bound, some h.bound)

/-- The vector behind a pointer, which is not `NULL`. -/
def read (h : Vectors) (p : Ptr) : Except VectorFault SummaryVector :=
  match p.bind h.cells with
  | some sv => .ok sv
  | none => .error .released

/-- `summary_vector_destroy`. -/
def destroy (h : Vectors) (a : Addr) : Except VectorFault Vectors :=
  match h.cells a with
  | some _ => .ok (h.erase a)
  | none => .error .released

/-- `router_create_known_sv`: a vector that cannot grow is released, and returned. -/
def routerCreateKnownSv (h : Vectors) (malloc : Nat → Bool) (s : Router) :
    Except VectorFault (Vectors × Ptr) :=
  match summaryVectorCreate malloc with
  | none => .ok (h, none)
  | some sv => do
      match ← onLive (addInfos malloc s.infos (fun _ => true) (s.infos.bound + 1) s.head sv) with
      | none => pure (h.addReleased sv)
      | some sv => pure (h.add sv)

/-- `create_offer_sv`. -/
def createOfferSv (h : Vectors) (malloc : Nat → Bool) (s : Router) (now : Nat) (eid : CStr) :
    Except VectorFault (Vectors × Ptr) :=
  match summaryVectorCreate malloc with
  | none => .ok (h, none)
  | some sv => do
      match ← onLive (addInfos malloc s.infos (bundleShouldBeOffered now eid) (s.infos.bound + 1)
        s.head sv) with
      | none => pure ((h.addReleased sv).1, none)
      | some sv => pure (h.add sv)

/-- The loop of `create_known_sv` of the agent. -/
def addKnown (env : AgentEnv) (a : Addr) :
    List KnownEntry → Vectors → Except VectorFault (Vectors × Ptr)
  | [], h => .ok (h, some a)
  | k :: ks, h => do
      let sv ← h.read (some a)
      let entry := svEntryFromUniqueIdentifier env.halHash k.uniqueIdentifier
      match ← onLive (summaryVectorAddEntryByCopy env.malloc sv entry) with
      | none =>
          let h ← h.destroy a
          pure (h, none)
      | some sv => addKnown env a ks (h.set a sv)

/-- `create_known_sv` of the agent. -/
def createKnownSv (h : Vectors) (env : AgentEnv) (s : Router) (known : List KnownEntry) :
    Except VectorFault (Vectors × Ptr) := do
  let (h, p) ← h.routerCreateKnownSv env.malloc s
  match p with
  | none => pure (h, none)
  | some a => addKnown env a known h

/-- `summary_vector_create_diff`.  The second vector is read for the entries of the first. -/
def createDiff (h : Vectors) (malloc : Nat → Bool) (a b : Ptr) :
    Except VectorFault (Vectors × Ptr) :=
  match summaryVectorCreate malloc with
  | none => .ok (h, none)
  | some diff => do
      let va ← h.read a
      if va.entries.isEmpty then pure (h.add diff)
      else
        let vb ← h.read b
        match ← onLive (diffLoop malloc vb va.entries diff) with
        | none => pure ((h.addReleased diff).1, none)
        | some diff => pure (h.add diff)

/-- `send_sv`, with the requests for the endpoint and for the payload served independently. -/
def sendSv (env : AgentEnv) (endpoint payload : Nat → Bool) (localEid sink destinationEid : CStr)
    (sv : SummaryVector) (originalCh : Option (List UInt8)) :
    Except VectorFault (Option InfoBundle) :=
  if (createEndpoint endpoint destinationEid sink).isNone then .ok none
  else if !payload (sv.entries.length * svEntrySize + env.chLength) then .error (.other .nullDeref)
  else
    onLive (EpidemicRouter.sendSv { env with malloc := fun _ => true } localEid sink
      destinationEid sv originalCh)

/-- `send_offer_sv` of the router, with `routing_agent_send_offer_sv`.  The requests for the
known vector, the offer, the endpoint and the payload are served independently. -/
def sendOfferSv (h : Vectors) (env : AgentEnv) (memory : Nat → Nat → Bool) (localEid : CStr)
    (s : Router) (now : Nat) (eid : CStr) :
    Except VectorFault (Vectors × Option InfoBundle) := do
  let (h, p) ← h.routerCreateKnownSv (memory 0) s
  match p with
  | none => pure (h, none)
  | some a =>
      let known ← h.read (some a)
      let ch := summaryVectorCharacteristicCalculate env.chLength known
      let h ← h.destroy a
      let (h, q) ← h.createOfferSv (memory 1) s now eid
      match q with
      | none => pure (h, none)
      | some o =>
          let offer ← h.read (some o)
          let message ← sendSv env (memory 2) (memory 3) localEid routingAgentSinkOffer eid offer
            (some ch)
          let h ← h.destroy o
          pure (h, message)

/-- The part of `on_offer_msg` with the known vector at `a` and the offer at `o`. -/
def answerOffer (h : Vectors) (env : AgentEnv) (memory : Nat → Nat → Bool)
    (localEid source : CStr) (ch : List UInt8) (a o : Addr) :
    Except VectorFault (Vectors × List AgentOutput) := do
  let (h, q) ← h.createDiff (memory 3) (some o) (some a)
  match q with
  | none =>
      let h ← h.destroy a
      let h ← h.destroy o
      pure (h, [])
  | some r =>
      let request ← h.read (some r)
      let filtered := if request.length = 0 then [AgentOutput.filterAdd ch] else []
      let message ← sendSv env (memory 4) (memory 5) localEid routingAgentSinkRequest source
        request none
      let h ← h.destroy r
      let h ← h.destroy a
      let h ← h.destroy o
      pure (h, filtered ++ message.toList.map .send)

/-- `on_offer_msg`.  The requests for the EID, the offer, the known vector, the difference, the
endpoint and the payload are served independently. -/
def onOfferMsg (h : Vectors) (env : AgentEnv) (memory : Nat → Nat → Bool) (localEid : CStr)
    (s : Router) (known : List KnownEntry) (data : InfoBundle) :
    Except VectorFault (Vectors × List AgentOutput) := do
  let source ← onLive (routingAgentCreateEidFromInfoBundleEid (memory 0) data.source)
  let parsed ← onLive (svOfPayload { env with malloc := memory 1 } data.payload)
  match parsed with
  | none => pure (h, [])
  | some offer =>
      let o := h.bound
      let h := (h.add offer).1
      let (h, p) ← h.createKnownSv { env with malloc := memory 2 } s known
      match p with
      | none =>
          let h ← h.destroy o
          pure (h, [])
      | some a =>
          let ch := data.payload.drop (data.payload.length - env.chLength)
          h.answerOffer env memory localEid source ch a o

/-- `routing_agent_update`: the new `last_sv_update_ms`, and the characteristic that is set and
ignored. -/
def routingAgentUpdate (h : Vectors) (env : AgentEnv) (s : Router)
    (lastSvUpdateMs now : UInt64) :
    Except VectorFault (Vectors × UInt64 × Option (List UInt8)) := do
  if lastSvUpdateMs + 1000 < now then
    let (h, p) ← h.routerCreateKnownSv env.malloc s
    match p with
    | none => pure (h, lastSvUpdateMs, none)
    | some a =>
        let own ← h.read (some a)
        let h ← h.destroy a
        pure (h, now, some (summaryVectorCharacteristicCalculate env.chLength own))
  else pure (h, lastSvUpdateMs, none)

end Vectors

/-! ## Claims about a pointer -/

/-- A builder returns `NULL`, or a live vector with these entries. -/
def NullOrComplete (es : List SvEntry) (r : Except VectorFault (Vectors × Ptr)) : Prop :=
  ∃ h p, r = .ok (h, p) ∧ ∀ a, p = some a → ∃ sv, h.cells a = some sv ∧ sv.entries = es

/-- No vector is read or released after its release. -/
def NeverReleased {α : Type} (r : Except VectorFault α) : Prop := r ≠ .error .released

section Rules

variable {α β : Type} {h : Vectors} {a : Addr} {sv : SummaryVector}

theorem onLive_ok (r : α) : onLive (.ok r : Except Fault α) = .ok r := rfl

theorem neverReleased_ok (r : α) : NeverReleased (.ok r : Except VectorFault α) :=
  fun h => by cases h

theorem neverReleased_other (f : Fault) :
    NeverReleased (.error (.other f) : Except VectorFault α) :=
  fun h => by cases h

theorem neverReleased_onLive (x : Except Fault α) : NeverReleased (onLive x) := by
  cases x with
  | ok r => exact neverReleased_ok r
  | error f => exact neverReleased_other f

theorem neverReleased_bind {x : Except VectorFault α} {f : α → Except VectorFault β}
    (hx : NeverReleased x) (hf : ∀ r, x = .ok r → NeverReleased (f r)) :
    NeverReleased (x >>= f) := by
  cases x with
  | ok r => exact hf r rfl
  | error e =>
      intro h
      apply hx
      cases h
      rfl

theorem not_neverReleased : ¬ NeverReleased (.error .released : Except VectorFault α) :=
  fun h => h rfl

theorem not_nullOrComplete_error (es : List SvEntry) (f : VectorFault) :
    ¬ NullOrComplete es (.error f) := by
  rintro ⟨h, p, hr, -⟩
  cases hr

theorem nullOrComplete_null (es : List SvEntry) (h : Vectors) :
    NullOrComplete es (.ok (h, none)) :=
  ⟨h, none, rfl, fun a ha => by cases ha⟩

theorem nullOrComplete_live {es : List SvEntry} (hsv : h.cells a = some sv)
    (hes : sv.entries = es) : NullOrComplete es (.ok (h, some a)) :=
  ⟨h, some a, rfl, fun b hb => by cases hb; exact ⟨sv, hsv, hes⟩⟩

theorem not_nullOrComplete_stale (es : List SvEntry) (hstale : h.cells a = none) :
    ¬ NullOrComplete es (.ok (h, some a)) := by
  rintro ⟨h', p, hr, hlive⟩
  cases hr
  obtain ⟨sv, hsv, -⟩ := hlive a rfl
  cases hstale.symm.trans hsv

namespace Vectors

theorem read_live (hsv : h.cells a = some sv) : h.read (some a) = .ok sv := by
  unfold read
  rw [Option.bind_some, hsv]

theorem read_stale (hstale : h.cells a = none) : h.read (some a) = .error .released := by
  unfold read
  rw [Option.bind_some, hstale]

theorem destroy_live (hsv : h.cells a = some sv) : h.destroy a = .ok (h.erase a) := by
  unfold destroy
  rw [hsv]

theorem destroy_stale (hstale : h.cells a = none) : h.destroy a = .error .released := by
  unfold destroy
  rw [hstale]

theorem add_cells_self (h : Vectors) (sv : SummaryVector) :
    (h.add sv).1.cells h.bound = some sv := Heap.cells_set_self h h.bound sv

theorem add_cells_of_live (hsv : h.cells a = some sv) (new : SummaryVector) :
    (h.add new).1.cells a = some sv := by
  have hne : a ≠ h.bound := Nat.ne_of_lt (Heap.lt_bound_of_cell hsv)
  exact (Heap.cells_set_ne h hne new).trans hsv

theorem addReleased_cells (h : Vectors) (new : SummaryVector) :
    (h.addReleased new).1.cells a = h.cells a := by
  unfold addReleased
  by_cases ha : a = h.bound
  · rw [ha, Heap.cells_erase_self, h.free_above _ (Nat.le_refl _)]
  · rw [Heap.cells_erase_ne _ ha, Heap.cells_set_ne _ ha]

end Vectors

end Rules

/-! ## The builders -/

/-- How the vector of `router_create_known_sv` is built. -/
inductive KnownResult (malloc : Nat → Bool) (es : List SvEntry) (h : Vectors) :
    Except VectorFault (Vectors × Ptr) → Prop where
  | null : ¬ CreateServed malloc → KnownResult malloc es h (.ok (h, none))
  | live {new sv : SummaryVector} : summaryVectorCreate malloc = some new →
      addEntries malloc es new = .ok (some sv) →
      GrowthServed malloc defaultCapacity.toNat es.length → sv.entries = es →
      KnownResult malloc es h (.ok (h.add sv))
  | stale {sv : SummaryVector} : CreateServed malloc → GrowthRefused malloc es.length →
      KnownResult malloc es h (.ok (h.addReleased sv))
  | overrun {f : Fault} : CreateServed malloc →
      GrowthOverruns malloc defaultCapacity.toNat es.length →
      ¬ GrowthServed malloc defaultCapacity.toNat es.length →
      KnownResult malloc es h (.error (.other f))

section Builders

variable {s : Router} {l : List Addr} {h : Vectors}

theorem routerCreateKnownSv_result (hl : IsSeg s.infos BundleInfo.next s.head l none)
    (malloc : Nat → Bool) (h : Vectors) :
    KnownResult malloc (entriesOf s fun _ => true) h (h.routerCreateKnownSv malloc s) := by
  unfold Vectors.routerCreateKnownSv
  by_cases hserved : CreateServed malloc
  · have hcreate := summaryVectorCreate_served hserved
    have hfill := fill_result hcreate (entriesOf s fun _ => true)
    rw [hcreate]
    dsimp only
    rw [addInfos_eq (collectSv_entriesOf hl _)]
    cases hrun : addEntries malloc (entriesOf s fun _ => true) ⟨[], defaultCapacity, _⟩ with
    | error f =>
        rw [hrun] at hfill
        cases hfill with
        | overrun hover hnot => exact .overrun hserved hover hnot
    | ok filled =>
        rw [hrun] at hfill
        cases hfill with
        | filled hgrowth _ hentries => exact .live hcreate hrun hgrowth hentries
        | refused hrefused => exact .stale hserved hrefused
  · rw [summaryVectorCreate_refused hserved]
    exact .null hserved

/-- How a builder ends that returns `NULL` when a request is refused. -/
inductive BuildResult (es : List SvEntry) (fails : Prop) (h : Vectors) :
    Except VectorFault (Vectors × Ptr) → Prop where
  | null {h' : Vectors} : ¬ fails → (∀ a, h'.cells a = h.cells a) →
      BuildResult es fails h (.ok (h', none))
  | live {sv : SummaryVector} : ¬ fails → sv.entries = es → BuildResult es fails h (.ok (h.add sv))
  | fault {f : Fault} : fails → BuildResult es fails h (.error (.other f))

theorem BuildResult.nullOrComplete_iff {es : List SvEntry} {fails : Prop}
    {r : Except VectorFault (Vectors × Ptr)} (hr : BuildResult es fails h r) :
    NullOrComplete es r ↔ ¬ fails := by
  cases hr with
  | null hnot _ => exact iff_of_true (nullOrComplete_null es _) hnot
  | live hnot hes => exact iff_of_true (nullOrComplete_live (h.add_cells_self _) hes) hnot
  | fault hfails => exact iff_of_false (not_nullOrComplete_error es _) (not_not_intro hfails)

theorem BuildResult.neverReleased {es : List SvEntry} {fails : Prop}
    {r : Except VectorFault (Vectors × Ptr)} (hr : BuildResult es fails h r) :
    NeverReleased r := by
  cases hr with
  | null _ _ => exact neverReleased_ok _
  | live _ _ => exact neverReleased_ok _
  | fault _ => exact neverReleased_other _

/-- A vector that is filled, or released when it cannot grow. -/
theorem build_result {malloc : Nat → Bool} {sv : SummaryVector}
    (hserved : CreateServed malloc) (hsv : summaryVectorCreate malloc = some sv)
    (es : List SvEntry) (h : Vectors) :
    BuildResult es (CreateServed malloc ∧ GrowthOverruns malloc defaultCapacity.toNat es.length) h
      (onLive (addEntries malloc es sv) >>= fun
        | none => pure ((h.addReleased sv).1, none)
        | some sv => pure (h.add sv)) := by
  have hfill := fill_result hsv es
  generalize addEntries malloc es sv = run at hfill
  cases hfill with
  | filled _ hnot hentries => exact .live (fun hfails => hnot hfails.2) hentries
  | refused hrefused =>
      exact .null (fun hfails => hrefused.2 hfails.2) fun a => h.addReleased_cells sv
  | overrun hover _ => exact .fault ⟨hserved, hover⟩

theorem createOfferSv_result (hl : IsSeg s.infos BundleInfo.next s.head l none)
    (malloc : Nat → Bool) (now : Nat) (eid : CStr) (h : Vectors) :
    BuildResult (entriesOf s (bundleShouldBeOffered now eid))
      (CreateServed malloc ∧ GrowthOverruns malloc defaultCapacity.toNat
        (entriesOf s (bundleShouldBeOffered now eid)).length) h
      (h.createOfferSv malloc s now eid) := by
  unfold Vectors.createOfferSv
  by_cases hserved : CreateServed malloc
  · have hcreate := summaryVectorCreate_served hserved
    rw [hcreate]
    dsimp only
    rw [addInfos_eq (collectSv_entriesOf hl _)]
    exact build_result hserved hcreate _ h
  · rw [summaryVectorCreate_refused hserved]
    exact .null (fun hfails => hserved hfails.1) fun _ => rfl

/-- The indices of the second vector fit an `int` as far as they are needed. -/
def Comparable (es : List SvEntry) (b : SummaryVector) : Prop :=
  b.entries.length < 2 ^ 31 ∨ ∀ e ∈ es, e ∈ b.entries.take (2 ^ 31)

/-- A search that ends before the index overflows. -/
theorem containsLoop_of_mem {entry : SvEntry} {i : Nat} {es : List SvEntry}
    (hmem : entry ∈ es.take (2 ^ 31 - i)) : containsLoop entry i es = .ok true := by
  induction es generalizing i with
  | nil => exact absurd (List.mem_of_mem_take hmem) List.not_mem_nil
  | cons e es ih =>
      unfold containsLoop
      by_cases he : entry = e
      · rw [if_pos he]
      · obtain ⟨k, hk⟩ : ∃ k, 2 ^ 31 - i = k + 1 := by
          cases hroom : 2 ^ 31 - i with
          | zero =>
              rw [hroom] at hmem
              exact absurd hmem List.not_mem_nil
          | succ k => exact ⟨k, rfl⟩
        rw [hk, List.take_succ_cons] at hmem
        have hrest : entry ∈ es.take k := (List.mem_cons.mp hmem).resolve_left he
        have hlast : i ≠ 2 ^ 31 - 1 := by
          intro hi
          obtain rfl : k = 0 := by omega
          exact absurd hrest List.not_mem_nil
        have hnext : 2 ^ 31 - (i + 1) = k := by omega
        rw [if_neg he, if_neg hlast]
        exact ih (hnext ▸ hrest)

/-- A search that does not. -/
theorem containsLoop_of_not_mem {entry : SvEntry} {i : Nat} {es : List SvEntry}
    (hi : i < 2 ^ 31) (hlong : 2 ^ 31 ≤ i + es.length) (hmem : entry ∉ es.take (2 ^ 31 - i)) :
    containsLoop entry i es = .error .dangling := by
  induction es generalizing i with
  | nil =>
      rw [List.length_nil] at hlong
      omega
  | cons e es ih =>
      obtain ⟨k, hk⟩ : ∃ k, 2 ^ 31 - i = k + 1 := ⟨2 ^ 31 - i - 1, by omega⟩
      rw [hk, List.take_succ_cons, List.mem_cons, not_or] at hmem
      rw [List.length_cons] at hlong
      unfold containsLoop
      rw [if_neg hmem.1]
      by_cases hlast : i = 2 ^ 31 - 1
      · rw [if_pos hlast]
      · have hnext : 2 ^ 31 - (i + 1) = k := by omega
        rw [if_neg hlast]
        exact ih (by omega) (by omega) (hnext ▸ hmem.2)

theorem summaryVectorContainsEntry_comparable {entry : SvEntry} {b : SummaryVector}
    (hcomp : b.entries.length < 2 ^ 31 ∨ entry ∈ b.entries.take (2 ^ 31)) :
    summaryVectorContainsEntry b entry = .ok (b.entries.contains entry) := by
  rcases hcomp with hshort | hmem
  · exact summaryVectorContainsEntry_spec hshort entry
  · have hin : b.entries.contains entry = true :=
      List.contains_iff_mem.mpr (List.mem_of_mem_take hmem)
    rw [hin]
    exact containsLoop_of_mem hmem

/-- The loop of `summary_vector_create_diff` adds the entries that the second vector does not
have. -/
theorem diffLoop_eq {malloc : Nat → Bool} {b : SummaryVector} {es : List SvEntry}
    (hcomp : Comparable es b) (diff : SummaryVector) :
    diffLoop malloc b es diff =
      addEntries malloc (es.filter fun e => !b.entries.contains e) diff := by
  induction es generalizing diff with
  | nil => rfl
  | cons e es ih =>
      have hrest : Comparable es b := hcomp.imp_right fun h x hx => h x (List.mem_cons_of_mem e hx)
      have hfirst : b.entries.length < 2 ^ 31 ∨ e ∈ b.entries.take (2 ^ 31) :=
        hcomp.imp_right fun h => h e List.mem_cons_self
      unfold diffLoop
      rw [summaryVectorContainsEntry_comparable hfirst, ok_bind]
      cases hmember : b.entries.contains e with
      | true =>
          rw [if_pos rfl, List.filter_cons_of_neg (by rw [hmember]; decide)]
          exact ih hrest diff
      | false =>
          rw [if_neg (by decide), List.filter_cons_of_pos (by rw [hmember]; decide),
            addEntries_cons]
          cases summaryVectorAddEntryByCopy malloc diff e with
          | error f => rfl
          | ok added =>
              cases added with
              | none => rfl
              | some diff' => exact ih hrest diff'

/-- The loop ends at the first entry for which the index overflows. -/
theorem diffLoop_incomparable {malloc : Nat → Bool} {b : SummaryVector} {es : List SvEntry}
    (hcomp : ¬ Comparable es b) (diff : SummaryVector) :
    diffLoop malloc b es diff = .error .dangling := by
  unfold Comparable at hcomp
  rw [not_or, Nat.not_lt] at hcomp
  obtain ⟨hlong, hmissing⟩ := hcomp
  induction es generalizing diff with
  | nil => exact absurd (fun e he => absurd he List.not_mem_nil) hmissing
  | cons e es ih =>
      unfold diffLoop
      by_cases he : e ∈ b.entries.take (2 ^ 31)
      · have hrest : ¬ ∀ x ∈ es, x ∈ b.entries.take (2 ^ 31) := by
          intro hall
          apply hmissing
          intro x hx
          rcases List.mem_cons.mp hx with rfl | hx
          · exact he
          · exact hall x hx
        have hin : summaryVectorContainsEntry b e = .ok true := containsLoop_of_mem he
        rw [hin, ok_bind, if_pos rfl]
        exact ih diff hrest
      · have hover : summaryVectorContainsEntry b e = .error .dangling :=
          containsLoop_of_not_mem (by decide) (by rwa [Nat.zero_add]) he
        rw [hover]
        rfl

/-- The difference of two live vectors. -/
theorem createDiff_result {a b : Addr} {va vb : SummaryVector} (ha : h.cells a = some va)
    (hb : h.cells b = some vb) (malloc : Nat → Bool) :
    BuildResult (va.entries.filter fun e => !vb.entries.contains e)
      (CreateServed malloc ∧ (¬ Comparable va.entries vb ∨
        GrowthOverruns malloc defaultCapacity.toNat
          (va.entries.filter fun e => !vb.entries.contains e).length)) h
      (h.createDiff malloc (some a) (some b)) := by
  unfold Vectors.createDiff
  by_cases hserved : CreateServed malloc
  · have hcreate := summaryVectorCreate_served hserved
    rw [hcreate]
    dsimp only
    rw [Vectors.read_live ha, ok_bind]
    cases hva : va.entries with
    | nil =>
        rw [List.isEmpty_nil, if_pos rfl, List.filter_nil]
        have hnot : ¬ (CreateServed malloc ∧ (¬ Comparable [] vb ∨
            GrowthOverruns malloc defaultCapacity.toNat ([] : List SvEntry).length)) := by
          rintro ⟨-, hincomp | hover⟩
          · exact hincomp (Or.inr fun e he => absurd he List.not_mem_nil)
          · exact not_growthOverruns_of_le (Nat.zero_le _) hover
        exact .live hnot rfl
    | cons e es =>
        rw [List.isEmpty_cons, if_neg Bool.false_ne_true, Vectors.read_live hb, ok_bind]
        by_cases hcomp : Comparable (e :: es) vb
        · rw [diffLoop_eq hcomp]
          have hbuild := build_result hserved hcreate
            ((e :: es).filter fun e => !vb.entries.contains e) h
          have hfails : (CreateServed malloc ∧ (¬ Comparable (e :: es) vb ∨
              GrowthOverruns malloc defaultCapacity.toNat
                ((e :: es).filter fun e => !vb.entries.contains e).length)) =
              (CreateServed malloc ∧ GrowthOverruns malloc defaultCapacity.toNat
                ((e :: es).filter fun e => !vb.entries.contains e).length) := by
            rw [eq_false (not_not_intro hcomp), false_or]
          rw [hfails]
          exact hbuild
        · rw [diffLoop_incomparable hcomp]
          exact .fault ⟨hserved, Or.inl hcomp⟩
  · rw [summaryVectorCreate_refused hserved]
    exact .null (fun hfails => hserved hfails.1) fun _ => rfl

/-- What was live stays as it is. -/
def Keeps (h h' : Vectors) : Prop := ∀ a sv, h.cells a = some sv → h'.cells a = some sv

/-- How the vector of the agent's `create_known_sv` is built, from the entries `es` of the bundle
list and the known bundles with the entries `ks`. -/
inductive AgentResult (malloc : Nat → Bool) (es ks : List SvEntry) (h : Vectors) :
    Except VectorFault (Vectors × Ptr) → Prop where
  | null {h' : Vectors} :
      ¬ CreateServed malloc ∨ GrowthServed malloc defaultCapacity.toNat es.length ∧
        ¬ GrowthOverruns malloc defaultCapacity.toNat (es.length + ks.length) →
      Keeps h h' → AgentResult malloc es ks h (.ok (h', none))
  | live {h' : Vectors} {sv : SummaryVector} :
      GrowthServed malloc defaultCapacity.toNat es.length →
      ¬ GrowthOverruns malloc defaultCapacity.toNat (es.length + ks.length) →
      h'.cells h.bound = some sv → sv.entries = es ++ ks → Keeps h h' →
      AgentResult malloc es ks h (.ok (h', some h.bound))
  | stale {sv : SummaryVector} : CreateServed malloc → GrowthRefused malloc es.length → ks = [] →
      AgentResult malloc es ks h (.ok (h.addReleased sv))
  | used : CreateServed malloc → GrowthRefused malloc es.length → ks ≠ [] →
      AgentResult malloc es ks h (.error .released)
  | overrun {f : Fault} : CreateServed malloc →
      (GrowthServed malloc defaultCapacity.toNat es.length →
        GrowthOverruns malloc defaultCapacity.toNat (es.length + ks.length)) →
      ¬ GrowthRefused malloc es.length → AgentResult malloc es ks h (.error (.other f))

/-- The loop over the known bundles changes its own vector only. -/
theorem addKnown_live {env : AgentEnv} {a : Addr} {sv : SummaryVector} (hsv : h.cells a = some sv)
    (known : List KnownEntry) :
    match addEntries env.malloc (knownEntries env.halHash known) sv with
    | .ok (some sv') => ∃ h', h.addKnown env a known = .ok (h', some a) ∧
        h'.cells a = some sv' ∧ ∀ b, b ≠ a → h'.cells b = h.cells b
    | .ok none => ∃ h', h.addKnown env a known = .ok (h', none) ∧
        ∀ b, b ≠ a → h'.cells b = h.cells b
    | .error f => h.addKnown env a known = .error (.other f) := by
  induction known generalizing h sv with
  | nil => exact ⟨h, rfl, hsv, fun _ _ => rfl⟩
  | cons k ks ih =>
      change match (summaryVectorAddEntryByCopy env.malloc sv
          (svEntryFromUniqueIdentifier env.halHash k.uniqueIdentifier) >>= fun
            | none => pure none
            | some sv => addEntries env.malloc (knownEntries env.halHash ks) sv) with
        | .ok (some sv') => _
        | .ok none => _
        | .error f => _
      unfold Vectors.addKnown
      rw [Vectors.read_live hsv, ok_bind]
      dsimp only
      cases summaryVectorAddEntryByCopy env.malloc sv
          (svEntryFromUniqueIdentifier env.halHash k.uniqueIdentifier) with
      | error f => rfl
      | ok added =>
          cases added with
          | none =>
              refine ⟨h.erase a, ?_, fun b hb => Heap.cells_erase_ne h hb⟩
              rw [onLive_ok, ok_bind]
              dsimp only
              rw [Vectors.destroy_live hsv]
              rfl
          | some next =>
              have htail := ih (h := h.set a next) (Heap.cells_set_self h a next)
              rw [onLive_ok, ok_bind, ok_bind]
              dsimp only
              cases hrun : addEntries env.malloc (knownEntries env.halHash ks) next with
              | error f =>
                  rw [hrun] at htail
                  exact htail
              | ok filled =>
                  rw [hrun] at htail
                  cases filled with
                  | none =>
                      obtain ⟨h', hok, hframe⟩ := htail
                      exact ⟨h', hok, fun b hb =>
                        (hframe b hb).trans (Heap.cells_set_ne h hb next)⟩
                  | some sv' =>
                      obtain ⟨h', hok, hcell, hframe⟩ := htail
                      exact ⟨h', hok, hcell, fun b hb =>
                        (hframe b hb).trans (Heap.cells_set_ne h hb next)⟩

theorem createKnownSv_result (hl : IsSeg s.infos BundleInfo.next s.head l none) (env : AgentEnv)
    (known : List KnownEntry) (h : Vectors) :
    AgentResult env.malloc (entriesOf s fun _ => true) (knownEntries env.halHash known) h
      (h.createKnownSv env s known) := by
  have hrouter := routerCreateKnownSv_result hl env.malloc h
  unfold Vectors.createKnownSv
  cases hrun : h.routerCreateKnownSv env.malloc s with
  | error f =>
      rw [hrun] at hrouter
      cases hrouter with
      | overrun hserved hover hnot =>
          exact .overrun hserved (fun hgrowth => absurd hgrowth hnot) fun href => href.2 hover
  | ok r =>
      rw [hrun] at hrouter
      rw [ok_bind]
      cases hrouter with
      | null hrefused => exact .null (Or.inl hrefused) fun _ _ hsv => hsv
      | stale hserved hrefused =>
          cases known with
          | nil => exact .stale hserved hrefused rfl
          | cons k ks =>
              have hstale := Vectors.addReleased_cells (a := h.bound) h ⟨[], 0, Nat.zero_le _⟩
              rw [h.free_above _ (Nat.le_refl _)] at hstale
              dsimp only [Vectors.addReleased]
              unfold Vectors.addKnown
              rw [Vectors.read_stale (Heap.cells_erase_self _ _)]
              exact .used hserved hrefused (List.cons_ne_nil _ _)
      | @live new sv hcreate hfirst hgrowth hentries =>
          have hfill := fill_result hcreate
            ((entriesOf s fun _ => true) ++ knownEntries env.halHash known)
          rw [addEntries_append hfirst] at hfill
          have hadd := @addKnown_live (h.add sv).1 env h.bound sv (h.add_cells_self sv) known
          have hserved : CreateServed env.malloc := by
            by_contra hnot
            cases (summaryVectorCreate_refused hnot).symm.trans hcreate
          have hkeeps : ∀ h' : Vectors, (∀ b, b ≠ h.bound → h'.cells b = (h.add sv).1.cells b) →
              Keeps h h' := by
            intro h' hframe b vb hb
            rw [hframe b (Nat.ne_of_lt (Heap.lt_bound_of_cell hb))]
            exact h.add_cells_of_live hb sv
          change AgentResult _ _ _ h ((h.add sv).1.addKnown env h.bound known)
          cases hrun : addEntries env.malloc (knownEntries env.halHash known) sv with
          | error f =>
              rw [hrun] at hfill hadd
              rw [hadd]
              cases hfill with
              | overrun hover _ =>
                  rw [List.length_append] at hover
                  exact .overrun hserved (fun _ => hover) fun href => href.1 hgrowth
          | ok filled =>
              rw [hrun] at hfill hadd
              cases hfill with
              | filled _ hnot happend =>
                  rw [List.length_append] at hnot
                  obtain ⟨h', hok, hcell, hframe⟩ := hadd
                  rw [hok]
                  exact .live hgrowth hnot hcell happend (hkeeps h' hframe)
              | refused hrefused =>
                  have hnot := hrefused.2
                  rw [List.length_append] at hnot
                  obtain ⟨h', hok, hframe⟩ := hadd
                  rw [hok]
                  exact .null (Or.inr ⟨hgrowth, hnot⟩) (hkeeps h' hframe)

end Builders

/-! ## The users -/

/-- The vector of `router_create_known_sv` is released because it cannot grow. -/
def KnownRefused (malloc : Nat → Bool) (s : Router) : Prop :=
  CreateServed malloc ∧ GrowthRefused malloc (entriesOf s fun _ => true).length

/-- `on_offer_msg` gets as far as to use the known vector: nothing has crashed before. -/
def OfferReaches (env : AgentEnv) (memory : Nat → Nat → Bool) (known : List KnownEntry)
    (data : InfoBundle) : Prop :=
  memory 0 (data.source.length + 1) = true ∧
    ∃ offer, svOfPayload { env with malloc := memory 1 } data.payload = .ok (some offer) ∧
      (known ≠ [] ∨ offer.entries ≠ [] ∨ ¬ CreateServed (memory 3) ∨
        createEndpoint (memory 4) (beforeSink data.source) routingAgentSinkRequest = none ∨
        memory 5 env.chLength = true)

section Users

variable {s : Router} {l : List Addr} {h : Vectors}

theorem neverReleased_sendSv (env : AgentEnv) (endpoint payload : Nat → Bool)
    (localEid sink destinationEid : CStr) (sv : SummaryVector) (originalCh : Option (List UInt8)) :
    NeverReleased
      (Vectors.sendSv env endpoint payload localEid sink destinationEid sv originalCh) := by
  unfold Vectors.sendSv
  split
  · exact neverReleased_ok _
  · split
    · exact neverReleased_other _
    · exact neverReleased_onLive _

/-- What uses the known vector of the router at once goes wrong when its growth was refused. -/
theorem knownSv_bind_iff {α : Type} (hl : IsSeg s.infos BundleInfo.next s.head l none)
    (malloc : Nat → Bool) (h : Vectors) {f : Vectors × Ptr → Except VectorFault α}
    (hnull : NeverReleased (f (h, none)))
    (hstale : ∀ sv, f (h.addReleased sv) = .error .released)
    (hlive : ∀ sv, NeverReleased (f (h.add sv))) :
    NeverReleased (h.routerCreateKnownSv malloc s >>= f) ↔ ¬ KnownRefused malloc s := by
  have hknown := routerCreateKnownSv_result hl malloc h
  cases hrun : h.routerCreateKnownSv malloc s with
  | error f =>
      rw [hrun] at hknown
      cases hknown with
      | overrun _ hover _ =>
          exact iff_of_true (neverReleased_other _) fun href => href.2.2 hover
  | ok r =>
      rw [hrun] at hknown
      rw [ok_bind]
      cases hknown with
      | null hnot => exact iff_of_true hnull fun href => hnot href.1
      | @live new sv hcreate hfill hgrowth _ =>
          exact iff_of_true (hlive sv) fun href => href.2.1 hgrowth
      | @stale sv hserved hrefused =>
          rw [hstale]
          exact iff_of_false not_neverReleased (not_not_intro ⟨hserved, hrefused⟩)

/-- The result of `routing_agent_update` for the vector. -/
theorem routingAgentUpdate_iff (hl : IsSeg s.infos BundleInfo.next s.head l none) (env : AgentEnv)
    (last now : UInt64) (h : Vectors) :
    NeverReleased (h.routingAgentUpdate env s last now) ↔
      ¬ (last + 1000 < now ∧ KnownRefused env.malloc s) := by
  unfold Vectors.routingAgentUpdate
  by_cases hdue : last + 1000 < now
  · rw [if_pos hdue, and_iff_right hdue]
    apply knownSv_bind_iff hl
    · exact neverReleased_ok _
    · intro sv
      dsimp only [Vectors.addReleased]
      rw [Vectors.read_stale (Heap.cells_erase_self _ _)]
      rfl
    · intro sv
      dsimp only [Vectors.add]
      rw [Vectors.read_live (Heap.cells_set_self _ _ _), ok_bind,
        Vectors.destroy_live (Heap.cells_set_self _ _ _), ok_bind]
      exact neverReleased_ok _
  · rw [if_neg hdue]
    exact iff_of_true (neverReleased_ok _) fun href => hdue href.1

/-- What `send_offer_sv` does after the known vector is built. -/
theorem sendOfferSv_iff (hl : IsSeg s.infos BundleInfo.next s.head l none) (env : AgentEnv)
    (memory : Nat → Nat → Bool) (localEid : CStr) (now : Nat) (eid : CStr) (h : Vectors) :
    NeverReleased (h.sendOfferSv env memory localEid s now eid) ↔
      ¬ KnownRefused (memory 0) s := by
  unfold Vectors.sendOfferSv
  apply knownSv_bind_iff hl
  · exact neverReleased_ok _
  · intro sv
    dsimp only [Vectors.addReleased]
    rw [Vectors.read_stale (Heap.cells_erase_self _ _)]
    rfl
  · intro sv
    dsimp only [Vectors.add]
    rw [Vectors.read_live (Heap.cells_set_self _ _ _), ok_bind,
      Vectors.destroy_live (Heap.cells_set_self _ _ _), ok_bind]
    generalize (h.set h.bound sv).erase h.bound = h₁
    have hoffer := createOfferSv_result hl (memory 1) now eid h₁
    apply neverReleased_bind hoffer.neverReleased
    intro r hr
    rw [hr] at hoffer
    cases hoffer with
    | null _ _ => exact neverReleased_ok _
    | live _ _ =>
        dsimp only [Vectors.add]
        rw [Vectors.read_live (Heap.cells_set_self _ _ _), ok_bind]
        apply neverReleased_bind (neverReleased_sendSv _ _ _ _ _ _ _ _)
        intro message _
        rw [Vectors.destroy_live (Heap.cells_set_self _ _ _), ok_bind]
        exact neverReleased_ok _

/-- With a live known vector and a live offer nothing is used after its release. -/
theorem answerOffer_live {a o : Addr} {va vo : SummaryVector} (ha : h.cells a = some va)
    (ho : h.cells o = some vo) (hne : o ≠ a) (env : AgentEnv) (memory : Nat → Nat → Bool)
    (localEid source : CStr) (ch : List UInt8) :
    NeverReleased (h.answerOffer env memory localEid source ch a o) := by
  unfold Vectors.answerOffer
  have hdiff := createDiff_result ho ha (memory 3)
  apply neverReleased_bind hdiff.neverReleased
  intro r hr
  rw [hr] at hdiff
  have hrelease : ∀ h' : Vectors, h'.cells a = some va → h'.cells o = some vo →
      ∀ out : List AgentOutput, NeverReleased (do
        let h ← h'.destroy a
        let h ← h.destroy o
        pure (h, out)) := by
    intro h' ha' ho' out
    have ho'' : (h'.erase a).cells o = some vo := (Heap.cells_erase_ne h' hne).trans ho'
    rw [Vectors.destroy_live ha', ok_bind, Vectors.destroy_live ho'', ok_bind]
    exact neverReleased_ok _
  cases hdiff with
  | @null h' _ hsame => exact hrelease h' ((hsame a).trans ha) ((hsame o).trans ho) []
  | @live sv _ _ =>
      have hold : ∀ b vb, h.cells b = some vb →
          ((h.set h.bound sv).erase h.bound).cells b = some vb := by
        intro b vb hb
        have hb' : b ≠ h.bound := Nat.ne_of_lt (Heap.lt_bound_of_cell hb)
        rw [Heap.cells_erase_ne _ hb', Heap.cells_set_ne _ hb', hb]
      dsimp only [Vectors.add]
      rw [Vectors.read_live (Heap.cells_set_self _ _ _), ok_bind]
      apply neverReleased_bind (neverReleased_sendSv _ _ _ _ _ _ _ _)
      intro message _
      rw [Vectors.destroy_live (Heap.cells_set_self _ _ _), ok_bind]
      exact hrelease _ (hold a va ha) (hold o vo ho) _

/-- With memory for everything, `send_sv` does not crash. -/
theorem sendSv_served (env : AgentEnv) (localEid sink destinationEid : CStr) (sv : SummaryVector)
    (originalCh : Option (List UInt8)) :
    ∃ message, sendSv { env with malloc := fun _ => true } localEid sink destinationEid sv
      originalCh = .ok message := by
  unfold sendSv createEndpoint
  dsimp only
  rw [if_pos rfl]
  dsimp only
  rw [Bool.not_true, if_neg Bool.false_ne_true]
  split
  · exact ⟨_, rfl⟩
  · exact ⟨_, rfl⟩

/-- With a released known vector, the end of `on_offer_msg` releases it again, unless it crashes
before. -/
theorem answerOffer_stale {a o : Addr} {vo : SummaryVector} (ha : h.cells a = none)
    (ho : h.cells o = some vo) (hne : a ≠ h.bound) (env : AgentEnv) (memory : Nat → Nat → Bool)
    (localEid source : CStr) (ch : List UInt8) :
    NeverReleased (h.answerOffer env memory localEid source ch a o) ↔
      ¬ (vo.entries ≠ [] ∨ ¬ CreateServed (memory 3) ∨
        createEndpoint (memory 4) source routingAgentSinkRequest = none ∨
        memory 5 env.chLength = true) := by
  unfold Vectors.answerOffer Vectors.createDiff
  by_cases hserved : CreateServed (memory 3)
  · rw [summaryVectorCreate_served hserved]
    dsimp only
    rw [Vectors.read_live ho, ok_bind]
    cases hvo : vo.entries with
    | cons e es =>
        rw [List.isEmpty_cons, if_neg Bool.false_ne_true, Vectors.read_stale ha]
        exact iff_of_false not_neverReleased (not_not_intro (Or.inl (List.cons_ne_nil _ _)))
    | nil =>
        rw [List.isEmpty_nil, if_pos rfl]
        dsimp only [Vectors.add, pure, Except.pure]
        rw [ok_bind]
        dsimp only
        rw [Vectors.read_live (Heap.cells_set_self _ _ _), ok_bind]
        have hstale : Vectors.destroy ((h.set h.bound ⟨[], defaultCapacity, Nat.zero_le _⟩).erase
            h.bound) a = .error .released := by
          apply Vectors.destroy_stale
          rw [Heap.cells_erase_ne _ hne, Heap.cells_set_ne _ hne, ha]
        unfold Vectors.sendSv
        cases hendpoint : createEndpoint (memory 4) source routingAgentSinkRequest with
        | none =>
            rw [Option.isNone_none, if_pos rfl, ok_bind,
              Vectors.destroy_live (Heap.cells_set_self _ _ _), ok_bind, hstale]
            exact iff_of_false not_neverReleased
              (not_not_intro (Or.inr (Or.inr (Or.inl rfl))))
        | some destination =>
            rw [Option.isNone_some, if_neg Bool.false_ne_true, List.length_nil, Nat.zero_mul,
              Nat.zero_add]
            cases hpayload : memory 5 env.chLength with
            | false =>
                rw [Bool.not_false, if_pos rfl]
                apply iff_of_true (neverReleased_other _)
                rintro (hnil | hnot | hnone | htrue)
                · exact hnil rfl
                · exact hnot hserved
                · cases hnone
                · cases htrue
            | true =>
                obtain ⟨message, hmessage⟩ := sendSv_served env localEid routingAgentSinkRequest
                  source ⟨[], defaultCapacity, Nat.zero_le _⟩ none
                rw [Bool.not_true, if_neg Bool.false_ne_true, hmessage, onLive_ok, ok_bind,
                  Vectors.destroy_live (Heap.cells_set_self _ _ _), ok_bind, hstale]
                exact iff_of_false not_neverReleased
                  (not_not_intro (Or.inr (Or.inr (Or.inr rfl))))
  · rw [summaryVectorCreate_refused hserved, ok_bind]
    dsimp only
    rw [Vectors.destroy_stale ha]
    exact iff_of_false not_neverReleased (not_not_intro (Or.inr (Or.inl hserved)))

/-- What `on_offer_msg` does with the known vector. -/
theorem onOfferMsg_iff (hl : IsSeg s.infos BundleInfo.next s.head l none) (env : AgentEnv)
    (memory : Nat → Nat → Bool) (localEid : CStr) (known : List KnownEntry) (data : InfoBundle)
    (h : Vectors) :
    NeverReleased (h.onOfferMsg env memory localEid s known data) ↔
      ¬ (KnownRefused (memory 2) s ∧ OfferReaches env memory known data) := by
  unfold Vectors.onOfferMsg OfferReaches routingAgentCreateEidFromInfoBundleEid
  cases hsource : memory 0 (data.source.length + 1) with
  | false =>
      rw [if_neg Bool.false_ne_true]
      apply iff_of_true (neverReleased_other _)
      rintro ⟨-, hfalse, -⟩
      cases hfalse
  | true =>
      rw [if_pos rfl, onLive_ok, ok_bind, and_iff_right rfl]
      cases hparsed : svOfPayload { env with malloc := memory 1 } data.payload with
      | error f =>
          apply iff_of_true (neverReleased_other _)
          rintro ⟨-, offer, hoffer, -⟩
          cases hoffer
      | ok parsed =>
          rw [onLive_ok, ok_bind]
          cases parsed with
          | none =>
              apply iff_of_true (neverReleased_ok _)
              rintro ⟨-, offer, hoffer, -⟩
              cases hoffer
          | some offer =>
              have ho : (h.add offer).1.cells h.bound = some offer := h.add_cells_self offer
              have hne : h.bound ≠ (h.add offer).1.bound :=
                Nat.ne_of_lt (Heap.lt_bound_of_cell ho)
              have hagent := createKnownSv_result hl { env with malloc := memory 2 } known
                (h.add offer).1
              dsimp only
              cases hrun :
                (h.add offer).1.createKnownSv { env with malloc := memory 2 } s known with
              | error f =>
                  rw [hrun] at hagent
                  cases hagent with
                  | used hserved hrefused hks =>
                      have hknown : known ≠ [] := by
                        rintro rfl
                        exact hks rfl
                      exact iff_of_false not_neverReleased (not_not_intro
                        ⟨⟨hserved, hrefused⟩, offer, rfl, Or.inl hknown⟩)
                  | overrun _ _ hnot =>
                      exact iff_of_true (neverReleased_other _) fun href => hnot href.1.2
              | ok r =>
                  rw [hrun] at hagent
                  rw [ok_bind]
                  cases hagent with
                  | null hcond hkeeps =>
                      apply iff_of_true
                      · dsimp only
                        rw [Vectors.destroy_live (hkeeps _ _ ho), ok_bind]
                        exact neverReleased_ok _
                      · rintro ⟨⟨hserved, hrefused⟩, -⟩
                        rcases hcond with hnot | ⟨hgrowth, -⟩
                        · exact hnot hserved
                        · exact hrefused.1 hgrowth
                  | live hgrowth _ hcell _ hkeeps =>
                      apply iff_of_true
                      · exact answerOffer_live hcell (hkeeps _ _ ho) hne env memory localEid _ _
                      · exact fun href => href.1.2.1 hgrowth
                  | @stale sv hserved hrefused hks =>
                      obtain rfl : known = [] := List.map_eq_nil_iff.mp hks
                      have hcells : ∀ b, ((h.add offer).1.addReleased sv).1.cells b =
                          (h.add offer).1.cells b := fun b => Vectors.addReleased_cells _ sv
                      have hstale : ((h.add offer).1.addReleased sv).1.cells
                          (h.add offer).1.bound = none :=
                        (hcells _).trans ((h.add offer).1.free_above _ (Nat.le_refl _))
                      have hbelow : (h.add offer).1.bound ≠
                          ((h.add offer).1.addReleased sv).1.bound := by
                        apply Nat.ne_of_lt
                        exact Nat.lt_of_lt_of_le (Nat.lt_succ_self _) (Nat.le_max_right _ _)
                      have hanswer := answerOffer_stale hstale ((hcells _).trans ho) hbelow env
                        memory localEid (beforeSink data.source)
                        (data.payload.drop (data.payload.length - env.chLength))
                      apply hanswer.trans
                      apply not_congr
                      constructor
                      · intro hreach
                        exact ⟨⟨hserved, hrefused⟩, offer, rfl, Or.inr hreach⟩
                      · rintro ⟨-, offer', hoffer, hreach⟩
                        cases hoffer
                        exact hreach.resolve_left (not_not_intro rfl)

end Users

/-! ## The claims together -/

section Together

variable {s : Router} {l : List Addr}

theorem entriesOf_all (hl : IsSeg s.infos BundleInfo.next s.head l none) :
    entriesOf s (fun _ => true) = (bundleInfos s.infos l).map BundleInfo.svEntry := by
  rw [entriesOf_eq hl, List.filter_true]

/-- When `router_create_known_sv` returns what it should. -/
theorem routerCreateKnownSv_iff (hl : IsSeg s.infos BundleInfo.next s.head l none) (h : Vectors)
    (malloc : Nat → Bool) :
    NullOrComplete (entriesOf s fun _ => true) (h.routerCreateKnownSv malloc s) ↔
      ¬ CreateServed malloc ∨
        GrowthServed malloc defaultCapacity.toNat (entriesOf s fun _ => true).length := by
  have hknown := routerCreateKnownSv_result hl malloc h
  cases hrun : h.routerCreateKnownSv malloc s with
  | error f =>
      rw [hrun] at hknown
      cases hknown with
      | overrun hserved _ hnot =>
          apply iff_of_false (not_nullOrComplete_error _ _)
          rintro (hrefused | hgrowth)
          · exact hrefused hserved
          · exact hnot hgrowth
  | ok r =>
      rw [hrun] at hknown
      cases hknown with
      | null hnot => exact iff_of_true (nullOrComplete_null _ _) (Or.inl hnot)
      | live _ _ hgrowth hentries =>
          exact iff_of_true (nullOrComplete_live (h.add_cells_self _) hentries) (Or.inr hgrowth)
      | stale hserved hrefused =>
          apply iff_of_false (not_nullOrComplete_stale _ (Heap.cells_erase_self _ _))
          rintro (hnot | hgrowth)
          · exact hnot hserved
          · exact hrefused.1 hgrowth

/-- When the agent's `create_known_sv` returns what it should. -/
theorem createKnownSv_iff (hl : IsSeg s.infos BundleInfo.next s.head l none) (h : Vectors)
    (env : AgentEnv) (known : List KnownEntry) :
    NullOrComplete ((entriesOf s fun _ => true) ++ knownEntries env.halHash known)
        (h.createKnownSv env s known) ↔
      ¬ CreateServed env.malloc ∨
        GrowthServed env.malloc defaultCapacity.toNat (entriesOf s fun _ => true).length ∧
        ¬ GrowthOverruns env.malloc defaultCapacity.toNat
          ((entriesOf s fun _ => true).length + known.length) := by
  have hcount : (knownEntries env.halHash known).length = known.length := List.length_map _
  have hagent := createKnownSv_result hl env known h
  rw [← hcount]
  cases hrun : h.createKnownSv env s known with
  | error f =>
      rw [hrun] at hagent
      cases hagent with
      | used hserved hrefused _ =>
          apply iff_of_false (not_nullOrComplete_error _ _)
          rintro (hnot | ⟨hgrowth, -⟩)
          · exact hnot hserved
          · exact hrefused.1 hgrowth
      | overrun hserved hover _ =>
          apply iff_of_false (not_nullOrComplete_error _ _)
          rintro (hnot | ⟨hgrowth, hroom⟩)
          · exact hnot hserved
          · exact hroom (hover hgrowth)
  | ok r =>
      rw [hrun] at hagent
      cases hagent with
      | null hcond _ => exact iff_of_true (nullOrComplete_null _ _) hcond
      | live hgrowth hnot hcell hentries _ =>
          exact iff_of_true (nullOrComplete_live hcell hentries) (Or.inr ⟨hgrowth, hnot⟩)
      | stale hserved hrefused _ =>
          apply iff_of_false (not_nullOrComplete_stale _ (Heap.cells_erase_self _ _))
          rintro (hnot | ⟨hgrowth, -⟩)
          · exact hnot hserved
          · exact hrefused.1 hgrowth

/-- **Summary vectors under memory pressure.**  For every bundle list and every pattern of refused
requests: each builder returns `NULL`, or a live vector with all the entries of the list that it
is for, in order, and no user reads or releases a vector that is released, in exactly these
cases. -/
theorem summary_vectors_alive_iff (hl : IsSeg s.infos BundleInfo.next s.head l none)
    (h : Vectors) :
    (∀ malloc, NullOrComplete ((bundleInfos s.infos l).map BundleInfo.svEntry)
        (h.routerCreateKnownSv malloc s) ↔
      ¬ CreateServed malloc ∨
        GrowthServed malloc defaultCapacity.toNat (bundleInfos s.infos l).length) ∧
    (∀ malloc now eid, NullOrComplete
        (((bundleInfos s.infos l).filter (bundleShouldBeOffered now eid)).map BundleInfo.svEntry)
        (h.createOfferSv malloc s now eid) ↔
      ¬ (CreateServed malloc ∧ GrowthOverruns malloc defaultCapacity.toNat
        ((bundleInfos s.infos l).filter (bundleShouldBeOffered now eid)).length)) ∧
    (∀ env known, NullOrComplete
        ((bundleInfos s.infos l).map BundleInfo.svEntry ++ knownEntries env.halHash known)
        (h.createKnownSv env s known) ↔
      ¬ CreateServed env.malloc ∨
        GrowthServed env.malloc defaultCapacity.toNat (bundleInfos s.infos l).length ∧
        ¬ GrowthOverruns env.malloc defaultCapacity.toNat
          ((bundleInfos s.infos l).length + known.length)) ∧
    (∀ malloc a b va vb, h.cells a = some va → h.cells b = some vb →
      (NullOrComplete (va.entries.filter fun e => !vb.entries.contains e)
        (h.createDiff malloc (some a) (some b)) ↔
      ¬ (CreateServed malloc ∧ (¬ Comparable va.entries vb ∨
        GrowthOverruns malloc defaultCapacity.toNat
          (va.entries.filter fun e => !vb.entries.contains e).length)))) ∧
    (∀ env memory localEid now eid,
      NeverReleased (h.sendOfferSv env memory localEid s now eid) ↔
        ¬ KnownRefused (memory 0) s) ∧
    (∀ env memory localEid known data,
      NeverReleased (h.onOfferMsg env memory localEid s known data) ↔
        ¬ (KnownRefused (memory 2) s ∧ OfferReaches env memory known data)) ∧
    ∀ env last now, NeverReleased (h.routingAgentUpdate env s last now) ↔
      ¬ (last + 1000 < now ∧ KnownRefused env.malloc s) := by
  have hcount : (bundleInfos s.infos l).length = (entriesOf s fun _ => true).length := by
    rw [entriesOf_all hl, List.length_map]
  rw [← entriesOf_all hl, hcount]
  refine ⟨routerCreateKnownSv_iff hl h, ?_, createKnownSv_iff hl h, ?_, ?_, ?_, ?_⟩
  · intro malloc now eid
    have hoffer := createOfferSv_result hl malloc now eid h
    rw [entriesOf_eq hl, List.length_map] at hoffer
    exact hoffer.nullOrComplete_iff
  · intro malloc a b va vb ha hb
    exact (createDiff_result ha hb malloc).nullOrComplete_iff
  · intro env memory localEid now eid
    exact sendOfferSv_iff hl env memory localEid now eid h
  · intro env memory localEid known data
    exact onOfferMsg_iff hl env memory localEid known data h
  · intro env last now
    exact routingAgentUpdate_iff hl env last now h

end Together

/-- With memory for everything, the known vector of two bundles is returned and used. -/
theorem summary_vectors_alive_two :
    NullOrComplete [41, 42] (Vectors.routerCreateKnownSv Heap.empty (fun _ => true) twoBundles) ∧
      NeverReleased (Vectors.routingAgentUpdate Heap.empty demoAgent twoBundles 0 0) := by
  have hl : IsSeg twoBundles.infos BundleInfo.next twoBundles.head [0, 1] none :=
    ⟨rfl, _, rfl, rfl, _, rfl, rfl⟩
  obtain ⟨hbuild, -, -, -, -, -, huse⟩ := summary_vectors_alive_iff hl Heap.empty
  have hgrowth : GrowthServed (fun _ => true) defaultCapacity.toNat
      (bundleInfos twoBundles.infos [0, 1]).length :=
    growthServed_of_le (by decide) (by decide)
  exact ⟨(hbuild fun _ => true).mpr (Or.inr hgrowth),
    (huse demoAgent 0 0).mpr fun hrefused => absurd hrefused.1 (by decide)⟩

/-- A router with nine bundles. -/
def nineBundles : Router :=
  { routerInit demoParams with
    infos := ((List.range 9).reverse).foldl (fun infos a =>
      infos.set a (demoInfo (UInt64.ofNat a) (if a = 8 then none else some (a + 1)))) Heap.empty
    head := some 0
    tail := some 8 }

/-- The memory for the eight entries of a new vector is there, that for sixteen is not. -/
def noDouble (n : Nat) : Bool := n != 128

/-- When the vector of nine bundles cannot grow, it is returned after its release, and used. -/
theorem released_vector_used :
    ¬ NullOrComplete ((entriesOf nineBundles fun _ => true))
        (Vectors.routerCreateKnownSv Heap.empty noDouble nineBundles) ∧
      ¬ NeverReleased (Vectors.sendOfferSv Heap.empty demoAgent (fun _ => noDouble)
        "dtn://a".toList nineBundles 5 "dtn://b".toList) ∧
      ¬ NeverReleased (Vectors.onOfferMsg Heap.empty demoAgent (fun _ => noDouble)
        "dtn://b".toList nineBundles [] ⟨"dtn://a".toList, "dtn://b".toList,
          List.replicate 8 0⟩) ∧
      ¬ NeverReleased (Vectors.routingAgentUpdate Heap.empty
        { demoAgent with malloc := noDouble } nineBundles 0 2000) := by
  have hstale : ∃ h : Vectors, h.cells 0 = none ∧
      Vectors.routerCreateKnownSv Heap.empty noDouble nineBundles = .ok (h, some 0) :=
    ⟨_, rfl, rfl⟩
  obtain ⟨h, hcell, hrun⟩ := hstale
  refine ⟨?_, ?_, ?_, ?_⟩
  · rw [hrun]
    exact not_nullOrComplete_stale _ hcell
  · exact not_not_intro rfl
  · exact not_not_intro rfl
  · exact not_not_intro rfl

end EpidemicRouter
