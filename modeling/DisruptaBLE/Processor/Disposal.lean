import DisruptaBLE.Processor.Runs

/-!
# The disposal of bundles

`single_disposal`: as long as the signals are harmless, no bundle is used after it was
freed, and none is dropped with retention constraints.  `hop_count_validation` deletes a
bundle, and `bundle_forward` then reads its id and deletes it again.

The model bounds how deep deletions nest; `bundleDeleteAt_eq` says that the bound is no
restriction, since the deletion of a record sends no report.
-/

namespace BundleProcessor

open PtrHeap BundleStorage Outcome

/-! ## Nested deletions -/

section Nesting

variable {P : Params} {env : Env} {s : Processor} {a : Addr} {b : Bundle} {del del' : Deletion}

/-- Two ways to delete a bundle agree on the bundles whose deletion is not reported. -/
def AgreeOnQuiet (del del' : Deletion) : Prop :=
  ∀ s a b reason, s.bundles.cells a = some b → b.ret.custodyAccepted = false →
    hasFlag b.procFlags flagReportDeletion = false → del s a reason = del' s a reason

/-- The first level of a deletion does not look at the next one without a report. -/
theorem agreeOnQuiet_bundleDeleteAt (P : Params) (env : Env) (m n : Nat) :
    AgreeOnQuiet (bundleDeleteAt P env (m + 1)) (bundleDeleteAt P env (n + 1)) := by
  intro s a b reason hb hcust hflag
  have hquiet : ∀ (s : Processor) f, s.when false f = .ok s := fun _ _ => rfl
  unfold bundleDeleteAt
  rw [bundle_of_cell hb, ok_bind, ok_bind, hcust, hflag]
  simp only [Bool.or_false, hquiet]

/-- A record is sent in the same way, whichever way it is deleted. -/
theorem emitRecordWith_congr (h : AgreeOnQuiet del del') {r : Addr} {rb : Bundle}
    (hrb : s.bundles.cells r = some rb) (hrec : IsRecord rb) (timeout : Nat) :
    emitRecordWith del P env s a r timeout = emitRecordWith del' P env s a r timeout := by
  unfold emitRecordWith
  rw [update_of_cell hrb, ok_bind, ok_bind]
  apply bind_congr_ok
  intro ⟨id, s₁⟩ hadd
  have hcell := cell_of_storageAdd (put_self _ _ _) hadd
  -- the record has no hop count block, so it is only deleted if it cannot be queued
  have hforward : bundleForwardWith del P env s₁ r timeout =
      bundleForwardWith del' P env s₁ r timeout := by
    unfold bundleForwardWith
    rw [hopCountValidationWith_none P env del hcell hrec.hopless,
      hopCountValidationWith_none P env del' hcell hrec.hopless, ok_bind, ok_bind]
    simp only [Bool.not_true, Bool.false_eq_true, if_false]
    rw [update_of_cell hcell, ok_bind, ok_bind, update_of_cell (put_self _ _ _), ok_bind,
      ok_bind, bundle_of_cell (put_self _ _ _), ok_bind, ok_bind]
    rcases sendBundle_cases env _ _ timeout with ⟨n, hsend⟩ | ⟨_, n, hsend⟩
    · rw [hsend]
      rfl
    · rw [hsend]
      exact congrArg (· >>= fun s => pure (false, s))
        (h _ r _ .depletedStorage (put_self _ _ _) hrec.custody hrec.unreported)
  dsimp only
  rw [hforward]

theorem sendStatusReportWith_congr (h : AgreeOnQuiet del del') (status : ReportStatus)
    (reason : ReportReason) :
    sendStatusReportWith del P env s a status reason =
      sendStatusReportWith del' P env s a status reason := by
  unfold sendStatusReportWith
  split
  · rfl
  apply bind_congr_ok
  intro b _
  split
  · rfl
  apply bind_congr_ok
  intro ⟨r, s₁⟩ hgen
  cases r with
  | none => rfl
  | some r =>
      have hspec : Ends (Tolerated False) (generateStatusReport P env s b status reason)
          (Generated s) := generateStatusReport_spec status reason
      obtain ⟨n, heq | ⟨x, rb, hrec, _, hr, hs₁⟩⟩ := hspec.of_ok hgen
      · cases heq
      · obtain rfl : r = x := by simpa using hr
        obtain rfl : s₁ = _ := hs₁
        have hcell : ({ s with requests := n }.put r rb).bundles.cells r = some rb :=
          put_self _ _ _
        exact emitRecordWith_congr h
          (show ({ { s with requests := n }.put r rb with
            reports := s.reports ++ [⟨a, b, status, reason⟩] } : Processor).bundles.cells r =
              some rb from hcell) hrec _

/-- **Two levels of deletions are enough.** -/
theorem bundleDeleteAt_eq (P : Params) (env : Env) (depth : Nat) :
    bundleDeleteAt P env (depth + 2) = bundleDelete P env := by
  funext s a reason
  unfold bundleDelete
  rw [bundleDeleteAt, bundleDeleteAt]
  have hreport : ∀ s, sendStatusReportWith (bundleDeleteAt P env (depth + 1)) P env s a
      .deleted reason = sendStatusReportWith (bundleDeleteAt P env 1) P env s a
      .deleted reason :=
    fun s => sendStatusReportWith_congr (agreeOnQuiet_bundleDeleteAt P env depth 0) _ _
  simp only [hreport]

end Nesting

/-! ## Single disposal -/

/-- **Single disposal.**  In every run of harmless signals, the handling of another one
uses no bundle after it was freed, and drops none that has retention constraints. -/
theorem single_disposal (P : Params) (env : Env) (s : Processor) (sig : Signal)
    (h : Reachable P (Harmless P) s) (hsig : Harmless P env s sig) :
    handleSignal P env s sig ≠ .error .stale ∧ handleSignal P env s sig ≠ .error .retained := by
  have htol : ∀ f, handleSignal P env s sig = .error f → f ≠ .stale ∧ f ≠ .retained :=
    fun f hf => h.tolerated (fun _ _ _ hharm => hharm) hsig hf
  exact ⟨fun hf => (htol _ hf).1 rfl, fun hf => (htol _ hf).2 rfl⟩

/-- A bundle that was forwarded has been sent. -/
theorem single_disposal_forwarded :
    ∃ s, Reachable smallNode (Harmless smallNode) s ∧ s.outQueue = [1] ∧
      handleSignal smallNode calm s (.bundle 1 .transmissionSuccess) ≠ .error .stale ∧
      handleSignal smallNode calm s (.bundle 1 .transmissionSuccess) ≠ .error .retained := by
  have h₁ := reachable_holding (Harmless smallNode) (b := note "dtn://x/a" []) rfl
  have h₂ := reachable_handling h₁ (.bundle 1 .incoming) (by
    intro type a b habout
    obtain ⟨rfl, rfl, rfl⟩ := about_eq (a := 0) rfl rfl habout
    exact ⟨by decide +kernel, trivial⟩) rfl
  exact ⟨_, h₂, rfl, single_disposal smallNode calm _ _ h₂ (by
    intro type a b habout
    obtain ⟨rfl, rfl, rfl⟩ := about_eq (a := 0) rfl rfl habout
    exact trivial)⟩

/-- A hop count block whose limit is reached. -/
def exhaustedHopCount : Block := ⟨⟨2, 0, ⟨[1, 1], by decide⟩, [], .none⟩, blockTypeHopCount⟩

/-- A bundle that must not be forwarded any more is used after it was freed. -/
theorem use_after_hop_limit :
    ¬ ∀ (P : Params) (env : Env) (s : Processor) (sig : Signal),
      Reachable P (fun _ _ _ => True) s →
      handleSignal P env s sig ≠ .error .stale ∧ handleSignal P env s sig ≠ .error .retained := by
  intro hall
  have h := reachable_holding (fun _ _ _ => True) (b := note "dtn://x/a" [exhaustedHopCount]) rfl
  exact (hall smallNode calm _ (.bundle 1 .incoming) h).1 rfl

end BundleProcessor
