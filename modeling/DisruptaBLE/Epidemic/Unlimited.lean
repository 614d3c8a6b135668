import DisruptaBLE.Epidemic.Budget

/-!
# Unlimited transmissions

A bundle for epidemic forwarding is admitted with `num_pending_transmissions = -1`, in a
field that is a `uint64_t`.  The comment in `router_update_request_sv` says that values
at or below 0 are not changed, but the largest number of 64 bits is greater than 0, and
every request that leaves the bundle out lowers it by one.

`unlimited_unless_dropped` accounts for this over whole runs: an entry has lost as many
transmissions as requests of a contact left it out after the previous one had it.  So
the marker stays if and only if there is no such request, and no number ever grows.
-/

namespace EpidemicRouter

open PtrHeap

variable {P : RouterParams}

/-! ## Runs of an entry -/

/-- An entry of the bundle list. -/
def Listed (s : Router) (a : Addr) : Prop :=
  ∃ l, IsSeg s.infos BundleInfo.next s.head l none ∧ a ∈ l

/-- Whether an operation is a request that leaves out the entry at `a`, after the previous
request of the contact had it. -/
def drops (P : RouterParams) (s : Router) (a : Addr) : RouterOp → Bool
  | .updateRequestSv eid sv =>
      match s.infos.cells a with
      | some e => dropped P s eid sv e
      | none => false
  | _ => false

/-- A run during which an entry stays in the list, with the number of requests that leave
it out. -/
inductive EntryRun (P : RouterParams) (a : Addr) : Router → Nat → Router → Prop where
  | refl {s : Router} : Listed s a → EntryRun P a s 0 s
  | step {s s' s'' : Router} {k : Nat} {env : Env} {op : RouterOp} {out : List Output} :
      EntryRun P a s k s' → FreshMem s' op → routerStep P s' env op = .ok (s'', out) →
      Listed s'' a → EntryRun P a s (k + (drops P s' a op).toNat) s''

/-! ## One operation -/

section Steps

variable {s s' : Router} {l l' : List Addr} {key key' : Addr → CStr} {a : Addr}
  {e : BundleInfo}

/-- What becomes of an entry that loses `k` transmissions. -/
def Lowered (e e' : BundleInfo) (k : Nat) : Prop :=
  e'.svEntry = e.svEntry ∧
    e'.numPendingTransmissions.toNat = e.numPendingTransmissions.toNat - k

theorem lowered_next (e : BundleInfo) (next : Ptr) : Lowered e { e with next } 0 := ⟨rfl, rfl⟩

/-- **A charge** takes one transmission from an entry that is left out, unless there is
none. -/
theorem lowered_charge (old new : List SvEntry) (e : BundleInfo) :
    Lowered e (e.charge old new) (old.contains e.svEntry && !new.contains e.svEntry).toNat := by
  unfold BundleInfo.charge
  cases hdrop : old.contains e.svEntry && !new.contains e.svEntry with
  | false => exact ⟨rfl, rfl⟩
  | true =>
      by_cases hpos : 0 < e.numPendingTransmissions
      · have hlt : 0 < e.numPendingTransmissions.toNat := UInt64.lt_iff_toNat_lt.mp hpos
        have hone : (1 : UInt64) ≤ e.numPendingTransmissions := UInt64.le_iff_toNat_le.mpr hlt
        rw [Bool.true_and, if_pos (decide_eq_true hpos)]
        exact ⟨rfl, UInt64.toNat_sub_of_le _ _ hone⟩
      · have hzero : ¬ 0 < e.numPendingTransmissions.toNat := fun h =>
          hpos (UInt64.lt_iff_toNat_lt.mpr h)
        rw [Bool.true_and, if_neg (by simpa using hpos)]
        refine ⟨rfl, ?_⟩
        rw [Bool.toNat_true]
        omega

/-- The part of a request that concerns the list. -/
theorem RequestChange.lowered {eid : CStr} {sv : List SvEntry} {p : Ptr}
    (h : RequestChange P s l eid sv s' p) (ha : a ∈ l) (he : s.infos.cells a = some e) :
    ∃ e', s'.infos.cells a = some e' ∧ Lowered e e' (dropped P s eid sv e).toNat := by
  cases h with
  | unknown hlook =>
      have hnot : dropped P s eid sv e = false := by simp [dropped, hlook]
      rw [hnot]
      exact ⟨e, he, rfl, rfl⟩
  | @stored infos c rc p hlook hrc _ hcells =>
      refine ⟨chargedBy rc.requestSv sv e, ?_, ?_⟩
      · change infos.cells a = _
        rw [hcells a, if_pos ha, he, Option.map_some]
      · obtain ⟨_, _, _, _, request⟩ := rc
        unfold dropped
        rw [hlook, Option.bind_some, hrc]
        cases request with
        | none => exact ⟨rfl, rfl⟩
        | some old => exact lowered_charge old sv e

/-- A send changes contacts only. -/
theorem sendBundlesToContact_infos {env : Env} {c : Addr} {out : List Output}
    (h : sendBundlesToContact s env c = .ok (s', out)) :
    s'.infos = s.infos ∧ s'.head = s.head := by
  unfold sendBundlesToContact at h
  obtain ⟨rc, _, h⟩ := bind_eq_ok.mp h
  split at h
  · cases h
    exact ⟨rfl, rfl⟩
  · split at h
    · cases h
      exact ⟨rfl, rfl⟩
    · obtain ⟨candidate, _, h⟩ := bind_eq_ok.mp h
      cases candidate with
      | none =>
          obtain ⟨_, _, h⟩ := bind_eq_ok.mp h
          cases h
          exact ⟨rfl, rfl⟩
      | some b =>
          obtain ⟨f, _, h⟩ := bind_eq_ok.mp h
          split at h
          · obtain ⟨_, _, h⟩ := bind_eq_ok.mp h
            cases h
            exact ⟨rfl, rfl⟩
          · obtain ⟨_, _, h⟩ := bind_eq_ok.mp h
            cases h
            exact ⟨rfl, rfl⟩

theorem sendBundles_infos {env : Env} {cs : List Addr} {out : List Output}
    (h : sendBundles env s cs = .ok (s', out)) : s'.infos = s.infos ∧ s'.head = s.head := by
  induction cs generalizing s out with
  | nil =>
      cases h
      exact ⟨rfl, rfl⟩
  | cons c cs ih =>
      obtain ⟨⟨s₁, out₁⟩, hfirst, h⟩ := bind_eq_ok.mp h
      obtain ⟨⟨s₂, out₂⟩, hrest, h⟩ := bind_eq_ok.mp h
      cases h
      obtain ⟨hinfos, hhead⟩ := ih hrest
      obtain ⟨hinfos₁, hhead₁⟩ := sendBundlesToContact_infos hfirst
      exact ⟨hinfos.trans hinfos₁, hhead.trans hhead₁⟩

/-- Operations other than requests do not change the number of an entry. -/
theorem act_lowered {env : Env} {act : RouterAct} {out : List Output}
    (h : ActChange P s l key env act s' l' key' out) (hact : ∀ eid sv, act ≠ .request eid sv)
    (ha : a ∈ l) (ha' : a ∈ l') (he : s.infos.cells a = some e) :
    ∃ e', s'.infos.cells a = some e' ∧ Lowered e e' 0 := by
  cases h with
  | route _ hroute _ =>
      cases hroute with
      | same => exact ⟨e, he, rfl, rfl⟩
      | appended _ _ _ hkept _ _ _ _ =>
          obtain ⟨next, hnext⟩ := hkept a ha e he
          exact ⟨_, hnext, lowered_next e next⟩
  | expire hexp _ =>
      obtain ⟨next, hnext⟩ := hexp.kept a ha' e he
      exact ⟨_, hnext, lowered_next e next⟩
  | send _ _ hres _ =>
      cases hres with
      | idle _ => exact ⟨e, he, rfl, rfl⟩
      | moved _ _ => exact ⟨e, he, rfl, rfl⟩
      | sent _ _ _ _ _ _ _ _ => exact ⟨e, he, rfl, rfl⟩
  | contactEvent hcontact _ =>
      cases hcontact with
      | same _ => exact ⟨e, he, rfl, rfl⟩
      | added _ _ _ _ _ _ hinf _ _ => exact ⟨e, hinf ▸ he, rfl, rfl⟩
      | removed _ _ _ _ _ hinf _ _ => exact ⟨e, hinf ▸ he, rfl, rfl⟩
  | request _ _ => exact absurd rfl (hact _ _)
  | report hrep _ =>
      cases hrep with
      | ignored _ => exact ⟨e, he, rfl, rfl⟩
      | finished _ _ _ _ _ => exact ⟨e, he, rfl, rfl⟩

/-- The list of a state is the one of its invariant. -/
theorem RouterInv.mem_of_listed (h : RouterInv P s l key) (ha : Listed s a) : a ∈ l := by
  obtain ⟨m, hm, ha⟩ := ha
  rwa [h.list.chain.unique hm]

/-- **One operation** takes a transmission from an entry of the list if it is a request that leaves
the entry out, and none otherwise. -/
theorem step_lowered {env : Env} {op : RouterOp} {out : List Output} (h : RouterInv P s l key)
    (hmem : FreshMem s op) (hstep : routerStep P s env op = .ok (s', out)) (ha : Listed s a)
    (ha' : Listed s' a) (he : s.infos.cells a = some e) :
    ∃ e', s'.infos.cells a = some e' ∧ Lowered e e' (drops P s a op).toNat := by
  have hal := h.mem_of_listed ha
  have hone : ∀ act : RouterAct, act.Enabled s → (∀ eid sv, act ≠ .request eid sv) →
      ∀ s₁ out₁, act.run P s env = .ok (s₁, out₁) → s'.infos = s₁.infos → s'.head = s₁.head →
      ∃ e', s'.infos.cells a = some e' ∧ Lowered e e' 0 := by
    intro act hen hact s₁ out₁ hrun hinfos hhead
    obtain ⟨l₁, key₁, hinv₁, hchange⟩ := act_change h hen hrun
    have ha₁ : Listed s₁ a := by
      unfold Listed at ha' ⊢
      rwa [← hinfos, ← hhead]
    rw [hinfos]
    exact act_lowered hchange hact hal (hinv₁.mem_of_listed ha₁) he
  cases op with
  | routeBundle b mem dup => exact hone (.route b mem dup) hmem (by simp) s' out hstep rfl rfl
  | update =>
      obtain ⟨⟨s₁, out₁⟩, hexpire, hrest⟩ := bind_eq_ok.mp hstep
      obtain ⟨⟨s₂, out₂⟩, hsend, hrest⟩ := bind_eq_ok.mp hrest
      cases hrest
      obtain ⟨hinfos, hhead⟩ := sendBundles_infos hsend
      exact hone .expire trivial (by simp) s₁ out₁ hexpire hinfos hhead
  | contactEvent contact active mem =>
      exact hone (.contactEvent contact active mem) hmem (by simp) s' out hstep rfl rfl
  | updateRequestSv eid sv =>
      obtain ⟨⟨s₁, p⟩, htake, hrest⟩ := bind_eq_ok.mp hstep
      have hrun : (RouterAct.request eid sv).run P s env = .ok (s₁, []) := by
        simp [RouterAct.run, htake, pure, Except.pure]
      obtain ⟨s₂, p₂, htake₂, hchange, -, -, -⟩ :=
        takeRequest_inv h (request_slots h.table hrun) eid sv
      rw [htake] at htake₂
      cases htake₂
      have hinfos : s'.infos = s₁.infos := by
        cases p with
        | none =>
            cases hrest
            rfl
        | some c => exact (sendBundlesToContact_infos hrest).1
      have hdrops : drops P s a (.updateRequestSv eid sv) = dropped P s eid sv e := by
        unfold drops
        rw [he]
      rw [hinfos, hdrops]
      exact hchange.lowered hal he
  | signalTransmission rb success =>
      by_cases hinfo : routingAgentIsInfoBundle rb.destination = true
      · unfold routerStep routerSignalBundleTransmission at hstep
        dsimp only at hstep
        rw [if_pos hinfo] at hstep
        cases hstep
        exact ⟨e, he, rfl, rfl⟩
      · unfold routerStep routerSignalBundleTransmission at hstep
        dsimp only at hstep
        rw [if_neg hinfo] at hstep
        obtain ⟨⟨s₁, p⟩, htake, hrest⟩ := bind_eq_ok.mp hstep
        have hrun : (RouterAct.report rb).run P s env = .ok (s₁, []) := by
          simp [RouterAct.run, htake, pure, Except.pure]
        cases p with
        | none =>
            cases hrest
            exact hone (.report rb) trivial (by simp) _ [] hrun rfl rfl
        | some c =>
            obtain ⟨⟨s₂, out₂⟩, hsend, hrest⟩ := bind_eq_ok.mp hrest
            obtain ⟨out₃, _, hrest⟩ := bind_eq_ok.mp hrest
            cases hrest
            obtain ⟨hinfos, hhead⟩ := sendBundlesToContact_infos hsend
            exact hone (.report rb) trivial (by simp) s₁ [] hrun hinfos hhead

end Steps

/-! ## Whole runs -/

theorem EntryRun.listed {a : Addr} {s s' : Router} {k : Nat} (h : EntryRun P a s k s') :
    Listed s' a := by
  cases h with
  | refl hlisted => exact hlisted
  | step _ _ _ hlisted => exact hlisted

/-- The transmissions of an entry along a run. -/
theorem EntryRun.lowered {a : Addr} {s s' : Router} {k : Nat} (hreach : RouterReachable P s)
    (h : EntryRun P a s k s') {e : BundleInfo} (he : s.infos.cells a = some e) :
    RouterReachable P s' ∧ ∃ e', s'.infos.cells a = some e' ∧ Lowered e e' k := by
  induction h with
  | refl _ => exact ⟨hreach, e, he, rfl, rfl⟩
  | @step s' s'' k env op out hrun hmem hstep hlisted ih =>
      obtain ⟨hreach', e', he', hsv, hnum⟩ := ih
      obtain ⟨l, key, hinv⟩ := reachable_inv hreach'
      obtain ⟨e'', he'', hsv', hnum'⟩ := step_lowered hinv hmem hstep hrun.listed hlisted he'
      refine ⟨.step hreach' hmem hstep, e'', he'', hsv'.trans hsv, ?_⟩
      rw [hnum', hnum, Nat.sub_sub]

/-- **Unlimited bundles.**  In every run, as long as an entry is in the list, its number of pending
transmissions does not grow, and the marker for unlimited transmissions is kept if and only if no
request left the entry out after the previous one of that contact had it. -/
theorem unlimited_unless_dropped {a : Addr} {s s' : Router} {k : Nat}
    (hreach : RouterReachable P s) (hrun : EntryRun P a s k s') {e : BundleInfo}
    (he : s.infos.cells a = some e) :
    ∃ e', s'.infos.cells a = some e' ∧ e'.svEntry = e.svEntry ∧
      e'.numPendingTransmissions ≤ e.numPendingTransmissions ∧
      (e.numPendingTransmissions = -1 → (e'.numPendingTransmissions = -1 ↔ k = 0)) := by
  obtain ⟨-, e', he', hsv, hnum⟩ := hrun.lowered hreach he
  have hmarker : (-1 : UInt64).toNat = 2 ^ 64 - 1 := rfl
  refine ⟨e', he', hsv, ?_, fun hunlimited => ?_⟩
  · rw [UInt64.le_iff_toNat_le, hnum]
    exact Nat.sub_le _ _
  · rw [← UInt64.toNat_inj, hnum, hunlimited, hmarker]
    omega

/-! ## A request cycle -/

/-- A bundle for epidemic forwarding. -/
def epidemicBundle : RouteBundle :=
  ⟨7, "dtn://me/x".toList, "dtn://fake/y".toList, 42, .normal, 100, 50⟩

/-- The router after an operation. -/
def afterOp (s : Router) (op : RouterOp) : Router :=
  match routerStep demoParams s demoEnv op with
  | .ok (s', _) => s'
  | .error _ => s

/-- A contact is there, and the bundle has been admitted. -/
def epidemicAdmitted : Router :=
  afterOp (afterOp (routerInit demoParams) (.contactEvent 0 true (some 0)))
    (.routeBundle epidemicBundle (some 0) true)

/-- The contact has requested it. -/
def epidemicRequested : Router := afterOp epidemicAdmitted (.updateRequestSv "dtn://a".toList [42])

/-- The contact does not request it any more. -/
def epidemicReceived : Router := afterOp epidemicRequested (.updateRequestSv "dtn://a".toList [])

/-- An operation of the demonstration goes through. -/
def GoesThrough (s : Router) (op : RouterOp) : Prop :=
  (routerStep demoParams s demoEnv op).isOk

/-- The state after an operation that goes through. -/
theorem GoesThrough.step {s : Router} {op : RouterOp} (h : GoesThrough s op) :
    ∃ out, routerStep demoParams s demoEnv op = .ok (afterOp s op, out) := by
  unfold GoesThrough at h
  unfold afterOp
  cases hstep : routerStep demoParams s demoEnv op with
  | error err =>
      rw [hstep] at h
      exact absurd h Bool.false_ne_true
  | ok r => exact ⟨r.2, rfl⟩

theorem reachable_afterOp {s : Router} {op : RouterOp} (h : RouterReachable demoParams s)
    (hmem : FreshMem s op) (hok : GoesThrough s op) :
    RouterReachable demoParams (afterOp s op) := by
  obtain ⟨out, hstep⟩ := hok.step
  exact h.step hmem hstep

/-- With a contact, any bundle that the router takes. -/
theorem reachable_admitted {bundle : RouteBundle}
    (h : GoesThrough (afterOp (routerInit demoParams) (.contactEvent 0 true (some 0)))
      (.routeBundle bundle (some 0) true)) :
    RouterReachable demoParams (afterOp (afterOp (routerInit demoParams)
      (.contactEvent 0 true (some 0))) (.routeBundle bundle (some 0) true)) := by
  apply reachable_afterOp
  · apply reachable_afterOp .init
    · intro c _
      rfl
    · exact Eq.refl true
  · intro c hc
    cases hc
    rfl
  · exact h

theorem reachable_epidemicAdmitted : RouterReachable demoParams epidemicAdmitted :=
  reachable_admitted (Eq.refl true)

theorem listed_epidemic {s : Router} (hhead : s.head = some 0)
    (hcell : ∃ e, s.infos.cells 0 = some e ∧ e.next = none) : Listed s 0 := by
  obtain ⟨e, he, hnext⟩ := hcell
  exact ⟨[0], ⟨hhead, e, he, hnext⟩, List.mem_singleton_self 0⟩

/-- The first request. -/
theorem entryRun_requested : EntryRun demoParams 0 epidemicAdmitted 0 epidemicRequested := by
  have hok : GoesThrough epidemicAdmitted (.updateRequestSv "dtn://a".toList [42]) := Eq.refl true
  obtain ⟨out, hstep⟩ := hok.step
  have hfirst : EntryRun demoParams 0 epidemicAdmitted 0 epidemicAdmitted :=
    .refl (listed_epidemic rfl ⟨_, rfl, rfl⟩)
  have hmem : FreshMem epidemicAdmitted (.updateRequestSv "dtn://a".toList [42]) := trivial
  exact hfirst.step hmem hstep (listed_epidemic rfl ⟨_, rfl, rfl⟩)

/-- The bundle stays unlimited when it is requested. -/
theorem unlimited_while_requested : ∃ e', epidemicRequested.infos.cells 0 = some e' ∧
    e'.numPendingTransmissions = -1 := by
  obtain ⟨e', he', -, -, hmarker⟩ :=
    unlimited_unless_dropped reachable_epidemicAdmitted entryRun_requested rfl
  exact ⟨e', he', (hmarker rfl).mpr rfl⟩

/-- The second request leaves it out. -/
theorem entryRun_received : EntryRun demoParams 0 epidemicAdmitted 1 epidemicReceived := by
  have hok : GoesThrough epidemicRequested (.updateRequestSv "dtn://a".toList []) := Eq.refl true
  obtain ⟨out, hstep⟩ := hok.step
  have hdrops :
      drops demoParams epidemicRequested 0 (.updateRequestSv "dtn://a".toList []) = true := rfl
  have hmem : FreshMem epidemicRequested (.updateRequestSv "dtn://a".toList []) := trivial
  have hrun := entryRun_requested.step hmem hstep (listed_epidemic rfl ⟨_, rfl, rfl⟩)
  rwa [hdrops] at hrun

/-- After one request cycle the bundle is not unlimited any more. -/
theorem unlimited_lost : ¬ ∀ (s s' : Router) (a k : Nat) (e e' : BundleInfo),
    RouterReachable demoParams s → EntryRun demoParams a s k s' → s.infos.cells a = some e →
    s'.infos.cells a = some e' → e.numPendingTransmissions = -1 →
    e'.numPendingTransmissions = -1 := by
  intro hall
  have hkept := hall epidemicAdmitted epidemicReceived 0 1 _ _ reachable_epidemicAdmitted
    entryRun_received rfl rfl rfl
  exact absurd hkept (by decide)

end EpidemicRouter
