import DisruptaBLE.Epidemic.RouterRuns

/-!
# Transmissions in flight

The router together with the routed bundles that it scheduled for its contacts
and that have not come back as a report.

A report carries an EID and a bundle id of 16 bits and nothing else, so it is
matched with what the contact of this EID is sending now.  `one_in_flight` says
that this is sound: as long as EIDs are stable and a contact does not come back
before its last transmission was reported, a contact is sending a bundle exactly
if one routed bundle for it is unreported, and it is that bundle.
-/

namespace EpidemicRouter

open PtrHeap

variable {P : RouterParams}

/-- The router, the EIDs of the contacts, and the unreported routed bundles for
contacts. -/
structure Net where
  router : Router
  eidOf : ContactRef → CStr
  unreported : List RoutedBundle

/-- The unreported routed bundles for an EID. -/
def unreportedFor (u : List RoutedBundle) (eid : CStr) : List RoutedBundle :=
  u.filter (·.destination = eid)

/-- The routed bundles for contacts that an operation schedules. -/
def routedOf (out : List Output) : List RoutedBundle := (scheduledOf out).map Prod.snd

/-- The discipline of a contact event: if it adds a router contact, the EID of the
contact has no sink prefix and nothing is in flight for it. -/
def CleanAdd (s s' : Router) (eid : CStr) (u : List RoutedBundle) : Prop :=
  s.routerContacts.length < s'.routerContacts.length →
    routingAgentIsInfoBundle eid = false ∧ unreportedFor u eid = []

/-- One step of router and environment: the EID of a contact that is not a router
contact changes, or an operation takes place, or an unreported bundle is
reported. -/
inductive NetStep (P : RouterParams) : Net → Net → Prop where
  | rename {s : Router} {eidOf eidOf' : ContactRef → CStr} {u : List RoutedBundle} :
      (∀ c ∈ s.routerContacts, ∀ rc, s.contacts.cells c = some rc →
        eidOf' rc.contact = eidOf rc.contact) →
      NetStep P ⟨s, eidOf, u⟩ ⟨s, eidOf', u⟩
  | op {s s' : Router} {env : Env} {op : RouterOp} {out : List Output} {u : List RoutedBundle} :
      FreshMem s op →
      (∀ contact active mem, op = .contactEvent contact active mem →
        CleanAdd s s' (env.eid contact) u) →
      (∀ rb success, op = .signalTransmission rb success →
        routingAgentIsInfoBundle rb.destination = true) →
      routerStep P s env op = .ok (s', out) →
      NetStep P ⟨s, env.eid, u⟩ ⟨s', env.eid, u ++ routedOf out⟩
  | report {s s' : Router} {env : Env} {rb : RoutedBundle} {success : Bool} {out : List Output}
      {u : List RoutedBundle} : rb ∈ u →
      routerStep P s env (.signalTransmission rb success) = .ok (s', out) →
      NetStep P ⟨s, env.eid, u⟩ ⟨s', env.eid, u.erase rb ++ routedOf out⟩

/-- The runs from `router_init`. -/
inductive NetReachable (P : RouterParams) : Net → Prop where
  | init {eidOf : ContactRef → CStr} : NetReachable P ⟨routerInit P, eidOf, []⟩
  | step {n n' : Net} : NetReachable P n → NetStep P n n' → NetReachable P n'

/-- What is in flight to a contact with this `current_bundle`. -/
def InFlight (infos : Heap BundleInfo) (cur : Ptr) (rbs : List RoutedBundle) : Prop :=
  match cur with
  | none => rbs = []
  | some a => ∃ e rb, infos.cells a = some e ∧ rbs = [rb] ∧ rb.id = e.id

/-- The invariant. -/
structure FlightInv (P : RouterParams) (s : Router) (eidOf : ContactRef → CStr)
    (u : List RoutedBundle) (l : List Addr) (key : Addr → CStr) : Prop where
  router : RouterInv P s l key
  plain : ∀ rb ∈ u, routingAgentIsInfoBundle rb.destination = false
  keys : ∀ c ∈ s.routerContacts, ∀ rc, s.contacts.cells c = some rc →
    key c = eidOf rc.contact ∧ routingAgentIsInfoBundle (key c) = false
  flight : ∀ c ∈ s.routerContacts, ∀ rc, s.contacts.cells c = some rc →
    InFlight s.infos rc.currentBundle (unreportedFor u (key c))

/-- Changes that keep what the contacts are sending. -/
theorem FlightInv.frame {s s' : Router} {eidOf : ContactRef → CStr} {u : List RoutedBundle}
    {l l' : List Addr} {key : Addr → CStr} (h : FlightInv P s eidOf u l key)
    (hinv : RouterInv P s' l' key) (harr : ∀ c ∈ s'.routerContacts, c ∈ s.routerContacts)
    (hcont : ∀ c ∈ s'.routerContacts, ∀ rc, s.contacts.cells c = some rc →
      ∃ rc', s'.contacts.cells c = some rc' ∧ rc'.contact = rc.contact ∧
        rc'.currentBundle = rc.currentBundle)
    (hids : ∀ a ∈ l', ∀ e, s.infos.cells a = some e →
      ∃ e', s'.infos.cells a = some e' ∧ e'.id = e.id) : FlightInv P s' eidOf u l' key := by
  have hback : ∀ c ∈ s'.routerContacts, ∀ rc', s'.contacts.cells c = some rc' →
      ∃ rc, s.contacts.cells c = some rc ∧ rc'.contact = rc.contact ∧
        rc'.currentBundle = rc.currentBundle := by
    intro c hc rc' hrc'
    obtain ⟨rc, hrc⟩ := h.router.table.live c (harr c hc)
    obtain ⟨rc'', hrc'', hcontact, hcur⟩ := hcont c hc rc hrc
    obtain rfl : rc'' = rc' := Option.some.inj (hrc''.symm.trans hrc')
    exact ⟨rc, hrc, hcontact, hcur⟩
  refine ⟨hinv, h.plain, ?_, ?_⟩
  · intro c hc rc' hrc'
    obtain ⟨rc, hrc, hcontact, _⟩ := hback c hc rc' hrc'
    rw [hcontact]
    exact h.keys c (harr c hc) rc hrc
  · intro c hc rc' hrc'
    obtain ⟨rc, hrc, _, hcur⟩ := hback c hc rc' hrc'
    have hflight := h.flight c (harr c hc) rc hrc
    rw [← hcur] at hflight
    obtain ⟨rx, hrx, hrefs, _⟩ := hinv.cursors c hc
    obtain rfl : rx = rc' := Option.some.inj (hrx.symm.trans hrc')
    cases hcb : rx.currentBundle with
    | none =>
        rw [hcb] at hflight
        exact hflight
    | some a =>
        rw [hcb] at hflight
        obtain ⟨e, rb, he, hrbs, hid⟩ := hflight
        obtain ⟨e', he', hid'⟩ := hids a (hrefs a hcb) e he
        exact ⟨e', rb, he', hrbs, hid.trans hid'.symm⟩

/-- A change of a router contact that keeps what it is sending. -/
theorem setContact_sending {s : Router} {c : Addr} {rc rc' : RouterContact}
    (hrc : s.contacts.cells c = some rc) (hcontact : rc'.contact = rc.contact)
    (hcur : rc'.currentBundle = rc.currentBundle) (x : Addr) (rx : RouterContact)
    (hrx : s.contacts.cells x = some rx) :
    ∃ rx', (s.setContact c rc').contacts.cells x = some rx' ∧ rx'.contact = rx.contact ∧
      rx'.currentBundle = rx.currentBundle := by
  by_cases hxc : x = c
  · subst hxc
    obtain rfl : rc = rx := Option.some.inj (hrc.symm.trans hrx)
    exact ⟨rc', by simp [Router.setContact], hcontact, hcur⟩
  · exact ⟨rx, by simp [Router.setContact, hxc, hrx], rfl, rfl⟩

@[simp] theorem unreportedFor_append (u v : List RoutedBundle) (eid : CStr) :
    unreportedFor (u ++ v) eid = unreportedFor u eid ++ unreportedFor v eid := by
  simp [unreportedFor]

theorem mem_unreportedFor {u : List RoutedBundle} {eid : CStr} {rb : RoutedBundle} :
    rb ∈ unreportedFor u eid ↔ rb ∈ u ∧ rb.destination = eid := by
  simp [unreportedFor]

theorem unreportedFor_erase (u : List RoutedBundle) (eid : CStr) (rb : RoutedBundle) :
    unreportedFor (u.erase rb) eid = (unreportedFor u eid).erase rb :=
  List.erase_filter.symm

/-- A report concerns the EID of its routed bundle only. -/
theorem unreportedFor_erase_other {u : List RoutedBundle} {eid : CStr} {rb : RoutedBundle}
    (h : rb.destination ≠ eid) : unreportedFor (u.erase rb) eid = unreportedFor u eid := by
  rw [unreportedFor_erase, List.erase_of_not_mem]
  intro hmem
  exact h (mem_unreportedFor.mp hmem).2

/-! ## The acts -/

/-- A bundle is scheduled for an idle contact. -/
theorem FlightInv.sent {s : Router} {eidOf : ContactRef → CStr} {u : List RoutedBundle}
    {l : List Addr} {key : Addr → CStr} {c a : Addr} {rc : RouterContact} {e : BundleInfo}
    (h : FlightInv P s eidOf u l key) (hc : c ∈ s.routerContacts)
    (hrc : s.contacts.cells c = some rc) (hidle : rc.currentBundle = none)
    (he : s.infos.cells a = some e)
    (hinv : RouterInv P (s.setContact c
      { rc with currentBundle := some a, nextBundleCandidate := e.next }) l key) :
    FlightInv P (s.setContact c { rc with currentBundle := some a, nextBundleCandidate := e.next })
      eidOf (u ++ [routedBundle (eidOf rc.contact) e]) l key := by
  obtain ⟨hkey, hplain⟩ := h.keys c hc rc hrc
  refine ⟨hinv, ?_, ?_, ?_⟩
  · intro rb hrb
    rcases List.mem_append.mp hrb with hrb | hrb
    · exact h.plain rb hrb
    · obtain rfl := List.mem_singleton.mp hrb
      change routingAgentIsInfoBundle (eidOf rc.contact) = false
      rw [← hkey]
      exact hplain
  · intro x hx rx hrx
    by_cases hxc : x = c
    · subst hxc
      obtain rfl : _ = rx := by simpa [Router.setContact] using hrx
      exact ⟨hkey, hplain⟩
    · exact h.keys x hx rx (by simpa [Router.setContact, hxc] using hrx)
  · intro x hx rx hrx
    rw [unreportedFor_append]
    by_cases hxc : x = c
    · subst hxc
      obtain rfl : _ = rx := by simpa [Router.setContact] using hrx
      have hnone := h.flight x hx rc hrc
      rw [hidle] at hnone
      refine ⟨e, routedBundle (eidOf rc.contact) e, he, ?_, rfl⟩
      rw [show unreportedFor u (key x) = [] from hnone]
      simp [unreportedFor, routedBundle, hkey]
    · have hne : eidOf rc.contact ≠ key x := by
        intro heq
        exact hxc (h.router.table.key_inj hx hc (heq.symm.trans hkey.symm))
      have hflight := h.flight x hx rx (by simpa [Router.setContact, hxc] using hrx)
      simpa [unreportedFor, routedBundle, hne, Router.setContact] using hflight

/-- A router contact is added under an EID for which nothing is in flight. -/
theorem FlightInv.added {s s' : Router} {env : Env} {u : List RoutedBundle}
    {l : List Addr} {key : Addr → CStr} {c : Addr} {contact : ContactRef}
    (h : FlightInv P s env.eid u l key) (hfree : s.contacts.cells c = none)
    (harr : s'.routerContacts = s.routerContacts ++ [c])
    (hcont : s'.contacts = s.contacts.set c ⟨contact, s.routerContacts.length, none, none, none⟩)
    (hinfos : s'.infos = s.infos)
    (hinv : RouterInv P s' l (Function.update key c (env.eid contact)))
    (hplain : routingAgentIsInfoBundle (env.eid contact) = false)
    (hquiet : unreportedFor u (env.eid contact) = []) :
    FlightInv P s' env.eid u l (Function.update key c (env.eid contact)) := by
  have hold : ∀ x ∈ s'.routerContacts, x ≠ c → x ∈ s.routerContacts := by
    intro x hx hxc
    rw [harr] at hx
    simpa [hxc] using hx
  refine ⟨hinv, h.plain, ?_, ?_⟩
  · intro x hx rx hrx
    rw [hcont] at hrx
    by_cases hxc : x = c
    · subst hxc
      obtain rfl : _ = rx := by simpa using hrx
      rw [Function.update_self]
      exact ⟨rfl, hplain⟩
    · rw [Function.update_of_ne hxc]
      exact h.keys x (hold x hx hxc) rx (by simpa [hxc] using hrx)
  · intro x hx rx hrx
    rw [hcont] at hrx
    rw [hinfos]
    by_cases hxc : x = c
    · subst hxc
      obtain rfl : _ = rx := by simpa using hrx
      rw [Function.update_self]
      exact hquiet
    · rw [Function.update_of_ne hxc]
      exact h.flight x (hold x hx hxc) rx (by simpa [hxc] using hrx)

/-- **A report** ends exactly the transmission that it reports, if the contact is
still there. -/
theorem FlightInv.reported {s s' : Router} {eidOf : ContactRef → CStr} {u : List RoutedBundle}
    {l : List Addr} {key : Addr → CStr} {rb : RoutedBundle} {p : Ptr}
    (h : FlightInv P s eidOf u l key) (hrb : rb ∈ u) (hinv : RouterInv P s' l key)
    (hchange : ReportChange P s rb s' p) : FlightInv P s' eidOf (u.erase rb) l key := by
  have hplain : ∀ x ∈ u.erase rb, routingAgentIsInfoBundle x.destination = false :=
    fun x hx => h.plain x (List.mem_of_mem_erase hx)
  -- What is in flight to the contact of the report is the reported bundle.
  have hself : ∀ c ∈ s.routerContacts, ∀ rc, s.contacts.cells c = some rc →
      key c = rb.destination → ∃ a e, rc.currentBundle = some a ∧ s.infos.cells a = some e ∧
        unreportedFor u (key c) = [rb] ∧ rb.id = e.id := by
    intro c hc rc hrc hkey
    have hmem : rb ∈ unreportedFor u (key c) := mem_unreportedFor.mpr ⟨hrb, hkey.symm⟩
    have hflight := h.flight c hc rc hrc
    cases hcur : rc.currentBundle with
    | none =>
        rw [hcur] at hflight
        rw [show unreportedFor u (key c) = [] from hflight] at hmem
        cases hmem
    | some a =>
        rw [hcur] at hflight
        obtain ⟨e, rb', he, hrbs, hid⟩ := hflight
        rw [hrbs] at hmem
        obtain rfl := List.mem_singleton.mp hmem
        exact ⟨a, e, rfl, he, hrbs, hid⟩
  cases hchange with
  | ignored hno =>
      refine ⟨h.router, hplain, h.keys, ?_⟩
      intro c hc rc hrc
      have hne : rb.destination ≠ key c := by
        intro hkey
        obtain ⟨a, e, hcur, he, _, hid⟩ := hself c hc rc hrc hkey.symm
        have hlook := (h.router.table.lookup rb.destination c).mpr ⟨hc, hkey.symm⟩
        exact hno c rc a e hlook hrc hcur he hid.symm
      rw [unreportedFor_erase_other hne]
      exact h.flight c hc rc hrc
  | @finished c rc a e hlook hrc hcur he hid =>
      obtain ⟨hc, hkey⟩ := (h.router.table.lookup rb.destination c).mp hlook
      refine ⟨hinv, hplain, ?_, ?_⟩
      · intro x hx rx hrx
        by_cases hxc : x = c
        · subst hxc
          obtain rfl : _ = rx := by simpa [Router.setContact] using hrx
          exact h.keys x hx rc hrc
        · exact h.keys x hx rx (by simpa [Router.setContact, hxc] using hrx)
      · intro x hx rx hrx
        by_cases hxc : x = c
        · subst hxc
          obtain rfl : _ = rx := by simpa [Router.setContact] using hrx
          obtain ⟨_, _, _, _, hrbs, _⟩ := hself x hx rc hrc hkey
          change unreportedFor (u.erase rb) (key x) = []
          rw [unreportedFor_erase, hrbs, List.erase_cons_head]
        · have hne : rb.destination ≠ key x := by
            intro heq
            exact hxc (h.router.table.key_inj hx hc (heq.symm.trans hkey.symm))
          rw [unreportedFor_erase_other hne]
          exact h.flight x hx rx (by simpa [Router.setContact, hxc] using hrx)

/-- The bundles that an act leaves unreported. -/
def leftUnreported (u : List RoutedBundle) : RouterAct → List RoutedBundle
  | .report rb => u.erase rb
  | _ => u

/-- **One act** keeps the invariant. -/
theorem flight_act {s s' : Router} {env : Env} {u : List RoutedBundle} {l : List Addr}
    {key : Addr → CStr} {act : RouterAct} {out : List Output} (h : FlightInv P s env.eid u l key)
    (hen : act.Enabled s) (hrun : act.run P s env = .ok (s', out))
    (hreport : ∀ rb, act = .report rb → rb ∈ u)
    (hadd : ∀ contact active mem, act = .contactEvent contact active mem →
      CleanAdd s s' (env.eid contact) u) :
    ∃ l' key', FlightInv P s' env.eid (leftUnreported u act ++ routedOf out) l' key' := by
  obtain ⟨l', key', hinv, hchange⟩ := act_change h.router hen hrun
  refine ⟨l', key', ?_⟩
  cases hchange with
  | route _ hroute hout =>
      simp only [leftUnreported, routedOf, hout, List.map_nil, List.append_nil]
      cases hroute with
      | same => exact h
      | appended _ hfree _ hkept hcont harr _ _ =>
          refine h.frame hinv (fun c hc => harr ▸ hc) ?_ ?_
          · intro c _ rc hrc
            exact ⟨rc, hcont ▸ hrc, rfl, rfl⟩
          · intro a ha e he
            rcases List.mem_append.mp ha with ha | ha
            · obtain ⟨n, hn⟩ := hkept a ha e he
              exact ⟨_, hn, rfl⟩
            · obtain rfl := List.mem_singleton.mp ha
              rw [hfree] at he
              cases he
  | expire hexp hout =>
      simp only [leftUnreported, routedOf, hout, List.map_nil, List.append_nil]
      refine h.frame hinv (fun c hc => hexp.arr ▸ hc) ?_ ?_
      · intro c _ rc hrc
        obtain ⟨p, hp⟩ := hexp.contacts c rc hrc
        exact ⟨_, hp, rfl, rfl⟩
      · intro a ha e he
        obtain ⟨n, hn⟩ := hexp.kept a ha e he
        exact ⟨_, hn, rfl⟩
  | @send c rc _ _ hc hrc hres harr =>
      cases hres with
      | idle _ => simpa [leftUnreported, routedOf] using h
      | moved _ _ =>
          simp only [leftUnreported, routedOf, scheduledOf_nil, List.map_nil, List.append_nil]
          refine h.frame hinv (fun x hx => harr ▸ hx) ?_ fun a _ e he => ⟨e, he, rfl⟩
          intro x _ rx hrx
          apply setContact_sending hrc _ _ x rx hrx
          · rfl
          · rfl
      | sent _ hidle _ he _ _ _ _ => exact h.sent hc hrc hidle he hinv
  | @contactEvent contact active mem _ _ _ hcontact hout =>
      simp only [leftUnreported, routedOf, hout, List.map_nil, List.append_nil]
      cases hcontact with
      | same _ => exact h
      | added _ _ _ hfree harr hcont hinf _ _ =>
          have hgrow : s.routerContacts.length < s'.routerContacts.length := by
            rw [harr, List.length_append, List.length_singleton]
            exact Nat.lt_succ_self _
          obtain ⟨hplain, hquiet⟩ := hadd contact active mem rfl hgrow
          exact h.added hfree harr hcont hinf hinv hplain hquiet
      | removed _ _ _ hmem hcont hinf _ _ =>
          refine h.frame hinv (fun x hx => ((hmem x).mp hx).1) ?_ ?_
          · intro x hx rx hrx
            obtain ⟨i, hi⟩ := hcont x ((hmem x).mp hx).2 rx hrx
            exact ⟨_, hi, rfl, rfl⟩
          · intro a _ e he
            exact ⟨e, hinf ▸ he, rfl⟩
  | request hreq harr =>
      simp only [leftUnreported, routedOf, scheduledOf_nil, List.map_nil, List.append_nil]
      cases hreq with
      | unknown _ => exact h
      | @stored infos c rc p _ hrc _ hcells =>
          refine h.frame hinv (fun x hx => hx) ?_ ?_
          · intro x _ rx hrx
            apply @setContact_sending { s with infos } c rc _ hrc _ _ x rx hrx
            · rfl
            · rfl
          · intro a ha e he
            obtain ⟨n, hn⟩ := chargedBy_eq rc.requestSv _ e
            refine ⟨{ e with numPendingTransmissions := n }, ?_, rfl⟩
            change infos.cells a = _
            rw [hcells a, if_pos ha, he, Option.map_some, hn]
  | @report rb _ _ hrep _ =>
      simp only [leftUnreported, routedOf, scheduledOf_nil, List.map_nil, List.append_nil]
      exact h.reported (hreport rb rfl) hinv hrep

/-! ## The operations -/

/-- The sends of an operation. -/
theorem flight_sends {s s' : Router} {env : Env} {tr : List (Env × RouterAct × List Output)}
    (hacts : ActRun P s tr s') (hsends : ∀ x ∈ tr, ∃ c out, x = (env, .send c, out)) :
    ∀ {u : List RoutedBundle} {l : List Addr} {key : Addr → CStr},
      FlightInv P s env.eid u l key →
      ∃ l' key', FlightInv P s' env.eid (u ++ tr.flatMap fun x => routedOf x.2.2) l' key' := by
  induction hacts with
  | nil =>
      intro u l key h
      exact ⟨l, key, by simpa using h⟩
  | @cons s s₁ s₂ env₁ act out tr hen hrun _ ih =>
      intro u l key h
      obtain ⟨c, out', hx⟩ := hsends _ List.mem_cons_self
      cases hx
      obtain ⟨l₁, key₁, h₁⟩ := flight_act h hen hrun (by simp) (by simp)
      obtain ⟨l₂, key₂, h₂⟩ := ih (fun x hx => hsends x (List.mem_cons_of_mem _ hx)) h₁
      refine ⟨l₂, key₂, ?_⟩
      simpa [leftUnreported, List.flatMap_cons] using h₂

/-- An act followed by sends. -/
theorem flight_act_sends {s s' : Router} {env : Env} {u : List RoutedBundle} {l : List Addr}
    {key : Addr → CStr} {act : RouterAct} {out : List Output}
    {tr : List (Env × RouterAct × List Output)} (h : FlightInv P s env.eid u l key)
    (hacts : ActRun P s ((env, act, out) :: tr) s')
    (hsends : ∀ x ∈ tr, ∃ c out, x = (env, .send c, out))
    (hreport : ∀ rb, act = .report rb → rb ∈ u)
    (hadd : ∀ contact active mem t, act = .contactEvent contact active mem →
      act.run P s env = .ok (t, out) → CleanAdd s t (env.eid contact) u) :
    ∃ l' key', FlightInv P s' env.eid
      (leftUnreported u act ++ ((env, act, out) :: tr).flatMap fun x => routedOf x.2.2)
      l' key' := by
  cases hacts with
  | cons hen hrun hrest =>
      obtain ⟨l₁, key₁, h₁⟩ := flight_act h hen hrun hreport
        fun contact active mem hact => hadd contact active mem _ hact hrun
      rw [List.flatMap_cons, ← List.append_assoc]
      exact flight_sends hrest hsends h₁

/-- What an operation schedules, in terms of its acts. -/
theorem routedOf_acts {out : List Output} {tr : List (Env × RouterAct × List Output)}
    (h : scheduledOf out = tr.flatMap fun x => scheduledOf x.2.2) :
    routedOf out = tr.flatMap fun x => routedOf x.2.2 := by
  unfold routedOf
  rw [h, List.map_flatMap]

/-- **One step** of router and environment keeps the invariant. -/
theorem netStep_inv {n n' : Net} {l : List Addr} {key : Addr → CStr}
    (hslots : P.btMaxConn - 1 ≠ 0) (h : FlightInv P n.router n.eidOf n.unreported l key)
    (hstep : NetStep P n n') :
    ∃ l' key', FlightInv P n'.router n'.eidOf n'.unreported l' key' := by
  cases hstep with
  | rename hsame =>
      refine ⟨l, key, h.router, h.plain, ?_, h.flight⟩
      intro c hc rc hrc
      obtain ⟨hkey, hplain⟩ := h.keys c hc rc hrc
      exact ⟨hkey.trans (hsame c hc rc hrc).symm, hplain⟩
  | @op s s' env op out u hmem hclean hinfo hrun =>
      obtain ⟨s₁, out₁, tr, _, _, hrun₁, hacts, hop, _, _, hsched⟩ :=
        routerStep_acts h.router hslots env hmem
      rw [hrun] at hrun₁
      cases hrun₁
      simp only [routedOf_acts hsched]
      cases hop with
      | route => exact flight_act_sends h hacts (by simp) (by simp) (by simp)
      | update hsends => exact flight_act_sends h hacts hsends (by simp) (by simp)
      | @contactEvent contact active mem _ =>
          refine flight_act_sends h hacts (by simp) (by simp) ?_
          intro contact' active' mem' t hact ht
          cases hact
          have hsame : routerHandleContactEvent P s env contact active mem = .ok (s', out) := hrun
          rw [RouterAct.run, hsame] at ht
          cases ht
          exact hclean contact active mem rfl
      | request hsends => exact flight_act_sends h hacts hsends (by simp) (by simp)
      | reportInfo _ =>
          cases hacts
          exact ⟨l, key, by simpa using h⟩
      | report hplain _ =>
          rw [hinfo _ _ rfl] at hplain
          cases hplain
  | @report s s' env rb success out u hrb hrun =>
      have hmem : FreshMem s (.signalTransmission rb success) := trivial
      obtain ⟨s₁, out₁, tr, _, _, hrun₁, hacts, hop, _, _, hsched⟩ :=
        routerStep_acts h.router hslots env hmem
      rw [hrun] at hrun₁
      cases hrun₁
      simp only [routedOf_acts hsched]
      cases hop with
      | reportInfo hinfo =>
          rw [h.plain rb hrb] at hinfo
          cases hinfo
      | report _ hsends =>
          obtain ⟨l', key', h'⟩ := flight_act_sends h hacts hsends
            (by intro rb' heq; cases heq; exact hrb) (by simp)
          exact ⟨l', key', h'⟩

theorem netReachable_router {n : Net} (h : NetReachable P n) : RouterReachable P n.router := by
  induction h with
  | init => exact .init
  | step _ hstep ih =>
      cases hstep with
      | rename _ => exact ih
      | op hmem _ _ hrun => exact .step ih hmem hrun
      | report _ hrun => exact .step ih (by trivial) hrun

theorem netReachable_inv {n : Net} (hslots : P.btMaxConn - 1 ≠ 0) (h : NetReachable P n) :
    ∃ l key, FlightInv P n.router n.eidOf n.unreported l key := by
  induction h with
  | init =>
      refine ⟨[], fun _ => [], routerInv_init _, ?_, ?_, ?_⟩
      · intro rb hrb
        cases hrb
      · intro c hc
        cases hc
      · intro c hc
        cases hc
  | step _ hstep ih =>
      obtain ⟨l, key, hinv⟩ := ih
      exact netStep_inv hslots hinv hstep

/-- **Transmission discipline.**  At any time every router contact has at most one
unreported routed bundle; it is sending a bundle exactly if it has one, and then
the ids agree. -/
theorem one_in_flight {n : Net} (h : NetReachable P n) :
    ∀ c ∈ n.router.routerContacts, ∃ rc, n.router.contacts.cells c = some rc ∧
      (unreportedFor n.unreported (n.eidOf rc.contact)).length ≤ 1 ∧
      (rc.currentBundle ≠ none ↔ unreportedFor n.unreported (n.eidOf rc.contact) ≠ []) ∧
      ∀ a, rc.currentBundle = some a → ∃ e, n.router.infos.cells a = some e ∧
        ∀ rb ∈ unreportedFor n.unreported (n.eidOf rc.contact), rb.id = e.id := by
  intro c hc
  have hslots : P.btMaxConn - 1 ≠ 0 := by
    intro hzero
    obtain ⟨_, _, hinv⟩ := reachable_inv (netReachable_router h)
    rw [hinv.table.no_contacts hzero] at hc
    cases hc
  obtain ⟨l, key, hinv⟩ := netReachable_inv hslots h
  obtain ⟨rc, hrc⟩ := hinv.router.table.live c hc
  have hflight := hinv.flight c hc rc hrc
  rw [(hinv.keys c hc rc hrc).1] at hflight
  refine ⟨rc, hrc, ?_⟩
  cases hcur : rc.currentBundle with
  | none =>
      rw [hcur] at hflight
      rw [show unreportedFor n.unreported (n.eidOf rc.contact) = [] from hflight]
      simp
  | some a =>
      rw [hcur] at hflight
      obtain ⟨e, rb, he, hrbs, hid⟩ := hflight
      rw [hrbs]
      refine ⟨Nat.le_refl 1, by simp, ?_⟩
      intro a' ha'
      cases ha'
      refine ⟨e, he, ?_⟩
      intro rb' hrb'
      rw [List.mem_singleton.mp hrb']
      exact hid

theorem NetReachable.op {s s' : Router} {env : Env} {u : List RoutedBundle} {out : List Output}
    (h : NetReachable P ⟨s, env.eid, u⟩) (op : RouterOp) (hmem : FreshMem s op)
    (hclean : ∀ contact active mem, op = .contactEvent contact active mem →
      CleanAdd s s' (env.eid contact) u)
    (hinfo : ∀ rb success, op = .signalTransmission rb success →
      routingAgentIsInfoBundle rb.destination = true)
    (hrun : routerStep P s env op = .ok (s', out)) :
    NetReachable P ⟨s', env.eid, u ++ routedOf out⟩ :=
  .step h (.op hmem hclean hinfo hrun)

/-- A bundle is in flight to a contact that requested it. -/
theorem one_in_flight_sending : ∃ n, NetReachable demoParams n ∧
    n.router.routerContacts = [0] ∧ n.unreported.map (·.id) = [7] ∧
    ∀ c ∈ n.router.routerContacts, ∃ rc, n.router.contacts.cells c = some rc ∧
      (unreportedFor n.unreported (n.eidOf rc.contact)).length ≤ 1 ∧
      (rc.currentBundle ≠ none ↔ unreportedFor n.unreported (n.eidOf rc.contact) ≠ []) ∧
      ∀ a, rc.currentBundle = some a → ∃ e, n.router.infos.cells a = some e ∧
        ∀ rb ∈ unreportedFor n.unreported (n.eidOf rc.contact), rb.id = e.id := by
  have hrun : ∃ n, NetReachable demoParams n ∧ n.router.routerContacts = [0] ∧
      n.unreported.map (·.id) = [7] := by
    have hup := (@NetReachable.init demoParams demoEnv.eid).op (.contactEvent 0 true (some 0))
      (by intro c _; rfl)
      (by intro contact active mem hop _; cases hop; exact ⟨by decide, rfl⟩) (by simp) rfl
    have hroute := hup.op (.routeBundle demoBundle (some 0) true)
      (by intro a ha; cases ha; rfl) (by simp) (by simp) rfl
    exact ⟨_, hroute.op (.updateRequestSv "dtn://a".toList [42]) (by trivial) (by simp) (by simp)
      rfl, rfl, rfl⟩
  obtain ⟨n, hreach, harr, hids⟩ := hrun
  exact ⟨n, hreach, harr, hids, one_in_flight hreach⟩

end EpidemicRouter
