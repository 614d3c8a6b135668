import DisruptaBLE.Epidemic.ContactTable

/-!
# Runs of the router

An operation of the router is a short sequence of acts: the expiry pass, one
call of `send_bundles_to_contact`, the first half of a request or of a report,
and so on.  For each act there is one lemma that says what it does and that it
keeps `RouterInv`; `routerStep_acts` puts the operations together from acts.

The results on whole runs are `reachable_cursors`, on the references of the
contacts into the bundle list, and `reachable_bundle_list`, on the list.
-/

namespace EpidemicRouter

open PtrHeap

variable {P : RouterParams}

/-- The invariant of the router: list, cursors and table. -/
structure RouterInv (P : RouterParams) (s : Router) (l : List Addr) (key : Addr → CStr) :
    Prop where
  list : ListInv s l
  cursors : CursorInv s l
  table : TableInv P s key

theorem routerInv_init (key : Addr → CStr) : RouterInv P (routerInit P) [] key where
  list := ⟨rfl, rfl, List.Pairwise.nil⟩
  cursors c hc := by cases hc
  table := tableInv_init key

/-- The parts of the operations. -/
inductive RouterAct where
  | route (b : RouteBundle) (mem : Option Addr) (dup : Bool)
  | expire
  | send (c : Addr)
  | contactEvent (contact : ContactRef) (active : Bool) (mem : Option Addr)
  | request (eid : CStr) (sv : List SvEntry)
  | report (rb : RoutedBundle)

/-- One act. -/
def RouterAct.run (P : RouterParams) (s : Router) (env : Env) :
    RouterAct → Except Fault (Router × List Output)
  | .route b mem dup => routerRouteBundle P s env b mem dup
  | .expire => updateBundleInfoList s env.now
  | .send c => sendBundlesToContact s env c
  | .contactEvent contact active mem => routerHandleContactEvent P s env contact active mem
  | .request eid sv => do
      let (s, _) ← takeRequest P s eid sv
      pure (s, [])
  | .report rb => do
      let (s, _) ← takeReport P s rb
      pure (s, [])

/-- When an act can take place: with unused memory, and for a contact of the array. -/
def RouterAct.Enabled (s : Router) : RouterAct → Prop
  | .route _ mem _ => ∀ a, mem = some a → s.infos.cells a = none
  | .contactEvent _ _ mem => ∀ c, mem = some c → s.contacts.cells c = none
  | .send c => c ∈ s.routerContacts
  | _ => True

/-! ## The acts -/

/-- A change of one router contact that keeps its index and the meaning of its
cursors. -/
theorem RouterInv.setContact {s : Router} {l : List Addr} {key : Addr → CStr}
    (h : RouterInv P s l key) {c : Addr} {rc rc' : RouterContact}
    (hrc : s.contacts.cells c = some rc) (hindex : rc'.index = rc.index)
    (hcur : Refers l rc'.currentBundle) (hnext : Refers l rc'.nextBundleCandidate) :
    RouterInv P (s.setContact c rc') l key where
  list := ⟨h.list.chain, h.list.tail, h.list.distinct⟩
  cursors := by
    intro x hx
    by_cases hxc : x = c
    · exact ⟨rc', by simp [Router.setContact, hxc], hcur, hnext⟩
    · obtain ⟨rx, hrx, hrefs⟩ := h.cursors x hx
      exact ⟨rx, by simp [Router.setContact, hxc, hrx], hrefs⟩
  table := by
    refine h.table.frame ?_ ?_ ?_
    · rfl
    · rfl
    · intro x _ rx hrx
      by_cases hxc : x = c
      · subst hxc
        obtain rfl : rc = rx := Option.some.inj (hrc.symm.trans hrx)
        exact ⟨rc', by simp [Router.setContact], hindex⟩
      · exact ⟨rx, by simp [Router.setContact, hxc, hrx], rfl⟩

/-- `send_bundles_to_contact` keeps the invariant. -/
theorem send_inv {s : Router} {l : List Addr} {key : Addr → CStr} (h : RouterInv P s l key)
    (env : Env) {c : Addr} (hc : c ∈ s.routerContacts) :
    ∃ rc s' out, s.contacts.cells c = some rc ∧ sendBundlesToContact s env c = .ok (s', out) ∧
      SendResult s env l c rc s' out ∧ RouterInv P s' l key ∧
      s'.routerContacts = s.routerContacts := by
  obtain ⟨rc, hrc, hcur, hnext⟩ := h.cursors c hc
  obtain ⟨s', out, hrun, hres⟩ := sendBundlesToContact_spec env h.list hrc hnext
  refine ⟨rc, s', out, hrc, hrun, hres, ?_⟩
  cases hres with
  | idle _ => exact ⟨h, rfl⟩
  | moved _ hp => exact ⟨h.setContact hrc rfl hcur hp, rfl⟩
  | sent _ _ ha _ hn _ _ _ =>
      refine ⟨h.setContact hrc rfl ?_ hn, rfl⟩
      intro b hb
      cases hb
      exact ha

/-- The expiry pass keeps the invariant. -/
theorem expire_inv {s : Router} {l : List Addr} {key : Addr → CStr} (h : RouterInv P s l key)
    (now : Nat) :
    ∃ s' out l', updateBundleInfoList s now = .ok (s', out) ∧ RouterInv P s' l' key ∧
      Expired now s s' l l' ∧ ∀ o ∈ out, ∀ p rb, o ≠ .scheduled p rb := by
  obtain ⟨s', out, l', hrun, hlist, hcur, hexp, hout⟩ :=
    updateBundleInfoList_spec now h.list h.cursors
  refine ⟨s', out, l', hrun, ⟨hlist, hcur, ?_⟩, hexp, hout⟩
  apply h.table.frame hexp.arr hexp.htab
  intro c _ rc hrc
  obtain ⟨p, hp⟩ := hexp.contacts c rc hrc
  exact ⟨_, hp, rfl⟩

/-- An offer to an idle contact only reads. -/
theorem offerIfIdle_ok {s : Router} {l : List Addr} (hl : ListInv s l)
    (hcur : CursorInv s l) (env : Env) {c : Addr} (hc : c ∈ s.routerContacts) :
    ∃ out, offerIfIdle P s env c = .ok out ∧ ∀ o ∈ out, ∀ p rb, o ≠ .scheduled p rb := by
  obtain ⟨rc, hrc, _⟩ := hcur c hc
  unfold offerIfIdle
  rw [Heap.load_cell hrc, ok_bind]
  split
  · exact sendOfferSv_ok hl env rc
  · exact ⟨[], rfl, by simp⟩

theorem offerToIdle_ok {s : Router} {l : List Addr} (hl : ListInv s l)
    (hcur : CursorInv s l) (env : Env) (cs : List Addr) (hcs : ∀ c ∈ cs, c ∈ s.routerContacts) :
    ∃ out, offerToIdle P s env cs = .ok out ∧ ∀ o ∈ out, ∀ p rb, o ≠ .scheduled p rb := by
  induction cs with
  | nil => exact ⟨[], rfl, by simp⟩
  | cons c cs ih =>
      obtain ⟨out, hout, hnone⟩ := offerIfIdle_ok (P := P) hl hcur env (hcs c List.mem_cons_self)
      obtain ⟨rest, hrest, hnone'⟩ := ih fun x hx => hcs x (List.mem_cons_of_mem _ hx)
      refine ⟨out ++ rest, by simp [offerToIdle, hout, hrest, pure, Except.pure], ?_⟩
      intro o ho
      rcases List.mem_append.mp ho with ho | ho
      · exact hnone o ho
      · exact hnone' o ho

/-- What `router_route_bundle` does to the router: nothing, or it appends an entry for
the bundle. -/
inductive RouteChange (P : RouterParams) (s : Router) (b : RouteBundle) (mem : Option Addr)
    (l : List Addr) : Router → List Addr → Prop where
  | same : RouteChange P s b mem l s l
  | appended {s' : Router} {a : Addr} : mem = some a → s.infos.cells a = none →
      s'.infos.cells a = some (bundleInfo P b) →
      (∀ x ∈ l, ∀ e, s.infos.cells x = some e →
        ∃ n, s'.infos.cells x = some { e with next := n }) →
      s'.contacts = s.contacts → s'.routerContacts = s.routerContacts → s'.htab = s.htab →
      routingAgentIsInfoBundle b.destination = false →
      RouteChange P s b mem l s' (l ++ [a])

/-- `router_route_bundle` keeps the invariant; no assertion fails. -/
theorem route_inv {s : Router} {l : List Addr} {key : Addr → CStr} (h : RouterInv P s l key)
    (env : Env) (b : RouteBundle) {mem : Option Addr} (dup : Bool)
    (hmem : ∀ a, mem = some a → s.infos.cells a = none) :
    ∃ s' out l', routerRouteBundle P s env b mem dup = .ok (s', out) ∧
      RouterInv P s' l' key ∧ RouteChange P s b mem l s' l' ∧
      ∀ o ∈ out, ∀ a rb, o ≠ .scheduled (some a) rb := by
  unfold routerRouteBundle
  by_cases hinfo : routingAgentIsInfoBundle b.destination = true
  · rw [if_pos hinfo]
    unfold routeInfoBundle
    by_cases hok : env.infoOk = true
    · rw [if_pos hok]
      exact ⟨s, _, l, rfl, h, .same, by simp⟩
    · rw [if_neg hok]
      exact ⟨s, _, l, rfl, h, .same, by simp⟩
  · rw [if_neg hinfo]
    unfold routeEpidemicBundle
    cases mem with
    | none => exact ⟨s, _, l, rfl, h, .same, by simp⟩
    | some a =>
        obtain ⟨known, hknown, hfresh⟩ := hasDuplicate_spec b.svEntry h.list.chain
          (Nat.lt_succ_of_le h.list.chain.length_le)
        simp only [hknown, ok_bind]
        by_cases hskip : (known || !dup) = true
        · rw [if_pos hskip]
          exact ⟨s, _, l, rfl, h, .same, by simp⟩
        · have hnot : known = false := by
            cases known
            · rfl
            · exact absurd rfl hskip
          rw [if_neg hskip]
          obtain ⟨s', happ, hlist, hcell, hkept, hcont, harr, hhtab⟩ :=
            appendInfo_spec h.list (hmem a rfl) (bundleInfo P b) rfl (hfresh hnot)
          have hcur : CursorInv s' (l ++ [a]) := by
            intro c hc
            rw [harr] at hc
            obtain ⟨rc, hrc, hc₁, hc₂⟩ := h.cursors c hc
            have hmono : ∀ x ∈ l, x ∈ l ++ [a] := fun x hx => List.mem_append_left _ hx
            exact ⟨rc, hcont ▸ hrc, hc₁.mono hmono, hc₂.mono hmono⟩
          obtain ⟨out, hout, hnone⟩ := offerToIdle_ok (P := P) hlist hcur env
            s'.routerContacts.reverse fun c hc => List.mem_reverse.mp hc
          refine ⟨s', out ++ [.inform b.id .bundleRouted .noInfo], l ++ [a], ?_, ⟨hlist, hcur, ?_⟩,
            .appended rfl (hmem a rfl) hcell hkept hcont harr hhtab (by simpa using hinfo), ?_⟩
          · simp only [happ, ok_bind, hout]
            rfl
          · apply h.table.frame harr hhtab
            intro c _ rc hrc
            exact ⟨rc, hcont ▸ hrc, rfl⟩
          · intro o ho x rb
            rcases List.mem_append.mp ho with ho | ho
            · exact hnone o ho (some x) rb
            · obtain rfl := List.mem_singleton.mp ho
              simp

/-- A contact event keeps the invariant. -/
theorem contactEvent_inv {s : Router} {l : List Addr} {key : Addr → CStr}
    (h : RouterInv P s l key) (hslots : P.btMaxConn - 1 ≠ 0) (env : Env)
    (contact : ContactRef) (active : Bool) {mem : Option Addr}
    (hmem : ∀ c, mem = some c → s.contacts.cells c = none) :
    ∃ s' out key', routerHandleContactEvent P s env contact active mem = .ok (s', out) ∧
      RouterInv P s' l key' ∧ ContactChange P s env contact active key s' key' ∧
      ∀ o ∈ out, ∀ p rb, o ≠ .scheduled p rb := by
  obtain ⟨s', out, key', hrun, htab, hchange, hout⟩ :=
    routerHandleContactEvent_spec h.table h.list hslots env contact active hmem
  refine ⟨s', out, key', hrun, ?_, hchange, hout⟩
  cases hchange with
  | same _ => exact h
  | @added _ c _ _ _ hfree harr hcont hinf hhead htail =>
      refine ⟨⟨?_, ?_, ?_⟩, ?_, htab⟩
      · rw [hinf, hhead]
        exact h.list.chain
      · rw [htail]
        exact h.list.tail
      · rw [hinf]
        exact h.list.distinct
      · intro x hx
        rw [harr] at hx
        by_cases hxc : x = c
        · exact ⟨⟨contact, s.routerContacts.length, none, none, none⟩, by simp [hcont, hxc],
            Refers.none l, Refers.none l⟩
        · obtain ⟨rx, hrx, hrefs⟩ := h.cursors x (by simpa [hxc] using hx)
          exact ⟨rx, by simp [hcont, hxc, hrx], hrefs⟩
  | @removed _ c _ _ _ hmem' hcont hinf hhead htail =>
      refine ⟨⟨?_, ?_, ?_⟩, ?_, htab⟩
      · rw [hinf, hhead]
        exact h.list.chain
      · rw [htail]
        exact h.list.tail
      · rw [hinf]
        exact h.list.distinct
      · intro x hx
        obtain ⟨hxmem, hxc⟩ := (hmem' x).mp hx
        obtain ⟨rx, hrx, hrefs⟩ := h.cursors x hxmem
        obtain ⟨i, hi⟩ := hcont x hxc rx hrx
        exact ⟨_, hi, hrefs⟩

theorem TableInv.get {s : Router} {key : Addr → CStr} (h : TableInv P s key)
    (hslots : P.btMaxConn - 1 ≠ 0) (k : CStr) :
    htabGet P.hash s.htab k = .ok (s.htab.lookup P.hash k) := by
  have hslots' : s.htab.slotCount ≠ 0 := by rw [h.slots]; exact hslots
  simp [htabGet, hslots', pure, Except.pure]

/-- What the first half of a request does: nothing for an unknown contact; else the
entries that are no longer requested are charged and the request is stored. -/
inductive RequestChange (P : RouterParams) (s : Router) (l : List Addr) (eid : CStr)
    (sv : List SvEntry) : Router → Ptr → Prop where
  | unknown : s.htab.lookup P.hash eid = none → RequestChange P s l eid sv s none
  | stored {infos : Heap BundleInfo} {c : Addr} {rc : RouterContact} {p : Ptr} :
      s.htab.lookup P.hash eid = some c → s.contacts.cells c = some rc → Refers l p →
      (∀ a, infos.cells a = if a ∈ l then (s.infos.cells a).map (chargedBy rc.requestSv sv)
        else s.infos.cells a) →
      RequestChange P s l eid sv
        (({ s with infos } : Router).setContact c
          { rc with requestSv := some sv, nextBundleCandidate := p })
        (if rc.currentBundle.isNone then some c else none)

/-- The first half of a request keeps the invariant. -/
theorem takeRequest_inv {s : Router} {l : List Addr} {key : Addr → CStr}
    (h : RouterInv P s l key) (hslots : P.btMaxConn - 1 ≠ 0) (eid : CStr)
    (sv : List SvEntry) :
    ∃ s' p, takeRequest P s eid sv = .ok (s', p) ∧ RequestChange P s l eid sv s' p ∧
      RouterInv P s' l key ∧ s'.routerContacts = s.routerContacts ∧
      ∀ c, p = some c → c ∈ s.routerContacts := by
  unfold takeRequest
  rw [h.table.get hslots, ok_bind]
  cases hlook : s.htab.lookup P.hash eid with
  | none => exact ⟨s, none, rfl, .unknown hlook, h, rfl, by simp⟩
  | some c =>
      have hc := ((h.table.lookup eid c).mp hlook).1
      obtain ⟨rc, hrc, hcur, hnext⟩ := h.cursors c hc
      obtain ⟨infos, hcharge, hcells⟩ := chargeBundles_spec h.list rc.requestSv sv
      have hinv : RouterInv P { s with infos } l key := by
        refine ⟨h.list.frame rfl rfl ?_, h.cursors, ?_⟩
        · intro a ha e he
          obtain ⟨n, hn⟩ := chargedBy_eq rc.requestSv sv e
          refine ⟨{ e with numPendingTransmissions := n }, ?_, rfl, rfl⟩
          change infos.cells a = _
          rw [hcells a, if_pos ha, he, Option.map_some, hn]
        · exact h.table.frame rfl rfl fun _ _ rx hrx => ⟨rx, hrx, rfl⟩
      have hhead : Refers l s.head := refers_of_isSeg h.list.chain
      have hcmem : ∀ p : Ptr, p = some c ∨ p = none → ∀ x, p = some x →
          x ∈ s.routerContacts := by
        intro p hp x hx
        rcases hp with rfl | rfl
        · cases hx
          exact hc
        · cases hx
      by_cases hidle : rc.currentBundle.isNone = true
      · have hres := RequestChange.stored (P := P) hlook hrc hhead hcells
        rw [if_pos hidle] at hres
        refine ⟨_, _, ?_, hres, hinv.setContact hrc rfl hcur hhead, rfl, hcmem _ (Or.inl rfl)⟩
        simp only [Heap.load_cell hrc, ok_bind, hcharge, if_pos hidle, Heap.modify_cell hrc]
        rfl
      · have hres := RequestChange.stored (P := P) hlook hrc hnext hcells
        rw [if_neg hidle] at hres
        refine ⟨_, _, ?_, hres, hinv.setContact hrc rfl hcur hnext, rfl, hcmem _ (Or.inr rfl)⟩
        simp only [Heap.load_cell hrc, ok_bind, hcharge, if_neg hidle, Heap.modify_cell hrc]
        rfl

/-- What the first half of a report does: it ends the transmission of the contact with
this EID if the ids agree, and nothing otherwise. -/
inductive ReportChange (P : RouterParams) (s : Router) (rb : RoutedBundle) :
    Router → Ptr → Prop where
  | ignored : (∀ c rc a e, s.htab.lookup P.hash rb.destination = some c →
        s.contacts.cells c = some rc → rc.currentBundle = some a →
        s.infos.cells a = some e → e.id ≠ rb.id) →
      ReportChange P s rb s none
  | finished {c : Addr} {rc : RouterContact} {a : Addr} {e : BundleInfo} :
      s.htab.lookup P.hash rb.destination = some c → s.contacts.cells c = some rc →
      rc.currentBundle = some a → s.infos.cells a = some e → e.id = rb.id →
      ReportChange P s rb (s.setContact c { rc with currentBundle := none }) (some c)

/-- The first half of a report keeps the invariant. -/
theorem takeReport_inv {s : Router} {l : List Addr} {key : Addr → CStr}
    (h : RouterInv P s l key) (hslots : P.btMaxConn - 1 ≠ 0) (rb : RoutedBundle) :
    ∃ s' p, takeReport P s rb = .ok (s', p) ∧ ReportChange P s rb s' p ∧
      RouterInv P s' l key ∧ s'.routerContacts = s.routerContacts ∧
      ∀ c, p = some c → c ∈ s.routerContacts := by
  unfold takeReport
  rw [h.table.get hslots, ok_bind]
  cases hlook : s.htab.lookup P.hash rb.destination with
  | none =>
      refine ⟨s, none, rfl, .ignored ?_, h, rfl, by simp⟩
      intro c rc a e hc
      rw [hlook] at hc
      cases hc
  | some c =>
      have hc := ((h.table.lookup _ c).mp hlook).1
      obtain ⟨rc, hrc, hcur, hnext⟩ := h.cursors c hc
      have hsame : ∀ c' rc', s.htab.lookup P.hash rb.destination = some c' →
          s.contacts.cells c' = some rc' → rc' = rc := by
        intro c' rc' hc' hrc'
        rw [hlook] at hc'
        cases hc'
        exact Option.some.inj (hrc'.symm.trans hrc)
      simp only [Heap.load_cell hrc, ok_bind]
      cases hcb : rc.currentBundle with
      | none =>
          refine ⟨s, none, rfl, .ignored ?_, h, rfl, by simp⟩
          intro c' rc' a e hc' hrc' ha
          rw [hsame c' rc' hc' hrc', hcb] at ha
          cases ha
      | some a =>
          obtain ⟨e, he⟩ := h.list.chain.live (hcur a hcb)
          by_cases hid : e.id = rb.id
          · refine ⟨s.setContact c { rc with currentBundle := none }, some c, ?_,
              .finished hlook hrc hcb he hid, h.setContact hrc rfl (Refers.none l) hnext, rfl, ?_⟩
            · simp [Heap.load_cell he, hid, Heap.modify_cell hrc, Router.setContact, pure,
                Except.pure]
            · intro x hx
              cases hx
              exact hc
          · refine ⟨s, none, by simp [Heap.load_cell he, hid, pure, Except.pure], .ignored ?_, h,
              rfl, by simp⟩
            intro c' rc' a' e' hc' hrc' ha' he'
            rw [hsame c' rc' hc' hrc', hcb] at ha'
            cases ha'
            obtain rfl : e = e' := Option.some.inj (he.symm.trans he')
            exact hid

/-- An act that looks into the hash table needs one with slots. -/
theorem htabGet_slots {s : Router} {key : Addr → CStr} (h : TableInv P s key) {k : CStr} {p : Ptr}
    (hget : htabGet P.hash s.htab k = .ok p) : P.btMaxConn - 1 ≠ 0 := by
  intro hslots
  have hzero : s.htab.slotCount = 0 := by
    rw [h.slots]
    exact hslots
  simp [htabGet, hzero, assertC, bind, Except.bind] at hget

theorem request_slots {s : Router} {key : Addr → CStr} (h : TableInv P s key) {env : Env}
    {eid : CStr} {sv : List SvEntry} {r : Router × List Output}
    (hrun : (RouterAct.request eid sv).run P s env = .ok r) : P.btMaxConn - 1 ≠ 0 := by
  obtain ⟨⟨_, _⟩, htake, _⟩ := bind_eq_ok.mp hrun
  obtain ⟨p, hget, _⟩ := bind_eq_ok.mp htake
  exact htabGet_slots h hget

theorem report_slots {s : Router} {key : Addr → CStr} (h : TableInv P s key) {env : Env}
    {rb : RoutedBundle} {r : Router × List Output}
    (hrun : (RouterAct.report rb).run P s env = .ok r) : P.btMaxConn - 1 ≠ 0 := by
  obtain ⟨⟨_, _⟩, htake, _⟩ := bind_eq_ok.mp hrun
  obtain ⟨p, hget, _⟩ := bind_eq_ok.mp htake
  exact htabGet_slots h hget

theorem contactEvent_slots {s : Router} {key : Addr → CStr} (h : TableInv P s key) {env : Env}
    {contact : ContactRef} {active : Bool} {mem : Option Addr} {s' : Router} {out : List Output}
    (hrun : routerHandleContactEvent P s env contact active mem = .ok (s', out)) :
    P.btMaxConn - 1 ≠ 0 ∨ s' = s ∧ out = [] ∧ env.eid contact = eidNone := by
  unfold routerHandleContactEvent at hrun
  split at hrun
  · next hnone =>
    cases hrun
    exact Or.inr ⟨rfl, rfl, hnone⟩
  · obtain ⟨p, hget, _⟩ := bind_eq_ok.mp hrun
    exact Or.inl (htabGet_slots h hget)

/-- The list entries scheduled among some outputs. -/
def scheduledOf (out : List Output) : List (Addr × RoutedBundle) :=
  out.filterMap fun
    | .scheduled (some a) rb => some (a, rb)
    | _ => none

@[simp] theorem scheduledOf_nil : scheduledOf [] = [] := rfl

@[simp] theorem scheduledOf_append (out out' : List Output) :
    scheduledOf (out ++ out') = scheduledOf out ++ scheduledOf out' := by
  simp [scheduledOf]

theorem scheduledOf_eq_nil {out : List Output} (h : ∀ o ∈ out, ∀ a rb, o ≠ .scheduled (some a) rb) :
    scheduledOf out = [] := by
  unfold scheduledOf
  rw [List.filterMap_eq_nil_iff]
  intro o ho
  cases o with
  | inform id sig r => rfl
  | offerSv eid offer known => rfl
  | scheduled p rb =>
      cases p with
      | none => rfl
      | some a => exact absurd rfl (h _ ho a rb)

/-- What an act does to the router, and what it schedules. -/
inductive ActChange (P : RouterParams) (s : Router) (l : List Addr) (key : Addr → CStr)
    (env : Env) : RouterAct → Router → List Addr → (Addr → CStr) → List Output → Prop where
  | route {b : RouteBundle} {mem : Option Addr} {dup : Bool} {s' : Router} {l' : List Addr}
      {out : List Output} : (∀ a, mem = some a → s.infos.cells a = none) →
      RouteChange P s b mem l s' l' → scheduledOf out = [] →
      ActChange P s l key env (.route b mem dup) s' l' key out
  | expire {s' : Router} {l' : List Addr} {out : List Output} : Expired env.now s s' l l' →
      scheduledOf out = [] → ActChange P s l key env .expire s' l' key out
  | send {c : Addr} {rc : RouterContact} {s' : Router} {out : List Output} :
      c ∈ s.routerContacts → s.contacts.cells c = some rc → SendResult s env l c rc s' out →
      s'.routerContacts = s.routerContacts → ActChange P s l key env (.send c) s' l key out
  | contactEvent {contact : ContactRef} {active : Bool} {mem : Option Addr} {s' : Router}
      {key' : Addr → CStr} {out : List Output} :
      ContactChange P s env contact active key s' key' → scheduledOf out = [] →
      ActChange P s l key env (.contactEvent contact active mem) s' l key' out
  | request {eid : CStr} {sv : List SvEntry} {s' : Router} {p : Ptr} :
      RequestChange P s l eid sv s' p → s'.routerContacts = s.routerContacts →
      ActChange P s l key env (.request eid sv) s' l key []
  | report {rb : RoutedBundle} {s' : Router} {p : Ptr} :
      ReportChange P s rb s' p → s'.routerContacts = s.routerContacts →
      ActChange P s l key env (.report rb) s' l key []

/-- **One act.**  It keeps the invariant and does what `ActChange` says. -/
theorem act_change {s s' : Router} {l : List Addr} {key : Addr → CStr} {env : Env}
    {act : RouterAct} {out : List Output} (h : RouterInv P s l key) (hen : act.Enabled s)
    (hrun : act.run P s env = .ok (s', out)) :
    ∃ l' key', RouterInv P s' l' key' ∧ ActChange P s l key env act s' l' key' out := by
  cases act with
  | route b mem dup =>
      obtain ⟨s₁, out₁, l', hrun₁, hinv, hchange, hout⟩ := route_inv h env b dup hen
      rw [RouterAct.run, hrun₁] at hrun
      cases hrun
      exact ⟨l', key, hinv, .route hen hchange (scheduledOf_eq_nil hout)⟩
  | expire =>
      obtain ⟨s₁, out₁, l', hrun₁, hinv, hexp, hout⟩ := expire_inv h env.now
      rw [RouterAct.run, hrun₁] at hrun
      cases hrun
      exact ⟨l', key, hinv, .expire hexp
        (scheduledOf_eq_nil fun o ho a rb => hout o ho (some a) rb)⟩
  | send c =>
      obtain ⟨rc, s₁, out₁, hrc, hrun₁, hres, hinv, harr⟩ := send_inv h env hen
      rw [RouterAct.run, hrun₁] at hrun
      cases hrun
      exact ⟨l, key, hinv, .send hen hrc hres harr⟩
  | contactEvent contact active mem =>
      rcases contactEvent_slots h.table hrun with hslots | ⟨rfl, rfl, hsame⟩
      · obtain ⟨s₁, out₁, key', hrun₁, hinv, hchange, hout⟩ :=
          contactEvent_inv h hslots env contact active hen
        rw [RouterAct.run, hrun₁] at hrun
        cases hrun
        exact ⟨l, key', hinv, .contactEvent hchange
          (scheduledOf_eq_nil fun o ho a rb => hout o ho (some a) rb)⟩
      · exact ⟨l, key, h, .contactEvent (.same (Or.inl hsame)) rfl⟩
  | request eid sv =>
      obtain ⟨s₁, p, hrun₁, hchange, hinv, harr, _⟩ :=
        takeRequest_inv h (request_slots h.table hrun) eid sv
      have hsame : (RouterAct.request eid sv).run P s env = .ok (s₁, []) := by
        simp [RouterAct.run, hrun₁, pure, Except.pure]
      rw [hsame] at hrun
      cases hrun
      exact ⟨l, key, hinv, .request hchange harr⟩
  | report rb =>
      obtain ⟨s₁, p, hrun₁, hchange, hinv, harr, _⟩ :=
        takeReport_inv h (report_slots h.table hrun) rb
      have hsame : (RouterAct.report rb).run P s env = .ok (s₁, []) := by
        simp [RouterAct.run, hrun₁, pure, Except.pure]
      rw [hsame] at hrun
      cases hrun
      exact ⟨l, key, hinv, .report hchange harr⟩

/-! ## The operations -/

/-- A sequence of acts, with the environment and the outputs of each. -/
inductive ActRun (P : RouterParams) :
    Router → List (Env × RouterAct × List Output) → Router → Prop where
  | nil {s : Router} : ActRun P s [] s
  | cons {s s' s'' : Router} {env : Env} {act : RouterAct} {out : List Output}
      {tr : List (Env × RouterAct × List Output)} :
      act.Enabled s → act.run P s env = .ok (s', out) → ActRun P s' tr s'' →
      ActRun P s ((env, act, out) :: tr) s''

/-- The acts of which an operation consists. -/
inductive OpActs (env : Env) : RouterOp → List (Env × RouterAct × List Output) → Prop where
  | route {b mem dup out} : OpActs env (.routeBundle b mem dup) [(env, .route b mem dup, out)]
  | update {out tr} : (∀ x ∈ tr, ∃ c out, x = (env, .send c, out)) →
      OpActs env .update ((env, .expire, out) :: tr)
  | contactEvent {contact active mem out} :
      OpActs env (.contactEvent contact active mem)
        [(env, .contactEvent contact active mem, out)]
  | request {eid sv out tr} : (∀ x ∈ tr, ∃ c out, x = (env, .send c, out)) →
      OpActs env (.updateRequestSv eid sv) ((env, .request eid sv, out) :: tr)
  | reportInfo {rb success} : routingAgentIsInfoBundle rb.destination = true →
      OpActs env (.signalTransmission rb success) []
  | report {rb success out tr} : routingAgentIsInfoBundle rb.destination = false →
      (∀ x ∈ tr, ∃ c out, x = (env, .send c, out)) →
      OpActs env (.signalTransmission rb success) ((env, .report rb, out) :: tr)

/-- The loop of `send_bundles` is a sequence of sends. -/
theorem sendBundles_acts {s : Router} {l : List Addr} {key : Addr → CStr}
    (h : RouterInv P s l key) (env : Env) {cs : List Addr}
    (hcs : ∀ c ∈ cs, c ∈ s.routerContacts) :
    ∃ s' out tr, sendBundles env s cs = .ok (s', out) ∧ ActRun P s tr s' ∧
      (∀ x ∈ tr, ∃ c out, x = (env, .send c, out)) ∧ RouterInv P s' l key ∧
      scheduledOf out = tr.flatMap fun x => scheduledOf x.2.2 := by
  induction cs generalizing s with
  | nil => exact ⟨s, [], [], rfl, .nil, by simp, h, rfl⟩
  | cons c cs ih =>
      obtain ⟨rc, s₁, out₁, _, hrun₁, _, hinv₁, harr₁⟩ := send_inv h env (hcs c List.mem_cons_self)
      obtain ⟨s₂, out₂, tr, hrun₂, hacts, hsend, hinv₂, hsched⟩ := ih hinv₁ fun x hx => by
        rw [harr₁]
        exact hcs x (List.mem_cons_of_mem _ hx)
      refine ⟨s₂, out₁ ++ out₂, (env, .send c, out₁) :: tr, ?_,
        .cons (hcs c List.mem_cons_self) hrun₁ hacts, ?_, hinv₂, ?_⟩
      · simp [sendBundles, hrun₁, hrun₂, pure, Except.pure]
      · intro x hx
        rcases List.mem_cons.mp hx with rfl | hx
        · exact ⟨c, out₁, rfl⟩
        · exact hsend x hx
      · rw [scheduledOf_append, hsched, List.flatMap_cons]

/-- How an operation changes the list: some entries go, the others keep their
order, and at most one new entry comes to the end. -/
def ListChange (l l' : List Addr) : Prop :=
  ∃ kept, kept.Sublist l ∧ (l' = kept ∨ ∃ a, a ∉ l ∧ l' = kept ++ [a])

theorem ListChange.refl (l : List Addr) : ListChange l l :=
  ⟨l, List.Sublist.refl l, Or.inl rfl⟩

/-- **The operations in terms of acts.**  An operation on a router that satisfies
its invariant succeeds, consists of acts, and keeps the invariant. -/
theorem routerStep_acts {s : Router} {l : List Addr} {key : Addr → CStr}
    (h : RouterInv P s l key) (hslots : P.btMaxConn - 1 ≠ 0) (env : Env) {op : RouterOp}
    (hmem : FreshMem s op) :
    ∃ s' out tr l' key', routerStep P s env op = .ok (s', out) ∧ ActRun P s tr s' ∧
      OpActs env op tr ∧ RouterInv P s' l' key' ∧ ListChange l l' ∧
      scheduledOf out = tr.flatMap fun x => scheduledOf x.2.2 := by
  cases op with
  | routeBundle b mem dup =>
      obtain ⟨s', out, l', hrun, hinv, hchange, _⟩ := route_inv h env b dup hmem
      have hact : ActRun P s [(env, .route b mem dup, out)] s' := .cons (by exact hmem) hrun .nil
      refine ⟨s', out, _, l', key, hrun, hact, .route, hinv, ?_, by simp⟩
      cases hchange with
      | same => exact ListChange.refl l
      | @appended _ a _ hfree =>
          refine ⟨l, List.Sublist.refl l, Or.inr ⟨a, fun ha => ?_, rfl⟩⟩
          obtain ⟨e, he⟩ := h.list.chain.live ha
          rw [hfree] at he
          cases he
  | update =>
      obtain ⟨s₁, out₁, l', hrun₁, hinv₁, hexp, hout₁⟩ := expire_inv h env.now
      obtain ⟨s₂, out₂, tr, hrun₂, hacts, hsend, hinv₂, hsched⟩ :=
        sendBundles_acts hinv₁ env fun c hc => List.mem_reverse.mp hc
      refine ⟨s₂, out₁ ++ out₂, (env, .expire, out₁) :: tr, l', key, ?_, .cons trivial hrun₁ hacts,
        .update hsend, hinv₂, ⟨l', hexp.sub, Or.inl rfl⟩, ?_⟩
      · simp [routerStep, routerUpdate, hrun₁, hrun₂, pure, Except.pure]
      · rw [scheduledOf_append, hsched, List.flatMap_cons]
  | contactEvent contact active mem =>
      obtain ⟨s', out, key', hrun, hinv, _, hout⟩ :=
        contactEvent_inv h hslots env contact active hmem
      have hact : ActRun P s [(env, .contactEvent contact active mem, out)] s' :=
        .cons (by exact hmem) hrun .nil
      exact ⟨s', out, _, l, key', hrun, hact, .contactEvent, hinv, ListChange.refl l, by simp⟩
  | updateRequestSv eid sv =>
      obtain ⟨s₁, p, hrun₁, _, hinv₁, harr, hp⟩ := takeRequest_inv h hslots eid sv
      have hact : (RouterAct.request eid sv).run P s env = .ok (s₁, []) := by
        simp [RouterAct.run, hrun₁, pure, Except.pure]
      cases p with
      | none =>
          refine ⟨s₁, [], [(env, .request eid sv, [])], l, key, ?_, .cons trivial hact .nil,
            .request (by simp), hinv₁, ListChange.refl l, rfl⟩
          simp [routerStep, routerUpdateRequestSv, hrun₁, pure, Except.pure]
      | some c =>
          have hc : c ∈ s₁.routerContacts := harr ▸ hp c rfl
          obtain ⟨rc, s₂, out₂, _, hrun₂, _, hinv₂, _⟩ := send_inv hinv₁ env hc
          refine ⟨s₂, out₂, [(env, .request eid sv, []), (env, .send c, out₂)], l, key, ?_,
            .cons trivial hact (.cons hc hrun₂ .nil), .request (by simp), hinv₂,
            ListChange.refl l, by simp⟩
          simp [routerStep, routerUpdateRequestSv, hrun₁, hrun₂]
  | signalTransmission rb success =>
      by_cases hinfo : routingAgentIsInfoBundle rb.destination = true
      · let sig : RouterSignal := if success then .transmissionSuccess else .transmissionFailure
        refine ⟨s, [.inform rb.id sig .noInfo], [], l, key, ?_, .nil, .reportInfo hinfo, h,
          ListChange.refl l, rfl⟩
        simp only [routerStep, routerSignalBundleTransmission, if_pos hinfo, sig]
      · have hfalse : routingAgentIsInfoBundle rb.destination = false := by simpa using hinfo
        obtain ⟨s₁, p, hrun₁, _, hinv₁, harr, hp⟩ := takeReport_inv h hslots rb
        have hact : (RouterAct.report rb).run P s env = .ok (s₁, []) := by
          simp [RouterAct.run, hrun₁, pure, Except.pure]
        cases p with
        | none =>
            refine ⟨s₁, [], [(env, .report rb, [])], l, key, ?_, .cons trivial hact .nil,
              .report hfalse (by simp), hinv₁, ListChange.refl l, rfl⟩
            simp [routerStep, routerSignalBundleTransmission, hinfo, hrun₁, pure, Except.pure]
        | some c =>
            have hc : c ∈ s₁.routerContacts := harr ▸ hp c rfl
            obtain ⟨rc, s₂, out₂, _, hrun₂, _, hinv₂, harr₂⟩ := send_inv hinv₁ env hc
            obtain ⟨out₃, hrun₃, hnone⟩ :=
              offerIfIdle_ok (P := P) hinv₂.list hinv₂.cursors env (harr₂ ▸ hc)
            refine ⟨s₂, out₂ ++ out₃, [(env, .report rb, []), (env, .send c, out₂)], l, key, ?_,
              .cons trivial hact (.cons hc hrun₂ .nil), .report hfalse (by simp), hinv₂,
              ListChange.refl l, ?_⟩
            · simp [routerStep, routerSignalBundleTransmission, hinfo, hrun₁, hrun₂, hrun₃, pure,
                Except.pure]
            · simp [scheduledOf_eq_nil fun o ho a rb => hnone o ho (some a) rb]

/-- With a hash table without slots the first contact event, request or report
fails on the assertion of the table, and the others leave the router alone. -/
theorem routerStep_noSlots {s : Router} {l : List Addr} {key : Addr → CStr}
    (h : RouterInv P s l key) (hslots : P.btMaxConn - 1 = 0) (env : Env) {op : RouterOp}
    (hmem : FreshMem s op) :
    (∃ s' out l', routerStep P s env op = .ok (s', out) ∧ RouterInv P s' l' key ∧
      ListChange l l') ∨
    (routerStep P s env op = .error .assertFailed ∧ ∀ b mem dup, op ≠ .routeBundle b mem dup) := by
  have hslots' : s.htab.slotCount = 0 := by rw [h.table.slots]; exact hslots
  have hget : ∀ k, htabGet P.hash s.htab k = .error .assertFailed := by
    intro k
    simp [htabGet, hslots', assertC, bind, Except.bind]
  cases op with
  | routeBundle b mem dup =>
      obtain ⟨s', out, l', hrun, hinv, hchange, _⟩ := route_inv h env b dup hmem
      refine Or.inl ⟨s', out, l', hrun, hinv, ?_⟩
      cases hchange with
      | same => exact ListChange.refl l
      | @appended _ a _ hfree =>
          refine ⟨l, List.Sublist.refl l, Or.inr ⟨a, fun ha => ?_, rfl⟩⟩
          obtain ⟨e, he⟩ := h.list.chain.live ha
          rw [hfree] at he
          cases he
  | update =>
      obtain ⟨s₁, out₁, l', hrun₁, hinv₁, hexp, _⟩ := expire_inv h env.now
      obtain ⟨s₂, out₂, _, hrun₂, _, _, hinv₂, _⟩ :=
        sendBundles_acts hinv₁ env fun c hc => List.mem_reverse.mp hc
      refine Or.inl ⟨s₂, out₁ ++ out₂, l', ?_, hinv₂, l', hexp.sub, Or.inl rfl⟩
      simp [routerStep, routerUpdate, hrun₁, hrun₂, pure, Except.pure]
  | contactEvent contact active mem =>
      by_cases hnone : env.eid contact = eidNone
      · refine Or.inl ⟨s, [], l, ?_, h, ListChange.refl l⟩
        simp [routerStep, routerHandleContactEvent, hnone]
      · refine Or.inr ⟨?_, by simp⟩
        simp only [routerStep, routerHandleContactEvent, if_neg hnone, hget]
        rfl
  | updateRequestSv eid sv =>
      refine Or.inr ⟨?_, by simp⟩
      simp only [routerStep, routerUpdateRequestSv, takeRequest, hget]
      rfl
  | signalTransmission rb success =>
      by_cases hinfo : routingAgentIsInfoBundle rb.destination = true
      · let sig : RouterSignal := if success then .transmissionSuccess else .transmissionFailure
        refine Or.inl ⟨s, [.inform rb.id sig .noInfo], l, ?_, h, ListChange.refl l⟩
        simp only [routerStep, routerSignalBundleTransmission, if_pos hinfo, sig]
      · refine Or.inr ⟨?_, by simp⟩
        simp only [routerStep, routerSignalBundleTransmission, if_neg hinfo, takeReport, hget]
        rfl

/-- One operation: it succeeds and keeps the invariant, or it fails because the
hash table has no slots. -/
theorem routerStep_inv {s : Router} {l : List Addr} {key : Addr → CStr}
    (h : RouterInv P s l key) (env : Env) {op : RouterOp} (hmem : FreshMem s op) :
    (∃ s' out l' key', routerStep P s env op = .ok (s', out) ∧ RouterInv P s' l' key' ∧
      ListChange l l') ∨
    (routerStep P s env op = .error .assertFailed ∧ P.btMaxConn - 1 = 0 ∧
      ∀ b mem dup, op ≠ .routeBundle b mem dup) := by
  by_cases hslots : P.btMaxConn - 1 = 0
  · rcases routerStep_noSlots h hslots env hmem with ⟨s', out, l', hrun, hinv, hch⟩ | ⟨herr, hop⟩
    · exact Or.inl ⟨s', out, l', key, hrun, hinv, hch⟩
    · exact Or.inr ⟨herr, hslots, hop⟩
  · obtain ⟨s', out, _, l', key', hrun, _, _, hinv, hch, _⟩ := routerStep_acts h hslots env hmem
    exact Or.inl ⟨s', out, l', key', hrun, hinv, hch⟩

theorem reachable_inv {s : Router} (h : RouterReachable P s) :
    ∃ l key, RouterInv P s l key := by
  induction h with
  | init => exact ⟨[], fun _ => [], routerInv_init _⟩
  | step _ hmem hstep ih =>
      obtain ⟨l, key, hinv⟩ := ih
      rcases routerStep_inv hinv _ hmem with ⟨s', out, l', key', hrun, hinv', _⟩ | ⟨herr, _⟩
      · rw [hstep] at hrun
        cases hrun
        exact ⟨l', key', hinv'⟩
      · rw [hstep] at herr
        cases herr

/-- **References of the contacts.**  In every reachable state the cursors of every
router contact are `NULL` or entries linked in the bundle list, and no operation
follows a stale or `NULL` reference or runs on without end; the only failure is
the assertion of a hash table without slots. -/
theorem reachable_cursors {s : Router} (h : RouterReachable P s) :
    (∃ l, IsSeg s.infos BundleInfo.next s.head l none ∧
      ∀ c ∈ s.routerContacts, ∃ rc, s.contacts.cells c = some rc ∧
        Refers l rc.currentBundle ∧ Refers l rc.nextBundleCandidate) ∧
    ∀ env op f, FreshMem s op → routerStep P s env op = .error f →
      f = .assertFailed ∧ P.btMaxConn - 1 = 0 := by
  obtain ⟨l, key, hinv⟩ := reachable_inv h
  refine ⟨⟨l, hinv.list.chain, hinv.cursors⟩, ?_⟩
  intro env op f hmem hf
  rcases routerStep_inv hinv env hmem with ⟨s', out, _, _, hrun, _⟩ | ⟨herr, hslots, _⟩
  · rw [hf] at hrun
    cases hrun
  · rw [hf] at herr
    cases herr
    exact ⟨rfl, hslots⟩

/-- A configuration for two contacts and one replica. -/
def demoParams : RouterParams := ⟨3, 1, false, "dtn://me".toList, fun _ => 0⟩

/-- An environment with two contacts that accept everything. -/
def demoEnv : Env where
  now := 5
  eid c := if c = 0 then "dtn://a".toList else "dtn://b".toList
  sendOk _ := true
  infoOk := true
  svOk := true

/-- A locally sourced bundle for direct transmission. -/
def demoBundle : RouteBundle :=
  ⟨7, "dtn://me/x".toList, "dtn://source/y".toList, 42, .normal, 100, 50⟩

/-- A contact comes up, a bundle is routed, and the contact requests it. -/
theorem demo_sending : ∃ s, RouterReachable demoParams s ∧ s.routerContacts = [0] ∧
    s.head = some 0 ∧ (s.contacts.cells 0).map (·.currentBundle) = some (some 0) := by
  have h₁ : ∃ s out, routerStep demoParams (routerInit demoParams) demoEnv
      (.contactEvent 0 true (some 0)) = .ok (s, out) ∧ s.infos.cells 0 = none ∧
      ∃ s' out', routerStep demoParams s demoEnv (.routeBundle demoBundle (some 0) true) =
        .ok (s', out') ∧
      ∃ s'' out'', routerStep demoParams s' demoEnv
        (.updateRequestSv "dtn://a".toList [42]) = .ok (s'', out'') ∧
        s''.routerContacts = [0] ∧ s''.head = some 0 ∧
        (s''.contacts.cells 0).map (·.currentBundle) = some (some 0) :=
    ⟨_, _, rfl, rfl, _, _, rfl, _, _, rfl, rfl, rfl, rfl⟩
  obtain ⟨s, out, hs, hfree, s', out', hs', s'', out'', hs'', hres⟩ := h₁
  refine ⟨s'', ?_, hres⟩
  have hreach : RouterReachable demoParams s := .step .init (by intro c _; rfl) hs
  have hreach' : RouterReachable demoParams s' :=
    .step hreach (by intro a ha; cases ha; exact hfree) hs'
  exact .step hreach' (by trivial) hs''

/-- The references while a bundle is being sent. -/
theorem reachable_cursors_sending : ∃ s, RouterReachable demoParams s ∧
    (s.contacts.cells 0).map (·.currentBundle) = some (some 0) ∧
    (∃ l, IsSeg s.infos BundleInfo.next s.head l none ∧
      ∀ c ∈ s.routerContacts, ∃ rc, s.contacts.cells c = some rc ∧
        Refers l rc.currentBundle ∧ Refers l rc.nextBundleCandidate) ∧
    ∀ env op f, FreshMem s op → routerStep demoParams s env op = .error f →
      f = .assertFailed ∧ demoParams.btMaxConn - 1 = 0 := by
  obtain ⟨s, hreach, _, _, hcur⟩ := demo_sending
  exact ⟨s, hreach, hcur, reachable_cursors hreach⟩

/-- **The bundle list.**  In every reachable state the list ends, its tail is its
last entry, head and tail are `NULL` exactly if it is empty, and its summary vector
entries are distinct; routing never fails, in particular not on an assertion; and
the entries that survive an operation keep their order. -/
theorem reachable_bundle_list {s : Router} (h : RouterReachable P s) :
    ∃ l, ListInv s l ∧ (s.head = none ↔ l = []) ∧ (s.tail = none ↔ l = []) ∧
      (∀ env b mem dup, FreshMem s (.routeBundle b mem dup) →
        ∃ r, routerStep P s env (.routeBundle b mem dup) = .ok r) ∧
      ∀ env op s' out, FreshMem s op → routerStep P s env op = .ok (s', out) →
        ∃ l', ListInv s' l' ∧ ListChange l l' := by
  obtain ⟨l, key, hinv⟩ := reachable_inv h
  refine ⟨l, hinv.list, ?_, ?_, ?_, ?_⟩
  · cases l with
    | nil => exact ⟨fun _ => rfl, fun _ => hinv.list.chain⟩
    | cons a l => simp [hinv.list.chain.1]
  · rw [hinv.list.tail]
    exact List.getLast?_eq_none_iff
  · intro env b mem dup hmem
    rcases routerStep_inv hinv env hmem with ⟨s', out, _, _, hrun, _⟩ | ⟨_, _, hop⟩
    · exact ⟨_, hrun⟩
    · exact absurd rfl (hop b mem dup)
  · intro env op s' out hmem hstep
    rcases routerStep_inv hinv env hmem with ⟨s'', out', l', key', hrun, hinv', hch⟩ | ⟨herr, _⟩
    · rw [hstep] at hrun
      cases hrun
      exact ⟨l', hinv'.list, hch⟩
    · rw [hstep] at herr
      cases herr

/-- The list while a bundle is being sent. -/
theorem reachable_bundle_list_sending : ∃ s, RouterReachable demoParams s ∧ s.head = some 0 ∧
    ∃ l, ListInv s l ∧ (s.head = none ↔ l = []) ∧ (s.tail = none ↔ l = []) ∧
      (∀ env b mem dup, FreshMem s (.routeBundle b mem dup) →
        ∃ r, routerStep demoParams s env (.routeBundle b mem dup) = .ok r) ∧
      ∀ env op s' out, FreshMem s op → routerStep demoParams s env op = .ok (s', out) →
        ∃ l', ListInv s' l' ∧ ListChange l l' := by
  obtain ⟨s, hreach, _, hhead, _⟩ := demo_sending
  exact ⟨s, hreach, hhead, reachable_bundle_list hreach⟩

end EpidemicRouter
