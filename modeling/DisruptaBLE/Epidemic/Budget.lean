import DisruptaBLE.Epidemic.RouterRuns

/-!
# The replication budget

A locally sourced bundle for direct transmission is granted a number of replicas.
The router reads the number when it offers and sends, but lowers it only when a
later request of a contact leaves the bundle out.

A run is accompanied by a ledger for every list entry: what was granted, for
which contacts other than the destination the entry was scheduled, and which of
them have since sent a request without it.  `two_contacts_exceed_budget` is a run
that schedules a bundle with one replica for two contacts;
`careful_run_within_budget` says that the budget is kept in every run in which a
bundle is scheduled for a further contact only while the transmissions that are
not accounted for yet are fewer than the pending ones.
-/

namespace EpidemicRouter

open PtrHeap

variable {P : RouterParams}

/-- Whether an EID is that of the node to which a destination belongs. -/
def isDestinationNode (destination eid : CStr) : Bool :=
  destination = eid || (eid ++ ['/']).isPrefixOf destination

/-- What is recorded about an entry. -/
structure Ledger where
  /-- the granted replicas, if they are limited -/
  budget : Option Nat
  /-- the contacts for which it was scheduled, other than the destination -/
  sched : List CStr
  /-- those of them that have since sent a request without it -/
  settled : List CStr

/-- The replicas granted to a bundle: a finite number for a locally sourced bundle
for direct transmission, if the configuration sets one. -/
def grantedReplicas (P : RouterParams) (b : RouteBundle) : Option Nat :=
  if strstr b.destination epidemicDestination then none
  else if strstr b.destination directTransmissionDestination && strstr b.source P.localEid &&
      decide (0 ≤ P.replicas) then some P.replicas.toNat
  else none

/-- The entry is scheduled for a contact. -/
def Ledger.schedule (destination eid : CStr) (L : Ledger) : Ledger :=
  if isDestinationNode destination eid || L.sched.contains eid then L
  else { L with sched := eid :: L.sched }

/-- A request of a contact leaves the entry out. -/
def Ledger.settle (eid : CStr) (L : Ledger) : Ledger :=
  if L.sched.contains eid && !L.settled.contains eid then { L with settled := eid :: L.settled }
  else L

/-- Whether a request of this EID leaves out an entry that the previous one had. -/
def dropped (P : RouterParams) (s : Router) (eid : CStr) (sv : List SvEntry) (e : BundleInfo) :
    Bool :=
  match (s.htab.lookup P.hash eid).bind s.contacts.cells with
  | some { requestSv := some old, .. } => old.contains e.svEntry && !sv.contains e.svEntry
  | _ => false

/-- The ledgers after an act that led from `s` to `s'`. -/
def record (P : RouterParams) (s s' : Router) (act : RouterAct) (out : List Output)
    (led : Addr → Ledger) : Addr → Ledger :=
  match act with
  | .route b (some a) _ =>
      if (s'.infos.cells a).isSome then Function.update led a ⟨grantedReplicas P b, [], []⟩ else led
  | .send _ =>
      (scheduledOf out).foldl (fun led x =>
        match s.infos.cells x.1 with
        | some e => Function.update led x.1 ((led x.1).schedule e.destination x.2.destination)
        | none => led) led
  | .request eid sv => fun a =>
      match s.infos.cells a with
      | some e => if dropped P s eid sv e then (led a).settle eid else led a
      | none => led a
  | _ => led

/-- A sequence of acts, each of which satisfies `Q`, with the ledgers. -/
inductive LedgerActs (P : RouterParams)
    (Q : Router → (Addr → Ledger) → Env → RouterAct → Prop) :
    Router → (Addr → Ledger) → List (Env × RouterAct × List Output) → Router →
      (Addr → Ledger) → Prop where
  | nil {s : Router} {led : Addr → Ledger} : LedgerActs P Q s led [] s led
  | cons {s s' s'' : Router} {led led' : Addr → Ledger} {env : Env} {act : RouterAct}
      {out : List Output} {tr : List (Env × RouterAct × List Output)} :
      act.Enabled s → act.run P s env = .ok (s', out) → Q s led env act →
      LedgerActs P Q s' (record P s s' act out led) tr s'' led' →
      LedgerActs P Q s led ((env, act, out) :: tr) s'' led'

/-- A run of the router with its ledgers, in which each act satisfies `Q`. -/
inductive LedgerRun (P : RouterParams)
    (Q : Router → (Addr → Ledger) → Env → RouterAct → Prop) :
    Router → (Addr → Ledger) → Prop where
  | init : LedgerRun P Q (routerInit P) (fun _ => ⟨none, [], []⟩)
  | op {s s' : Router} {led led' : Addr → Ledger} {env : Env} {op : RouterOp}
      {out : List Output} {tr : List (Env × RouterAct × List Output)} :
      LedgerRun P Q s led → FreshMem s op → routerStep P s env op = .ok (s', out) →
      OpActs env op tr → LedgerActs P Q s led tr s' led' →
      scheduledOf out = (tr.flatMap fun x => scheduledOf x.2.2) → LedgerRun P Q s' led'

/-- Every sequence of acts has its ledgers. -/
theorem ledgerActs_of_actRun {s s' : Router} {tr : List (Env × RouterAct × List Output)}
    (h : ActRun P s tr s') (led : Addr → Ledger) :
    ∃ led', LedgerActs P (fun _ _ _ _ => True) s led tr s' led' := by
  induction h generalizing led with
  | nil => exact ⟨led, .nil⟩
  | cons hen hrun _ ih =>
      obtain ⟨led', hled⟩ := ih (record P _ _ _ _ led)
      exact ⟨led', .cons hen hrun trivial hled⟩

/-- Every reachable state is reached by a run with ledgers. -/
theorem ledgerRun_of_reachable (hslots : P.btMaxConn - 1 ≠ 0) {s : Router}
    (h : RouterReachable P s) : ∃ led, LedgerRun P (fun _ _ _ _ => True) s led := by
  induction h with
  | init => exact ⟨_, .init⟩
  | @step s s' env op out hreach hmem hstep ih =>
      obtain ⟨led, hled⟩ := ih
      obtain ⟨l, key, hinv⟩ := reachable_inv hreach
      obtain ⟨s'', out', tr, _, _, hrun, hacts, hop, _, _, hsched⟩ :=
        routerStep_acts hinv hslots env hmem
      rw [hstep] at hrun
      cases hrun
      obtain ⟨led', hled'⟩ := ledgerActs_of_actRun hacts led
      exact ⟨led', .op hled hmem hstep hop hled' hsched⟩

/-- **The condition.**  When `send_bundles_to_contact` is about to schedule an entry
with a finite budget for a contact that is not its destination and for which it
was not scheduled before, the transmissions to other contacts that are not
accounted for yet are fewer than the pending ones. -/
def Careful (s : Router) (led : Addr → Ledger) (env : Env) : RouterAct → Prop
  | .send c => ∀ rc sv a e, s.contacts.cells c = some rc → rc.requestSv = some sv →
      rc.currentBundle = none → env.sendOk c = true →
      findCandidate s.infos env.now (env.eid rc.contact) sv (s.infos.bound + 1)
        rc.nextBundleCandidate = .ok (some a) →
      s.infos.cells a = some e → (led a).budget.isSome →
      isDestinationNode e.destination (env.eid rc.contact) = false →
      env.eid rc.contact ∉ (led a).sched →
      (led a).sched.length < (led a).settled.length + e.numPendingTransmissions.toNat
  | _ => True

/-! ## The budget is kept -/

/-- The invariant: nobody got more than was granted, and what is pending was
granted and not yet used by a contact that is accounted for. -/
structure BudgetInv (s : Router) (l : List Addr) (led : Addr → Ledger) : Prop where
  nodup : ∀ a, (led a).sched.Nodup
  settled : ∀ a, (led a).settled.Nodup ∧ (led a).settled ⊆ (led a).sched
  bound : ∀ a R, (led a).budget = some R → (led a).sched.length ≤ R
  pending : ∀ a ∈ l, ∀ e R, s.infos.cells a = some e → (led a).budget = some R →
    e.numPendingTransmissions ≠ 0 →
    (led a).settled.length + e.numPendingTransmissions.toNat ≤ R

theorem initialTransmissions_le {b : RouteBundle} {R : Nat}
    (h : grantedReplicas P b = some R) : (initialTransmissions P b).toNat ≤ R := by
  unfold grantedReplicas at h
  split at h
  · cases h
  · next hepi =>
    split at h
    · next hdirect =>
      simp only [Bool.and_eq_true, decide_eq_true_eq] at hdirect
      obtain ⟨⟨hdir, hlocal⟩, hpos⟩ := hdirect
      have hne : P.replicas ≠ -1 := by omega
      have hR := Option.some.inj h
      have hinit : initialTransmissions P b = UInt64.ofInt P.replicas := by
        simp [initialTransmissions, hepi, hne, hdir, hlocal]
      have hmod : P.replicas % 2 ^ 64 ≤ P.replicas := by omega
      rw [hinit, UInt64.ofInt, UInt64.toNat_ofNat']
      have hle := Nat.mod_le (P.replicas % 2 ^ 64).toNat (2 ^ 64)
      omega
    · cases h

/-- Ledgers and budgets do not depend on links. -/
theorem BudgetInv.frame {s s' : Router} {l l' : List Addr} {led : Addr → Ledger}
    (h : BudgetInv s l led) (hsub : ∀ a ∈ l', a ∈ l)
    (hlive : ∀ a ∈ l, ∃ e, s.infos.cells a = some e)
    (hsame : ∀ a ∈ l', ∀ e, s.infos.cells a = some e →
      ∃ n, s'.infos.cells a = some { e with next := n }) : BudgetInv s' l' led := by
  refine ⟨h.nodup, h.settled, h.bound, ?_⟩
  intro a ha e R he hR hpos
  obtain ⟨e₀, he₀⟩ := hlive a (hsub a ha)
  obtain ⟨n, hn⟩ := hsame a ha e₀ he₀
  obtain rfl : _ = e := Option.some.inj (hn.symm.trans he)
  exact h.pending a (hsub a ha) e₀ R he₀ hR hpos

/-- Admission: the new entry has its whole budget. -/
theorem BudgetInv.takes {s s' : Router} {l : List Addr} {led : Addr → Ledger} {a : Addr}
    {b : RouteBundle} (h : BudgetInv s l led) (hl : ListInv s l)
    (hfree : s.infos.cells a = none) (hnew : s'.infos.cells a = some (bundleInfo P b))
    (hsame : ∀ x ∈ l, ∀ e, s.infos.cells x = some e →
      ∃ n, s'.infos.cells x = some { e with next := n }) :
    BudgetInv s' (l ++ [a]) (Function.update led a ⟨grantedReplicas P b, [], []⟩) := by
  have hal : a ∉ l := by
    intro ha
    obtain ⟨e, he⟩ := hl.chain.live ha
    rw [hfree] at he
    cases he
  have hold := h.frame (fun _ hx => hx) (fun _ hx => hl.chain.live hx) hsame
  refine ⟨?_, ?_, ?_, ?_⟩
  · intro x
    by_cases hxa : x = a
    · simp [hxa]
    · rw [Function.update_of_ne hxa]
      exact h.nodup x
  · intro x
    by_cases hxa : x = a
    · simp [hxa]
    · rw [Function.update_of_ne hxa]
      exact h.settled x
  · intro x R hR
    by_cases hxa : x = a
    · simp [hxa]
    · rw [Function.update_of_ne hxa] at hR ⊢
      exact h.bound x R hR
  · intro x hx e R he hR hpos
    by_cases hxa : x = a
    · subst hxa
      obtain rfl : bundleInfo P b = e := Option.some.inj (hnew.symm.trans he)
      rw [Function.update_self] at hR ⊢
      simpa [bundleInfo] using initialTransmissions_le hR
    · have hxl : x ∈ l := by simpa [hxa] using hx
      rw [Function.update_of_ne hxa] at hR ⊢
      exact hold.pending x hxl e R he hR hpos

/-- Scheduling: a further contact fits into what is pending. -/
theorem BudgetInv.scheduled {s : Router} {l : List Addr} {led : Addr → Ledger} {a : Addr}
    {e : BundleInfo} {eid : CStr} (h : BudgetInv s l led) (ha : a ∈ l)
    (he : s.infos.cells a = some e)
    (hcareful : (led a).budget.isSome → isDestinationNode e.destination eid = false →
      eid ∉ (led a).sched →
      (led a).sched.length < (led a).settled.length + e.numPendingTransmissions.toNat) :
    BudgetInv s l (Function.update led a ((led a).schedule e.destination eid)) := by
  by_cases hold : isDestinationNode e.destination eid = true ∨ eid ∈ (led a).sched
  · have hsame : (led a).schedule e.destination eid = led a := by
      simp [Ledger.schedule, hold]
    rwa [hsame, Function.update_eq_self]
  · have hdest : isDestinationNode e.destination eid = false := by
      rw [← Bool.not_eq_true]
      exact fun h => hold (Or.inl h)
    have hnew : eid ∉ (led a).sched := fun h => hold (Or.inr h)
    have hsched : (led a).schedule e.destination eid =
        { led a with sched := eid :: (led a).sched } := by
      simp [Ledger.schedule, hdest, hnew]
    rw [hsched]
    refine ⟨?_, ?_, ?_, ?_⟩
    · intro x
      by_cases hxa : x = a
      · subst hxa
        rw [Function.update_self]
        exact List.nodup_cons.mpr ⟨hnew, h.nodup x⟩
      · rw [Function.update_of_ne hxa]
        exact h.nodup x
    · intro x
      by_cases hxa : x = a
      · subst hxa
        rw [Function.update_self]
        exact ⟨(h.settled x).1, fun y hy => List.mem_cons_of_mem _ ((h.settled x).2 hy)⟩
      · rw [Function.update_of_ne hxa]
        exact h.settled x
    · intro x R hR
      by_cases hxa : x = a
      · subst hxa
        rw [Function.update_self] at hR ⊢
        have hR : (led x).budget = some R := hR
        have hlt := hcareful (by simp [hR]) hdest hnew
        have hpos : e.numPendingTransmissions ≠ 0 := by
          intro h0
          have hsub := ((h.settled x).1.subperm (h.settled x).2).length_le
          simp only [h0, UInt64.toNat_zero] at hlt
          omega
        have hle := h.pending x ha e R he hR hpos
        simp only [List.length_cons]
        omega
      · rw [Function.update_of_ne hxa] at hR ⊢
        exact h.bound x R hR
    · intro x hx f R hf hR hpos
      by_cases hxa : x = a
      · subst hxa
        rw [Function.update_self] at hR ⊢
        exact h.pending x hx f R hf hR hpos
      · rw [Function.update_of_ne hxa] at hR ⊢
        exact h.pending x hx f R hf hR hpos

/-- Charging an entry that stays pending: it was pending before, and it lost one
transmission if the request left it out. -/
theorem charge_pending {old new : List SvEntry} {e : BundleInfo}
    (hpos : (e.charge old new).numPendingTransmissions ≠ 0) :
    e.numPendingTransmissions ≠ 0 ∧
    ((old.contains e.svEntry && !new.contains e.svEntry) = true →
      (e.charge old new).numPendingTransmissions.toNat + 1 = e.numPendingTransmissions.toNat) ∧
    ((old.contains e.svEntry && !new.contains e.svEntry) = false →
      (e.charge old new).numPendingTransmissions = e.numPendingTransmissions) := by
  unfold BundleInfo.charge at *
  by_cases hpend : 0 < e.numPendingTransmissions
  · have hlt : 0 < e.numPendingTransmissions.toNat := UInt64.lt_iff_toNat_lt.mp hpend
    have hne : e.numPendingTransmissions ≠ 0 := by
      intro h0
      rw [h0] at hlt
      exact absurd hlt (by decide)
    have hone : (1 : UInt64) ≤ e.numPendingTransmissions := UInt64.le_iff_toNat_le.mpr hlt
    have hsub : (e.numPendingTransmissions - 1).toNat = e.numPendingTransmissions.toNat - 1 :=
      UInt64.toNat_sub_of_le _ _ hone
    refine ⟨hne, ?_, ?_⟩
    · intro hdrop
      simp only [hdrop, hpend, decide_true, Bool.and_self, if_true, hsub]
      omega
    · intro hkeep
      simp only [hkeep, Bool.false_and, Bool.false_eq_true, if_false]
  · simp only [hpend, decide_false, Bool.and_false, Bool.false_eq_true, if_false] at hpos ⊢
    refine absurd ?_ hpos
    apply UInt64.toNat_inj.mp
    have hz : ¬ 0 < e.numPendingTransmissions.toNat := fun h =>
      hpend (UInt64.lt_iff_toNat_lt.mpr h)
    exact Nat.eq_zero_of_not_pos hz

/-- A request settles at most one transmission of an entry for each that it takes
from the pending ones. -/
theorem BudgetInv.charged {s s' : Router} {l : List Addr} {led : Addr → Ledger} {eid : CStr}
    {sv : List SvEntry} {p : Ptr} (h : BudgetInv s l led)
    (hlive : ∀ a ∈ l, ∃ e, s.infos.cells a = some e)
    (hchange : RequestChange P s l eid sv s' p) :
    BudgetInv s' l (record P s s' (.request eid sv) [] led) := by
  have hled : ∀ a, record P s s' (.request eid sv) [] led a = led a ∨
      record P s s' (.request eid sv) [] led a = (led a).settle eid := by
    intro a
    simp only [record]
    split
    · split
      · exact Or.inr rfl
      · exact Or.inl rfl
    · exact Or.inl rfl
  have hsettle : ∀ L : Ledger, (L.settle eid).budget = L.budget ∧
      (L.settle eid).sched = L.sched := by
    intro L
    unfold Ledger.settle
    split <;> exact ⟨rfl, rfl⟩
  have hfields : ∀ a, (record P s s' (.request eid sv) [] led a).budget = (led a).budget ∧
      (record P s s' (.request eid sv) [] led a).sched = (led a).sched := by
    intro a
    rcases hled a with heq | heq
    · rw [heq]
      exact ⟨rfl, rfl⟩
    · rw [heq]
      exact hsettle (led a)
  refine ⟨?_, ?_, ?_, ?_⟩
  · intro a
    rw [(hfields a).2]
    exact h.nodup a
  · intro a
    rw [(hfields a).2]
    rcases hled a with heq | heq
    · rw [heq]
      exact h.settled a
    · rw [heq]
      unfold Ledger.settle
      split
      · next hcond =>
        simp only [Bool.and_eq_true, List.contains_iff_mem, Bool.not_eq_true'] at hcond
        obtain ⟨hmem, hnot⟩ := hcond
        have hnot' : eid ∉ (led a).settled := by simpa using hnot
        refine ⟨List.nodup_cons.mpr ⟨hnot', (h.settled a).1⟩, ?_⟩
        intro x hx
        rcases List.mem_cons.mp hx with rfl | hx
        · exact hmem
        · exact (h.settled a).2 hx
      · exact h.settled a
  · intro a R hR
    rw [(hfields a).1] at hR
    rw [(hfields a).2]
    exact h.bound a R hR
  · intro a ha e R he hR hpos
    rw [(hfields a).1] at hR
    obtain ⟨e₀, he₀⟩ := hlive a ha
    have hold := h.pending a ha e₀ R he₀ hR
    have hlen : ((led a).settle eid).settled.length ≤ (led a).settled.length + 1 := by
      unfold Ledger.settle
      split <;> simp
    have hrec : record P s s' (.request eid sv) [] led a =
        if dropped P s eid sv e₀ then (led a).settle eid else led a := by
      simp only [record, he₀]
    cases hchange with
    | unknown hlook =>
        obtain rfl : e₀ = e := Option.some.inj (he₀.symm.trans he)
        have hnot : dropped P s eid sv e₀ = false := by simp [dropped, hlook]
        rw [hrec, hnot]
        exact hold hpos
    | @stored infos c rc p hlook hrc _ hcells =>
        have hcharged : infos.cells a = some e := he
        rw [hcells a, if_pos ha, he₀, Option.map_some] at hcharged
        obtain rfl := Option.some.inj hcharged
        have hdropped : dropped P s eid sv e₀ = match rc.requestSv with
            | some old => old.contains e₀.svEntry && !sv.contains e₀.svEntry
            | none => false := by
          obtain ⟨_, _, _, _, req⟩ := rc
          simp only [dropped, hlook, Option.bind_some, hrc]
          cases req <;> rfl
        rw [hrec, hdropped]
        cases hreq : rc.requestSv with
        | none =>
            rw [hreq] at hpos
            exact hold hpos
        | some old =>
            rw [hreq] at hpos
            obtain ⟨hne, hcharge, hkeep⟩ := charge_pending hpos
            have hle := hold hne
            simp only [chargedBy] at hcharge hkeep ⊢
            by_cases hdrop : (old.contains e₀.svEntry && !sv.contains e₀.svEntry) = true
            · have hone := hcharge hdrop
              rw [if_pos hdrop]
              omega
            · rw [if_neg hdrop, hkeep (by simpa using hdrop)]
              exact hle

/-- One act whose sends are careful keeps the budgets. -/
theorem budget_act {s s' : Router} {l : List Addr} {key : Addr → CStr} {led : Addr → Ledger}
    {env : Env} {act : RouterAct} {out : List Output} (h : RouterInv P s l key)
    (hb : BudgetInv s l led) (hen : act.Enabled s) (hrun : act.run P s env = .ok (s', out))
    (hcareful : Careful s led env act) :
    ∃ l' key', RouterInv P s' l' key' ∧ BudgetInv s' l' (record P s s' act out led) := by
  have hlive : ∀ a ∈ l, ∃ e, s.infos.cells a = some e := fun a ha => h.list.chain.live ha
  obtain ⟨l', key', hinv, hchange⟩ := act_change h hen hrun
  refine ⟨l', key', hinv, ?_⟩
  cases hchange with
  | @route b mem dup _ _ _ hfree hroute _ =>
      cases hroute with
      | same =>
          cases mem with
          | none => exact hb
          | some a => simpa [record, hfree a rfl] using hb
      | @appended _ a hmem hfree hnew hkept _ _ _ _ =>
          have hled := hb.takes (P := P) h.list hfree hnew hkept
          simpa [record, hmem, hnew] using hled
  | expire hexp _ =>
      exact hb.frame (fun _ ha => hexp.sub.subset ha) hlive hexp.kept
  | @send c rc _ _ _ hrc hres _ =>
      cases hres with
      | idle _ => exact hb
      | moved _ _ => exact hb.frame (fun _ ha => ha) hlive fun _ _ e he => ⟨e.next, he⟩
      | @sent sv a e hsv hcur ha he _ hok hfind _ =>
          have hb' : BudgetInv (s.setContact c
              { rc with currentBundle := some a, nextBundleCandidate := e.next }) l led :=
            hb.frame (fun _ ha => ha) hlive fun _ _ e he => ⟨e.next, he⟩
          have hled := hb'.scheduled (e := e) ha he
            (hcareful rc sv a e hrc hsv hcur hok hfind he)
          simpa [record, scheduledOf, he, routedBundle] using hled
  | contactEvent hcontact _ =>
      refine hb.frame (fun _ ha => ha) hlive ?_
      intro a _ e he
      cases hcontact with
      | same _ => exact ⟨e.next, he⟩
      | added _ _ _ _ _ _ hinf _ _ => exact ⟨e.next, hinf ▸ he⟩
      | removed _ _ _ _ _ hinf _ _ => exact ⟨e.next, hinf ▸ he⟩
  | request hreq _ => exact hb.charged hlive hreq
  | report hrep _ =>
      refine hb.frame (fun _ ha => ha) hlive ?_
      intro a _ e he
      cases hrep with
      | ignored _ => exact ⟨e.next, he⟩
      | finished _ _ _ _ _ => exact ⟨e.next, he⟩

/-- The budgets along a sequence of careful acts. -/
theorem budget_acts {s s' : Router} {l : List Addr} {key : Addr → CStr} {led led' : Addr → Ledger}
    {tr : List (Env × RouterAct × List Output)} (hacts : LedgerActs P Careful s led tr s' led')
    (h : RouterInv P s l key) (hb : BudgetInv s l led) :
    ∃ l' key', RouterInv P s' l' key' ∧ BudgetInv s' l' led' := by
  induction hacts generalizing l key with
  | nil => exact ⟨l, key, h, hb⟩
  | cons hen hrun hcareful _ ih =>
      obtain ⟨l₁, key₁, h₁, hb₁⟩ := budget_act h hb hen hrun hcareful
      exact ih h₁ hb₁

theorem budget_run {s : Router} {led : Addr → Ledger} (hrun : LedgerRun P Careful s led) :
    ∃ l key, RouterInv P s l key ∧ BudgetInv s l led := by
  induction hrun with
  | init =>
      refine ⟨[], fun _ => [], routerInv_init _, ?_, ?_, ?_, ?_⟩
      · intro a
        exact List.nodup_nil
      · intro a
        exact ⟨List.nodup_nil, List.Subset.refl _⟩
      · intro a R hR
        cases hR
      · intro a ha
        cases ha
  | op _ _ _ _ hacts _ ih =>
      obtain ⟨l, key, h, hb⟩ := ih
      exact budget_acts hacts h hb

/-- **The budget.**  In every run whose sends are careful, every entry is scheduled
for at most as many distinct contacts other than its destination as replicas were
granted to it. -/
theorem careful_run_within_budget {s : Router} {led : Addr → Ledger}
    (hrun : LedgerRun P Careful s led) (a : Addr) {R : Nat} (hR : (led a).budget = some R) :
    (led a).sched.Nodup ∧ (led a).sched.length ≤ R := by
  obtain ⟨l, key, _, hb⟩ := budget_run hrun
  exact ⟨hb.nodup a, hb.bound a R hR⟩

theorem LedgerRun.next {Q : Router → (Addr → Ledger) → Env → RouterAct → Prop} {s s' : Router}
    {led led' : Addr → Ledger} {out : List Output} (h : LedgerRun P Q s led) (env : Env)
    (op : RouterOp) (tr : List (Env × RouterAct × List Output)) (hmem : FreshMem s op)
    (hstep : routerStep P s env op = .ok (s', out)) (hop : OpActs env op tr)
    (hacts : LedgerActs P Q s led tr s' led')
    (hsched : scheduledOf out = tr.flatMap fun x => scheduledOf x.2.2) : LedgerRun P Q s' led' :=
  .op h hmem hstep hop hacts hsched

/-- The acts of a request that is answered at once. -/
theorem opActs_answered (env : Env) (eid : CStr) (sv : List SvEntry) (c : Addr)
    (out out' : List Output) : OpActs env (.updateRequestSv eid sv)
      [(env, .request eid sv, out), (env, .send c, out')] :=
  .request (by simp)

/-- Two contacts are there and a bundle with one replica has been routed. -/
def demoAdmitted : Router :=
  let ops : List RouterOp := [.contactEvent 0 true (some 0), .contactEvent 1 true (some 1),
    .routeBundle demoBundle (some 0) true]
  let run := ops.foldlM (fun s op => Prod.fst <$> routerStep demoParams s demoEnv op)
    (routerInit demoParams)
  run.toOption.getD (routerInit demoParams)

def demoLedger : Addr → Ledger :=
  Function.update (fun _ => ⟨none, [], []⟩) 0 ⟨some 1, [], []⟩

theorem demo_admitted {Q : Router → (Addr → Ledger) → Env → RouterAct → Prop}
    (hquiet : ∀ s led env act, (∀ c, act ≠ .send c) → Q s led env act) :
    LedgerRun demoParams Q demoAdmitted demoLedger := by
  have hup := LedgerRun.init.next (P := demoParams) (Q := Q) demoEnv
    (.contactEvent 0 true (some 0)) [(_, _, _)] (by intro c _; rfl) rfl .contactEvent
    (.cons (by intro c _; rfl) rfl (hquiet _ _ _ _ (by simp)) .nil) rfl
  have hboth := hup.next demoEnv
    (.contactEvent 1 true (some 1)) [(_, _, _)] (by intro c hc; cases hc; rfl) rfl .contactEvent
    (.cons (by intro c hc; cases hc; rfl) rfl (hquiet _ _ _ _ (by simp)) .nil) rfl
  exact hboth.next demoEnv
    (.routeBundle demoBundle (some 0) true) [(_, _, _)] (by intro c hc; cases hc; rfl) rfl .route
    (.cons (by intro c hc; cases hc; rfl) rfl (hquiet _ _ _ _ (by simp)) .nil) rfl

/-- A careful run: the bundle goes to the first contact. -/
theorem careful_run_within_budget_one_contact : ∃ s led, LedgerRun demoParams Careful s led ∧
    (led 0).budget = some 1 ∧ (led 0).sched = ["dtn://a".toList] ∧
    (led 0).sched.Nodup ∧ (led 0).sched.length ≤ 1 := by
  have hrun : ∃ s led, LedgerRun demoParams Careful s led ∧ (led 0).budget = some 1 ∧
      (led 0).sched = ["dtn://a".toList] := by
    have hquiet : ∀ s led env act, (∀ c, act ≠ .send c) → Careful s led env act := by
      intro s led env act hact
      cases act with
      | send c => exact absurd rfl (hact c)
      | _ => trivial
    refine ⟨_, _, (demo_admitted hquiet).next demoEnv (.updateRequestSv "dtn://a".toList [42]) _
      (by trivial) rfl (opActs_answered _ _ _ 0 _ _) (.cons (by trivial) rfl (by trivial)
        (.cons (by exact List.mem_cons_self) rfl ?_ .nil)) rfl, rfl, rfl⟩
    intro rc sv a e hrc hsv _ _ hfind he _ _ _
    cases hrc
    cases hsv
    cases hfind
    cases he
    decide
  obtain ⟨s, led, hrun, hR, hsched⟩ := hrun
  exact ⟨s, led, hrun, hR, hsched, careful_run_within_budget hrun 0 hR⟩

/-- **The budget can be exceeded.**  Two contacts request the same bundle, of which one
replica may be sent, and it is scheduled for both. -/
theorem two_contacts_exceed_budget :
    ¬ ∀ s led, LedgerRun demoParams (fun _ _ _ _ => True) s led → ∀ a R,
      (led a).budget = some R → (led a).sched.length ≤ R := by
  intro hbound
  have hrun : ∃ s led, LedgerRun demoParams (fun _ _ _ _ => True) s led ∧
      (led 0).budget = some 1 ∧ (led 0).sched.length = 2 := by
    have hfirst := (demo_admitted (fun _ _ _ _ _ => trivial)).next demoEnv
      (.updateRequestSv "dtn://a".toList [42]) _ (by trivial) rfl (opActs_answered _ _ _ 0 _ _)
      (.cons (by trivial) rfl trivial (.cons (by exact List.mem_cons_self) rfl trivial .nil)) rfl
    exact ⟨_, _, hfirst.next demoEnv
      (.updateRequestSv "dtn://b".toList [42]) _ (by trivial) rfl (opActs_answered _ _ _ 1 _ _)
      (.cons (by trivial) rfl trivial
        (.cons (by exact List.mem_cons_of_mem _ List.mem_cons_self) rfl trivial .nil)) rfl,
      rfl, rfl⟩
  obtain ⟨s, led, hrun, hR, hlen⟩ := hrun
  have hle := hbound s led hrun 0 1 hR
  omega

end EpidemicRouter
