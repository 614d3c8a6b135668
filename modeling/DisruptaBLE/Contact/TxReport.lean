import DisruptaBLE.Contact.Router
import DisruptaBLE.Processor.Handlers

/-!
# Reports about a bundle that is sent over several contacts

`cla_contact_tx_task` of `components/cla/cla_contact_tx_task.c`, and the cases of `process_signal`
of `components/routing/contact/router_task.c` for the signals that it sends.

A routed bundle has an entry with every contact that it was added to.  The TX tasks count the
entries that they took, and the ones that they could send, in the routed bundle itself, and send a
pointer to it along.  The router task does not count the signals: it reads the counters, which may
have moved on since the signal was sent.  So the signal that finds all entries counted is the last
one only if no earlier signal was still in the queue when the last entry was taken
(`transmission_report`).  With a single contact there is no earlier signal, and with two of them the
tasks can be scheduled in the wrong order (`reported_in_any_order_iff`).
-/

namespace ContactRouter

open BundleProcessor (BundleSignal)

/-! ## Definitions -/

/-- `struct routed_bundle`, with what the transmission counts. -/
structure CountedBundle extends RoutedBundle where
  contactCount : UInt8
  transmitted : UInt8
  serialized : UInt8

/-- The signals of a TX task to the router task. -/
inductive TransmissionSignal where
  | transmissionSuccess
  | transmissionFailure
  deriving DecidableEq, Repr

/-- The TX tasks and the router task, as far as one routed bundle is concerned.  The memory of the
routed bundle is `none` once it is freed; `sent` are the results of the transmissions so far. -/
structure Reporting where
  rb : Option CountedBundle
  entries : List Nat
  queue : List TransmissionSignal
  sent : List Bool
  informed : List (UInt16 × BundleSignal)
  frees : Nat
  strayAccesses : Nat

/-- The routed bundle after `router_update_routed_bundle`: it was added to these contacts. -/
def Reporting.start (rb : RoutedBundle) (contacts : List Nat) : Reporting where
  rb := some
    { rb with contactCount := UInt8.ofNat contacts.length, transmitted := 0, serialized := 0 }
  entries := contacts
  queue := []
  sent := []
  informed := []
  frees := 0
  strayAccesses := 0

/-- `serialized++`, and `transmitted++` if the bundle could be sent. -/
def CountedBundle.count (rb : CountedBundle) (ok : Bool) : CountedBundle :=
  { rb with
    serialized := rb.serialized + 1
    transmitted := if ok then rb.transmitted + 1 else rb.transmitted }

/-- `report_bundle`. -/
def reportBundle (s : Reporting) (ok : Bool) : Reporting :=
  { s with queue := s.queue ++ [if ok then .transmissionSuccess else .transmissionFailure] }

/-- The body of the loops of `cla_contact_tx_task`, for the entry of a contact.  A bundle that is
gone from the storage, one that cannot be serialized, and one that is still queued when the link
goes down are not `ok`. -/
def txBundle (s : Reporting) (contact : Nat) (ok : Bool) : Reporting :=
  let s := { s with entries := s.entries.erase contact, sent := s.sent ++ [ok] }
  match s.rb with
  | none => reportBundle { s with strayAccesses := s.strayAccesses + 1 } ok
  | some rb => reportBundle { s with rb := some (rb.count ok) } ok

/-- The cases of `process_signal` for `ROUTER_SIGNAL_TRANSMISSION_SUCCESS` and
`ROUTER_SIGNAL_TRANSMISSION_FAILURE`: they do not look at which of the two it is. -/
def processTransmission (s : Reporting) : Reporting :=
  match s.rb with
  | none => { s with strayAccesses := s.strayAccesses + 1 }
  | some rb =>
      if rb.serialized = rb.contactCount then
        let signal :=
          if rb.serialized = rb.transmitted then BundleSignal.transmissionSuccess
          else BundleSignal.transmissionFailure
        { s with rb := none, informed := s.informed ++ [(rb.id, signal)], frees := s.frees + 1 }
      else s

/-- The atomic steps. -/
inductive ReportStep where
  | tx (contact : Nat) (ok : Bool)
  | router
  deriving DecidableEq, Repr

/-- One step, if it can be taken. -/
def Reporting.step (s : Reporting) : ReportStep → Option Reporting
  | .tx contact ok => if contact ∈ s.entries then some (txBundle s contact ok) else none
  | .router =>
      match s.queue with
      | [] => none
      | _ :: queue => some (processTransmission { s with queue })

/-- A run. -/
def Reporting.run : Reporting → List ReportStep → Option Reporting
  | s, [] => some s
  | s, a :: as =>
      match s.step a with
      | none => none
      | some s' => s'.run as

/-- No step can be taken. -/
def Reporting.Done (s : Reporting) : Prop := s.entries = [] ∧ s.queue = []

/-- The bundle was reported once, and truthfully; its memory was freed once, and not used since. -/
structure Reporting.Reported (s : Reporting) (id : UInt16) : Prop where
  informed : s.informed =
    [(id, if s.sent.all (· = true) then .transmissionSuccess else .transmissionFailure)]
  frees : s.frees = 1
  strayAccesses : s.strayAccesses = 0

/-- In a run from `s`, no signal is queued when the last entry is taken. -/
def Reporting.LastAlone : Reporting → List ReportStep → Prop
  | _, [] => True
  | s, a :: as =>
      (∀ contact ok, a = .tx contact ok → s.entries.length = 1 → s.queue = []) ∧
        ∀ s', s.step a = some s' → s'.LastAlone as

instance (s : Reporting) : Decidable s.Done :=
  inferInstanceAs (Decidable (s.entries = [] ∧ s.queue = []))

/-! ## The phases of a run -/

namespace Reporting

variable {id : UInt16} {n q : Nat} {s s' : Reporting}

/-- The routed bundle, for `n` contacts, is in memory and counts the transmissions. -/
structure Counting (s : Reporting) (id : UInt16) (n : Nat) : Prop where
  rb : ∃ r, s.rb = some r ∧ r.id = id ∧ r.contactCount = UInt8.ofNat n ∧
    r.serialized = UInt8.ofNat s.sent.length ∧ r.transmitted = UInt8.ofNat (s.sent.count true)
  total : s.sent.length + s.entries.length = n
  informed : s.informed = []
  frees : s.frees = 0
  strayAccesses : s.strayAccesses = 0

/-- The bundle was reported, with `q` signals about it still queued then. -/
structure Closed (s : Reporting) (id : UInt16) (q : Nat) : Prop where
  rb : s.rb = none
  entries : s.entries = []
  informed : s.informed =
    [(id, if s.sent.all (· = true) then .transmissionSuccess else .transmissionFailure)]
  frees : s.frees = 1
  queued : s.queue.length + s.strayAccesses = q

/-- The phases of a run: `none` as long as there are entries, and then the number of signals that
were queued when the last entry was taken. -/
inductive Phase (id : UInt16) (n : Nat) : Reporting → Option Nat → Prop
  | sending {s : Reporting} : Counting s id n → s.entries ≠ [] → Phase id n s none
  | taken {s : Reporting} {q : Nat} : Counting s id n → s.entries = [] → s.queue.length = q + 1 →
      Phase id n s (some q)
  | closed {s : Reporting} {q : Nat} : Closed s id q → Phase id n s (some q)

/-- The phase after a step. -/
def nextPhase (s : Reporting) (p : Option Nat) (a : ReportStep) : Option Nat :=
  match p, a with
  | none, .tx _ _ => if s.entries.length = 1 then some s.queue.length else none
  | p, _ => p

theorem start_phase (rb : RoutedBundle) {contacts : List Nat} (hne : contacts ≠ []) :
    Phase rb.id contacts.length (start rb contacts) none := by
  apply Phase.sending
  · exact
      { rb := ⟨_, rfl, rfl, rfl, rfl, rfl⟩
        total := Nat.zero_add _
        informed := rfl
        frees := rfl
        strayAccesses := rfl }
  · exact hne

/-- **A TX task counts the entry that it took**, and queues one signal. -/
theorem Counting.txBundle (hc : Counting s id n) {contact : Nat} (hmem : contact ∈ s.entries)
    (ok : Bool) : Counting (ContactRouter.txBundle s contact ok) id n := by
  obtain ⟨r, hr, hid, hcount, hser, htrans⟩ := hc.rb
  have hlen := List.length_erase_of_mem hmem
  have hpos := List.length_pos_of_mem hmem
  have htotal := hc.total
  simp only [ContactRouter.txBundle, hr]
  constructor
  · refine ⟨r.count ok, rfl, hid, hcount, ?_, ?_⟩
    · simp [CountedBundle.count, reportBundle, hser]
    · cases ok <;> simp [CountedBundle.count, reportBundle, htrans, List.count_append]
  · simp only [reportBundle, List.length_append, List.length_singleton]
    omega
  · exact hc.informed
  · exact hc.frees
  · exact hc.strayAccesses

theorem txBundle_queue (s : Reporting) (contact : Nat) (ok : Bool) :
    (txBundle s contact ok).queue.length = s.queue.length + 1 := by
  unfold txBundle
  cases hr : s.rb <;> simp [reportBundle]

theorem txBundle_entries (s : Reporting) (contact : Nat) (ok : Bool) :
    (txBundle s contact ok).entries = s.entries.erase contact := by
  unfold txBundle
  cases hr : s.rb <;> simp [reportBundle]

theorem ofNat_eq_iff {a b : Nat} (ha : a < 256) (hb : b < 256) :
    UInt8.ofNat a = UInt8.ofNat b ↔ a = b := by
  constructor
  · intro h
    have h := congrArg UInt8.toNat h
    simpa [Nat.mod_eq_of_lt ha, Nat.mod_eq_of_lt hb] using h
  · intro h
    rw [h]

/-- A signal that is dequeued while there are entries changes nothing. -/
theorem Counting.wait (hc : Counting s id n) (hn : n < 256) (hne : s.entries ≠ []) :
    processTransmission s = s := by
  obtain ⟨r, hr, -, hcount, hser, -⟩ := hc.rb
  have hpos := List.length_pos_of_ne_nil hne
  have htotal := hc.total
  have hless : r.serialized ≠ r.contactCount := by
    rw [hser, hcount, Ne, ofNat_eq_iff (by omega) hn]
    omega
  simp only [processTransmission, hr]
  rw [if_neg hless]

/-- **The first signal after the last entry was taken closes the bundle.** -/
theorem Counting.close (hc : Counting s id n) (hn : n < 256) (hnil : s.entries = []) :
    Closed (processTransmission s) id s.queue.length := by
  obtain ⟨r, hr, hid, hcount, hser, htrans⟩ := hc.rb
  have htotal := hc.total
  have hle : s.sent.count true ≤ s.sent.length := List.count_le_length
  have hall : r.serialized = r.contactCount := by
    rw [hser, hcount, ofNat_eq_iff (by simp_all) hn]
    simp_all
  have hsuccess : r.serialized = r.transmitted ↔ s.sent.all (· = true) = true := by
    rw [hser, htrans, ofNat_eq_iff (by simp_all) (by simp_all; omega), eq_comm,
      List.count_eq_length, List.all_eq_true]
    simp only [decide_eq_true_eq, @eq_comm Bool true]
  simp only [processTransmission, hr]
  rw [if_pos hall]
  constructor
  · rfl
  · exact hnil
  · simp only [hc.informed, hid, hsuccess, List.nil_append]
  · simp only [hc.frees]
  · simp only [hc.strayAccesses]
    rfl

/-- A signal that is dequeued after the bundle was closed uses freed memory. -/
theorem Closed.stray {queue : List TransmissionSignal} {x : TransmissionSignal}
    (hc : Closed s id q) (hq : s.queue = x :: queue) :
    Closed (processTransmission { s with queue }) id q := by
  have hqueued := hc.queued
  rw [hq, List.length_cons] at hqueued
  simp only [processTransmission, hc.rb]
  constructor
  · rfl
  · exact hc.entries
  · exact hc.informed
  · exact hc.frees
  · simp only
    omega

/-! ## Steps and runs -/

/-- **What a step does to the phase.** -/
theorem Phase.step {p : Option Nat} (hp : Phase id n s p) (hn : n < 256) {a : ReportStep}
    (hs : s.step a = some s') : Phase id n s' (nextPhase s p a) := by
  cases a with
  | tx contact ok =>
      simp only [Reporting.step] at hs
      split at hs
      case isFalse => cases hs
      case isTrue hmem =>
        injection hs with hs
        subst hs
        have hlen := List.length_erase_of_mem hmem
        cases hp with
        | sending hc hne =>
            have hc' := hc.txBundle hmem ok
            simp only [nextPhase]
            split
            case isTrue hone =>
              apply Phase.taken hc'
              · rw [txBundle_entries]
                apply List.eq_nil_of_length_eq_zero
                omega
              · exact txBundle_queue s contact ok
            case isFalse hmore =>
              have hpos := List.length_pos_of_mem hmem
              apply Phase.sending hc'
              rw [txBundle_entries]
              apply List.ne_nil_of_length_pos
              omega
        | taken _ hnil _ =>
            rw [hnil] at hmem
            cases hmem
        | closed hc =>
            rw [hc.entries] at hmem
            cases hmem
  | router =>
      cases hq : s.queue with
      | nil => simp [Reporting.step, hq] at hs
      | cons x queue =>
          simp only [Reporting.step, hq, Option.some.injEq] at hs
          subst hs
          cases hp with
          | sending hc hne =>
              have hc' : Counting { s with queue } id n := ⟨hc.rb, hc.total, hc.informed, hc.frees,
                hc.strayAccesses⟩
              rw [hc'.wait hn hne]
              exact Phase.sending hc' hne
          | taken hc hnil hlen =>
              have hc' : Counting { s with queue } id n := ⟨hc.rb, hc.total, hc.informed, hc.frees,
                hc.strayAccesses⟩
              rw [hq, List.length_cons, Nat.add_right_cancel_iff] at hlen
              rw [← hlen]
              exact Phase.closed (hc'.close hn hnil)
          | closed hc => exact Phase.closed (hc.stray hq)

/-- Once all entries are taken, the last one was not taken among signals any more. -/
theorem Phase.settled {as : List ReportStep} (hp : Phase id n s (some q)) (hn : n < 256) :
    s.LastAlone as := by
  induction as generalizing s with
  | nil => trivial
  | cons a as ih =>
      constructor
      · intro _ _ _ hone
        cases hp with
        | taken _ hnil _ => simp [hnil] at hone
        | closed hc => simp [hc.entries] at hone
      · intro s' hs
        exact ih (hp.step hn hs)

theorem Phase.run_settled {as : List ReportStep} (hp : Phase id n s (some q)) (hn : n < 256)
    (hrun : s.run as = some s') : Phase id n s' (some q) := by
  induction as generalizing s with
  | nil =>
      obtain rfl := Option.some.inj hrun
      exact hp
  | cons a as ih =>
      cases hs : s.step a with
      | none => simp [Reporting.run, hs] at hrun
      | some t =>
          simp only [Reporting.run, hs] at hrun
          exact ih (hp.step hn hs) hrun

/-- The phase changes with the last entry only. -/
theorem nextPhase_eq_some {a : ReportStep} (h : nextPhase s none a = some q) :
    (∃ contact ok, a = .tx contact ok) ∧ s.entries.length = 1 ∧ s.queue.length = q := by
  cases a with
  | tx contact ok =>
      simp only [nextPhase] at h
      split at h
      case isTrue hone => exact ⟨⟨contact, ok, rfl⟩, hone, Option.some.inj h⟩
      case isFalse => cases h
  | router => cases h

theorem nextPhase_eq_none {a : ReportStep} (h : nextPhase s none a = none) {contact : Nat}
    {ok : Bool} (ha : a = .tx contact ok) : s.entries.length ≠ 1 := by
  intro hone
  subst ha
  simp [nextPhase, hone] at h

/-- **What a run does to the phase**: the last entry is taken alone in it exactly if it is not
taken, or was taken with no signal queued. -/
theorem Phase.run {as : List ReportStep} (hp : Phase id n s none) (hn : n < 256)
    (hrun : s.run as = some s') :
    ∃ p, Phase id n s' p ∧ (s.LastAlone as ↔ ∀ q, p = some q → q = 0) := by
  induction as generalizing s with
  | nil =>
      obtain rfl := Option.some.inj hrun
      exact ⟨none, hp, by simp [LastAlone]⟩
  | cons a as ih =>
      cases hs : s.step a with
      | none => simp [Reporting.run, hs] at hrun
      | some t =>
          simp only [Reporting.run, hs] at hrun
          have ht := hp.step hn hs
          have hnext : s.LastAlone (a :: as) ↔
              (∀ contact ok, a = .tx contact ok → s.entries.length = 1 → s.queue = []) ∧
                t.LastAlone as := by
            simp [LastAlone, hs]
          cases hphase : nextPhase s none a with
          | none =>
              rw [hphase] at ht
              obtain ⟨p, hp', hiff⟩ := ih ht hrun
              refine ⟨p, hp', ?_⟩
              rw [hnext, hiff]
              constructor
              · exact And.right
              · intro h
                exact ⟨fun _ _ ha hone => absurd hone (nextPhase_eq_none hphase ha), h⟩
          | some q =>
              rw [hphase] at ht
              obtain ⟨⟨contact, ok, ha⟩, hone, hq⟩ := nextPhase_eq_some hphase
              refine ⟨some q, ht.run_settled hn hrun, ?_⟩
              rw [hnext]
              constructor
              · rintro ⟨halone, -⟩ q' hq'
                injection hq' with hq'
                rw [← hq', ← hq, halone contact ok ha hone]
                rfl
              · intro hzero
                refine ⟨fun _ _ _ _ => ?_, ht.settled hn⟩
                apply List.eq_nil_of_length_eq_zero
                rw [hq]
                exact hzero q rfl

/-! ## Reports -/

/-- In a phase without signals before the last one, nothing is amiss. -/
theorem Phase.orderly {p : Option Nat} (hp : Phase id n s p) (hzero : ∀ q, p = some q → q = 0) :
    s.strayAccesses = 0 ∧ s.frees ≤ 1 ∧ s.informed.length = s.frees := by
  cases hp with
  | sending hc _ => simp [hc.strayAccesses, hc.frees, hc.informed]
  | taken hc _ _ => simp [hc.strayAccesses, hc.frees, hc.informed]
  | closed hc =>
      have hq := hzero _ rfl
      have hqueued := hc.queued
      refine ⟨by omega, ?_, ?_⟩
      · rw [hc.frees]
      · rw [hc.informed, hc.frees]
        rfl

/-- A run that is done has reported the bundle, and the signals that were queued before the last
one used freed memory. -/
theorem Phase.done {p : Option Nat} (hp : Phase id n s p) (hd : s.Done) :
    ∃ q, p = some q ∧ (s.Reported id ↔ q = 0) := by
  obtain ⟨hentries, hqueue⟩ := hd
  cases hp with
  | sending _ hne => exact absurd hentries hne
  | taken _ _ hlen => simp [hqueue] at hlen
  | @closed q hc =>
      have hqueued := hc.queued
      rw [hqueue, List.length_nil, Nat.zero_add] at hqueued
      refine ⟨q, rfl, ?_⟩
      rw [← hqueued]
      constructor
      · exact fun h => h.strayAccesses
      · exact fun h => ⟨hc.informed, hc.frees, h⟩

/-- What the phases say about a run from the start. -/
theorem run_start {rb : RoutedBundle} {contacts : List Nat} (hne : contacts ≠ [])
    (hfit : contacts.length < 256) {as : List ReportStep}
    (hrun : (start rb contacts).run as = some s) :
    ((start rb contacts).LastAlone as →
      s.strayAccesses = 0 ∧ s.frees ≤ 1 ∧ s.informed.length = s.frees) ∧
      (s.Done → (s.Reported rb.id ↔ (start rb contacts).LastAlone as)) := by
  obtain ⟨p, hp, halone⟩ := (start_phase rb hne).run hfit hrun
  refine ⟨fun h => hp.orderly (halone.mp h), ?_⟩
  intro hdone
  obtain ⟨q, rfl, hreported⟩ := hp.done hdone
  rw [hreported, halone]
  simp

end Reporting

open Reporting

/-- **A routed bundle is reported once, by the last signal, exactly if no earlier signal is queued
when its last entry is taken**: for every routed bundle with a contact, and every run of the TX
tasks and the router task.  A run with this property never uses freed memory or reports twice, and
when nothing is left to do the report is sent, and says whether all transmissions succeeded. -/
theorem transmission_report (rb : RoutedBundle) (contacts : List Nat) (hne : contacts ≠ [])
    (hfit : contacts.length < 256) (as : List ReportStep) (s : Reporting)
    (hrun : (start rb contacts).run as = some s) :
    ((start rb contacts).LastAlone as →
      s.strayAccesses = 0 ∧ s.frees ≤ 1 ∧ s.informed.length = s.frees) ∧
      (s.Done → (s.Reported rb.id ↔ (start rb contacts).LastAlone as)) := by
  exact run_start hne hfit hrun

/-- A bundle for two contacts: the router task handles the first signal before the second entry is
taken. -/
def twoContacts : RoutedBundle := ⟨7, .low, 100, 1000, "dtn://b/".toList, 0⟩

theorem transmission_report_in_turn :
    ∃ s, (start twoContacts [0, 1]).run [.tx 0 true, .router, .tx 1 false, .router] = some s ∧
      s.Reported 7 := by
  refine ⟨_, rfl, ?_⟩
  apply ((transmission_report twoContacts [0, 1] (by decide) (by decide)
    [.tx 0 true, .router, .tx 1 false, .router] _ rfl).2 (by decide)).mpr
  refine ⟨fun _ _ _ hone => absurd hone (by decide), ?_⟩
  rintro _ ⟨⟩
  refine ⟨by simp, ?_⟩
  rintro _ ⟨⟩
  refine ⟨fun _ _ _ _ => rfl, ?_⟩
  rintro _ ⟨⟩
  exact ⟨by simp, fun _ _ => trivial⟩

/-- Two contacts send the bundle before the router task runs: the second signal is about memory that
the first one freed. -/
theorem transmission_report_stray :
    ¬∀ (rb : RoutedBundle) (contacts : List Nat), contacts ≠ [] → contacts.length < 256 →
      ∀ (as : List ReportStep) (s : Reporting), (start rb contacts).run as = some s → s.Done →
        s.Reported rb.id := by
  intro h
  have hrep := h twoContacts [0, 1] (by decide) (by decide)
    [.tx 0 true, .tx 1 true, .router, .router] _ rfl (by decide)
  exact absurd hrep.strayAccesses (by decide)

/-! ## Which bundles are safe in any order -/

namespace Reporting

theorem run_append {s t : Reporting} {as : List ReportStep} (bs : List ReportStep)
    (h : s.run as = some t) : s.run (as ++ bs) = t.run bs := by
  induction as generalizing s with
  | nil =>
      obtain rfl := Option.some.inj h
      rfl
  | cons a as ih =>
      cases hs : s.step a with
      | none => simp [Reporting.run, hs] at h
      | some s' =>
          simp only [Reporting.run, hs] at h
          simp only [List.cons_append, Reporting.run, hs]
          exact ih h

/-- All entries can be taken at once, and with a signal queued the last one is not taken alone. -/
theorem run_tx (s : Reporting) (bs : List ReportStep) (hne : s.entries ≠ [])
    (hmany : 1 < s.queue.length + s.entries.length) :
    ∃ t, s.run (s.entries.map (.tx · true)) = some t ∧ t.entries = [] ∧
      ¬s.LastAlone (s.entries.map (.tx · true) ++ bs) := by
  generalize hl : s.entries = l at hne hmany
  induction l generalizing s with
  | nil => exact absurd rfl hne
  | cons c l ih =>
      have hstep : s.step (.tx c true) = some (txBundle s c true) := by
        simp [Reporting.step, hl]
      have hentries : (txBundle s c true).entries = l := by
        simp [txBundle_entries, hl]
      have hqueue := txBundle_queue s c true
      rw [List.length_cons] at hmany
      cases l with
      | nil =>
          refine ⟨txBundle s c true, by simp [Reporting.run, hstep], hentries, ?_⟩
          intro halone
          have hnil := halone.1 c true rfl (by simp [hl])
          simp [hnil] at hmany
      | cons d l =>
          obtain ⟨t, hrun, hnil, hnot⟩ := ih (txBundle s c true) hentries (by simp) (by omega)
          refine ⟨t, by simpa only [List.map_cons, Reporting.run, hstep] using hrun, hnil, ?_⟩
          intro halone
          exact hnot (halone.2 _ hstep)

theorem run_router (s : Reporting) :
    ∃ t, s.run (List.replicate s.queue.length .router) = some t ∧ t.entries = s.entries ∧
      t.queue = [] := by
  generalize hq : s.queue = queue
  induction queue generalizing s with
  | nil => exact ⟨s, rfl, rfl, hq⟩
  | cons x queue ih =>
      have hstep : s.step .router = some (processTransmission { s with queue }) := by
        simp [Reporting.step, hq]
      have hkeeps : (processTransmission { s with queue }).queue = queue ∧
          (processTransmission { s with queue }).entries = s.entries := by
        unfold processTransmission
        cases hr : s.rb with
        | none => exact ⟨rfl, rfl⟩
        | some r =>
            simp only
            split <;> exact ⟨rfl, rfl⟩
      obtain ⟨t, hrun, hentries, hnil⟩ := ih _ hkeeps.1
      refine ⟨t, ?_, hentries.trans hkeeps.2, hnil⟩
      simp only [List.length_cons, List.replicate_succ, Reporting.run, hstep]
      exact hrun

/-- The only entry of a bundle is taken alone. -/
theorem lastAlone_single (rb : RoutedBundle) (c : Nat) (as : List ReportStep) :
    (start rb [c]).LastAlone as := by
  cases as with
  | nil => trivial
  | cons a as =>
      refine ⟨fun _ _ _ _ => rfl, ?_⟩
      intro s hs
      have hp := (start_phase rb (List.cons_ne_nil c [])).step (Nat.one_lt_ofNat) hs
      cases a with
      | tx contact ok => exact hp.settled Nat.one_lt_ofNat
      | router => cases hs

end Reporting

/-- **Every order of the steps is safe exactly for bundles with a single contact.** -/
theorem reported_in_any_order_iff (rb : RoutedBundle) (contacts : List Nat) (hne : contacts ≠ [])
    (hfit : contacts.length < 256) :
    (∀ as s, (start rb contacts).run as = some s → s.Done → s.Reported rb.id) ↔
      contacts.length = 1 := by
  constructor
  · intro hall
    by_contra hone
    have hpos := List.length_pos_of_ne_nil hne
    let routers (k : Nat) := List.replicate k ReportStep.router
    obtain ⟨t, htx, hentries, -⟩ := run_tx (start rb contacts) [] hne (by simp [start]; omega)
    obtain ⟨t', hrouter, hsame, hnil⟩ := run_router t
    obtain ⟨_, _, _, hnot⟩ := run_tx (start rb contacts) (routers t.queue.length) hne
      (by simp [start]; omega)
    have hrun := (run_append (routers t.queue.length) htx).trans hrouter
    have hdone : t'.Done := ⟨hsame.trans hentries, hnil⟩
    exact hnot (((run_start hne hfit hrun).2 hdone).mp (hall _ t' hrun hdone))
  · intro hone as s hrun hdone
    obtain ⟨c, rfl⟩ := List.length_eq_one_iff.mp hone
    exact ((run_start hne hfit hrun).2 hdone).mpr (lastAlone_single rb c as)

/-- Two contacts are one too many. -/
theorem reported_in_any_order_iff_two : ¬ ∀ as s, (start twoContacts [0, 1]).run as = some s →
    s.Done → s.Reported twoContacts.id := by
  intro h
  exact absurd ((reported_in_any_order_iff twoContacts [0, 1] (by decide) (by decide)).mp h)
    (by decide)

end ContactRouter
