import DisruptaBLE.Lib.Interleaving
import Mathlib.Logic.Function.Basic

/-!
# The TX task of a link

`components/cla/cla_contact_tx_task.c` with `cla_link_init`, `cla_link_wait_cleanup` and
`cla_generic_disconnect_handler` of `cla.c`: the senders put commands into the queue of a link, the
TX task takes them out and reports every routed bundle to the router, and a link that broke is
cleaned up while senders may still wait for its queue.

Every access of the queue, of a semaphore or of `active` is a step of its own, and the tasks take
their steps in any order.  A sender is a task in `try_to_send_bundle` or `hand_over_contact_bundles`,
with the function of the CLA that gets it the queue.

What was handed over is reported once, in the same order (`reported_once`).  A disconnect handler
that the TX task calls itself waits for room in the queue that only the TX task empties
(`ends_unless_stuck`).
-/

namespace TxTask

open Interleaving

/-- A reference to `struct routed_bundle`. -/
abbrev RoutedBundle := Nat

/-- `struct cla_contact_tx_task_command`. -/
inductive Command where
  | bundles (bundles : List RoutedBundle)
  | finalize
  deriving DecidableEq, Repr

/-- `CONTACT_TX_TASK_QUEUE_LENGTH`. -/
def contactTxTaskQueueLength : Nat := 3

/-- `tx_queue_sem`: free, or who took it last. -/
inductive Sem where
  | free
  | sender (i : Nat)
  | txTask
  /-- a sender that found no queue, or the clean-up -/
  | nobody
  deriving DecidableEq, Repr

/-- Where the TX task is. -/
inductive TxPc where
  /-- the condition of the loop -/
  | check
  /-- `hal_queue_receive` without a timeout -/
  | receive
  /-- the loop over the bundles of a command -/
  | sending (bundles : List RoutedBundle)
  /-- in the disconnect handler, which a failed transmission calls, with the link inactive -/
  | finalizing (bundles : List RoutedBundle)
  /-- before it takes `tx_queue_sem` -/
  | lock
  /-- the loop that consumes the rest of the queue -/
  | drain
  | dropping (bundles : List RoutedBundle)
  | ended
  deriving DecidableEq, Repr

/-- Where a sender is. -/
inductive SenderPc where
  | idle
  /-- before it takes `tx_queue_sem` -/
  | waiting (bundles : List RoutedBundle)
  /-- it has the semaphore and the queue -/
  | holding (bundles : List RoutedBundle)
  /-- before it releases the semaphore -/
  | releasing
  deriving DecidableEq, Repr

/-- Where `cla_link_wait_cleanup` is. -/
inductive CleanupPc where
  | waiting
  | unblocking
  | done
  deriving DecidableEq, Repr

/-- `struct cla_link` with its tasks. -/
structure State where
  active : Bool
  queue : List Command
  /-- `tx_queue_handle` is not `NULL` -/
  handle : Bool
  sem : Sem
  /-- the RX task has released `rx_task_sem` -/
  rxEnded : Bool
  /-- the TX task has released `tx_task_sem` -/
  txEnded : Bool
  tx : TxPc
  senders : Nat → SenderPc
  cleanup : CleanupPc
  /-- what the senders handed over -/
  handed : List RoutedBundle
  /-- what was reported to the router: success or failure -/
  reports : List (RoutedBundle × Bool)

/-- After `cla_link_init`. -/
def init : State where
  active := true
  queue := []
  handle := true
  sem := .free
  rxEnded := false
  txEnded := false
  tx := .check
  senders _ := .idle
  cleanup := .waiting
  handed := []
  reports := []

/-- The queue has room for a command. -/
def State.room (s : State) : Bool := s.queue.length < contactTxTaskQueueLength

/-- A sender goes on. -/
def State.setSender (s : State) (i : Nat) (pc : SenderPc) : State :=
  { s with senders := Function.update s.senders i pc }

/-! ## The steps of the tasks -/

/-- `report_bundle`. -/
def reportBundle (s : State) (bundle : RoutedBundle) (ok : Bool) : State :=
  { s with reports := s.reports ++ [(bundle, ok)] }

/-- A step of `cla_contact_tx_task`; `ok` says whether the bundle is found and serialized.  A step
that waits is not taken. -/
def txStep (ok : Bool) (s : State) : Option State :=
  match s.tx with
  | .check => some { s with tx := if s.active then .receive else .lock }
  | .receive =>
      match s.queue with
      | [] => none
      | .finalize :: queue => some { s with queue, tx := .lock }
      | .bundles bundles :: queue => some { s with queue, tx := .sending bundles }
  | .sending [] => some { s with tx := .check }
  | .sending (bundle :: bundles) => some { reportBundle s bundle ok with tx := .sending bundles }
  | .finalizing bundles =>
      if s.room then some { s with queue := s.queue ++ [.finalize], tx := .sending bundles }
      else none
  | .lock => if s.sem = .free then some { s with sem := .txTask, tx := .drain } else none
  | .drain =>
      match s.queue with
      | [] => some { s with txEnded := true, tx := .ended }
      | .finalize :: queue => some { s with queue }
      | .bundles bundles :: queue => some { s with queue, tx := .dropping bundles }
  | .dropping [] => some { s with tx := .drain }
  | .dropping (bundle :: bundles) =>
      some { reportBundle s bundle false with tx := .dropping bundles }
  | .ended => none

/-- The TX task cannot send a bundle and calls the disconnect handler. -/
def txFails (s : State) : Option State :=
  match s.tx with
  | .sending (bundle :: bundles) =>
      some { s with active := false, tx := .finalizing (bundle :: bundles) }
  | _ => none

/-- A sender takes `tx_queue_sem` and looks at the queue. -/
def semTake (i : Nat) (s : State) : Option State :=
  match s.senders i with
  | .waiting bundles =>
      if s.sem = .free then
        if s.handle then some { s.setSender i (.holding bundles) with sem := .sender i }
        else some { s.setSender i .idle with sem := .nobody }
      else none
  | _ => none

/-- A sender pushes its command. -/
def push (i : Nat) (s : State) : Option State :=
  match s.senders i with
  | .holding bundles =>
      if s.room then
        some { s.setSender i .releasing with
          queue := s.queue ++ [.bundles bundles], handed := s.handed ++ bundles }
      else none
  | _ => none

/-- A sender gives up, as its timeout has passed. -/
def giveUp (i : Nat) (s : State) : Option State :=
  match s.senders i with
  | .holding _ => some (s.setSender i .releasing)
  | _ => none

/-- A sender releases `tx_queue_sem`. -/
def semRelease (i : Nat) (s : State) : Option State :=
  match s.senders i with
  | .releasing => some { s.setSender i .idle with sem := .free }
  | _ => none

/-- A step of `cla_link_wait_cleanup`. -/
def cleanupStep (s : State) : Option State :=
  match s.cleanup with
  | .waiting =>
      if s.rxEnded ∧ s.txEnded then some { s with handle := false, cleanup := .unblocking }
      else none
  | .unblocking =>
      if s.sem = .free then some { s with sem := .nobody, cleanup := .done }
      else some { s with sem := .free }
  | .done => none

/-! ## The system -/

/-- The events.  Any task but the TX task may call the disconnect handler: it makes the link
inactive and then pushes `TX_COMMAND_FINALIZE`. -/
inductive Event where
  | begin (i : Nat) (bundles : List RoutedBundle)
  | take (i : Nat)
  | push (i : Nat)
  | giveUp (i : Nat)
  | release (i : Nat)
  | tx (ok : Bool)
  | txFails
  | deactivate
  | finalize
  | rxEnds
  | cleanup
  deriving DecidableEq, Repr

/-- Which events can happen: what the tasks do next, and the calls from outside. -/
def possible (s : State) : Event → Bool
  | .begin i _ => s.senders i = .idle ∧ s.cleanup ≠ .done
  | .deactivate => !s.rxEnded || !s.txEnded
  | .finalize => (!s.rxEnded || !s.txEnded) && !s.active && s.room
  | .rxEnds => !s.active && !s.rxEnded
  | .take i => (semTake i s).isSome
  | .push i => (push i s).isSome
  | .giveUp i => (giveUp i s).isSome
  | .release i => (semRelease i s).isSome
  | .tx ok => (txStep ok s).isSome
  | .txFails => (txFails s).isSome
  | .cleanup => (cleanupStep s).isSome

/-- The events that can happen. -/
def Enabled (s : State) (e : Event) : Prop := possible s e = true

/-- An event. -/
def next (s : State) : Event → Option State
  | .begin i bundles => some (s.setSender i (.waiting bundles))
  | .take i => semTake i s
  | .push i => push i s
  | .giveUp i => giveUp i s
  | .release i => semRelease i s
  | .tx ok => txStep ok s
  | .txFails => txFails s
  | .deactivate => some { s with active := false }
  | .finalize => some { s with queue := s.queue ++ [.finalize] }
  | .rxEnds => some { s with rxEnded := true }
  | .cleanup => cleanupStep s

/-- The tasks around a link. -/
def system : System State Event where
  init s := s = init
  enabled := Enabled
  next := next

instance decidableEnabled (s : State) (e : Event) : Decidable (system.enabled s e) :=
  inferInstanceAs (Decidable (possible s e = true))

/-- A sender gets the queue and pushes its command. -/
def handOver (i : Nat) (bundles : List RoutedBundle) : List Event :=
  [.begin i bundles, .take i, .push i, .release i]

/-! ## What was handed over -/

/-- The bundles of a command. -/
def Command.routed : Command → List RoutedBundle
  | .bundles routed => routed
  | .finalize => []

/-- The bundles that the TX task has taken out of the queue and not reported yet. -/
def TxPc.inFlight : TxPc → List RoutedBundle
  | .sending bundles => bundles
  | .finalizing bundles => bundles
  | .dropping bundles => bundles
  | _ => []

/-- The TX task has taken `tx_queue_sem`, and keeps it. -/
def TxPc.locked : TxPc → Bool
  | .drain => true
  | .dropping _ => true
  | .ended => true
  | _ => false

/-- The sender has the semaphore. -/
def SenderPc.holds : SenderPc → Bool
  | .holding _ => true
  | .releasing => true
  | _ => false

/-- Who may have the semaphore, when the TX task has locked the queue or not, and the queue is valid
or not. -/
def Sem.Fits (locked valid : Bool) : Sem → Prop
  | .free => locked = true → valid = false
  | .sender _ => locked = false ∧ valid = true
  | .txTask => locked = true
  | .nobody => valid = false

/-- The invariant. -/
structure Inv (s : State) : Prop where
  /-- what was handed over was reported, or is in flight, or in the queue -/
  conserved : s.handed = s.reports.map Prod.fst ++ s.tx.inFlight ++ s.queue.flatMap Command.routed
  /-- the sender that took the semaphore has it -/
  holds : ∀ i, (s.senders i).holds = true ↔ s.sem = .sender i
  fits : s.sem.Fits s.tx.locked s.handle
  /-- only the TX task itself says that it has ended -/
  ends : s.txEnded = true ↔ s.tx = .ended
  /-- then nothing is left in the queue -/
  empty : s.tx = .ended → ∀ c ∈ s.queue, c = .finalize
  /-- the queue becomes invalid after the TX task has ended -/
  valid : s.handle = false → s.tx = .ended
  cleans : s.handle = true ↔ s.cleanup = .waiting

variable {s s' : State}

theorem inv_init : Inv init where
  conserved := rfl
  holds i := by simp [init, SenderPc.holds]
  fits h := by cases h
  ends := by simp [init]
  empty h := by cases h
  valid h := by cases h
  cleans := by simp [init]

@[simp] theorem setSender_self (s : State) (i : Nat) (pc : SenderPc) :
    (s.setSender i pc).senders i = pc := Function.update_self ..

@[simp] theorem setSender_of_ne (s : State) {i j : Nat} (h : j ≠ i) (pc : SenderPc) :
    (s.setSender i pc).senders j = s.senders j := Function.update_of_ne h ..

/-- A sender that has the semaphore finds a valid queue, which the TX task has not locked. -/
theorem Inv.open_of_holds (h : Inv s) {i : Nat} (hi : (s.senders i).holds = true) :
    s.tx.locked = false ∧ s.handle = true := by
  have hfits := h.fits
  rw [(h.holds i).mp hi] at hfits
  exact hfits

theorem ne_ended_of_locked {pc : TxPc} (h : pc.locked = false) : pc ≠ .ended := by
  intro heq
  rw [heq] at h
  cases h

/-! ## The senders -/

/-- A sender goes on, and the semaphore with it. -/
theorem Inv.sender (h : Inv s) {i : Nat} {pc : SenderPc} {sem : Sem}
    (hpc : pc.holds = true ↔ sem = .sender i)
    (hothers : ∀ j, j ≠ i → (s.sem = .sender j ↔ sem = .sender j))
    (hfits : sem.Fits s.tx.locked s.handle) : Inv { s.setSender i pc with sem } where
  conserved := h.conserved
  holds j := by
    show ((s.setSender i pc).senders j).holds = true ↔ sem = .sender j
    by_cases hj : j = i
    · subst hj
      rw [setSender_self]
      exact hpc
    · rw [setSender_of_ne s hj, h.holds j]
      exact hothers j hj
  fits := hfits
  ends := h.ends
  empty := h.empty
  valid := h.valid
  cleans := h.cleans

/-- A sender goes on, and keeps the semaphore, or does without it. -/
theorem Inv.senderKeeps (h : Inv s) {i : Nat} {pc : SenderPc}
    (hpc : pc.holds = (s.senders i).holds) : Inv (s.setSender i pc) :=
  h.sender (by rw [hpc]; exact h.holds i) (fun _ _ => Iff.rfl) h.fits

theorem Inv.take (h : Inv s) {i : Nat} (hnext : semTake i s = some s') : Inv s' := by
  unfold semTake at hnext
  split at hnext
  · split at hnext
    · next hfree =>
      have hfits := h.fits
      rw [hfree] at hfits
      split at hnext
      · next hhandle =>
        cases hnext
        refine h.sender (iff_of_true rfl rfl) ?_ ⟨?_, hhandle⟩
        · intro j hj
          rw [hfree]
          simp [Ne.symm hj]
        · rw [← Bool.not_eq_true]
          intro hlocked
          exact absurd (hfits hlocked) (by simp [hhandle])
      · next hinvalid =>
        cases hnext
        refine h.sender (by simp [SenderPc.holds]) ?_ (Bool.eq_false_iff.mpr hinvalid)
        intro j _
        rw [hfree]
        simp
    · cases hnext
  · cases hnext

theorem Inv.push (h : Inv s) {i : Nat} (hnext : push i s = some s') : Inv s' := by
  unfold TxTask.push at hnext
  split at hnext
  · next bundles hholding =>
    have hopen := (h.open_of_holds (i := i) (by rw [hholding]; rfl)).1
    split at hnext
    · cases hnext
      have hmoved : Inv (s.setSender i .releasing) := h.senderKeeps (by rw [hholding]; rfl)
      refine ⟨?_, hmoved.holds, h.fits, h.ends, ?_, h.valid, h.cleans⟩
      · show s.handed ++ bundles = _
        rw [h.conserved]
        simp [State.setSender, Command.routed]
      · intro hended
        exact absurd hended (ne_ended_of_locked hopen)
    · cases hnext
  · cases hnext

theorem Inv.giveUp (h : Inv s) {i : Nat} (hnext : giveUp i s = some s') : Inv s' := by
  unfold TxTask.giveUp at hnext
  split at hnext
  · next bundles hholding =>
    cases hnext
    exact h.senderKeeps (by rw [hholding]; rfl)
  · cases hnext

theorem Inv.release (h : Inv s) {i : Nat} (hnext : semRelease i s = some s') : Inv s' := by
  unfold semRelease at hnext
  split at hnext
  · next hreleasing =>
    have hi : (s.senders i).holds = true := by
      rw [hreleasing]
      rfl
    cases hnext
    refine h.sender (by simp [SenderPc.holds]) ?_ ?_
    · intro j hj
      rw [(h.holds i).mp hi]
      simp [Ne.symm hj]
    · intro hlocked
      rw [(h.open_of_holds hi).1] at hlocked
      cases hlocked
  · cases hnext

/-! ## The TX task -/

/-- The TX task goes on, with or without the semaphore. -/
theorem Inv.goesOn (h : Inv s) {queue : List Command} {before after : TxPc}
    {reports : List (RoutedBundle × Bool)} (hpc : s.tx = before)
    (hlocked : after.locked = before.locked) (hbefore : before ≠ .ended) (hafter : after ≠ .ended)
    (hsame : s.reports.map Prod.fst ++ before.inFlight ++ s.queue.flatMap Command.routed =
      reports.map Prod.fst ++ after.inFlight ++ queue.flatMap Command.routed) :
    Inv { s with queue, tx := after, reports } where
  conserved := by
    have hconserved := h.conserved
    rw [hpc, hsame] at hconserved
    exact hconserved
  holds := h.holds
  fits := by
    have hfits := h.fits
    rw [hpc, ← hlocked] at hfits
    exact hfits
  ends := (h.ends.trans (iff_of_false (hpc ▸ hbefore) id)).trans (iff_of_false id hafter)
  empty hended := absurd hended hafter
  valid hinvalid := absurd (hpc.symm.trans (h.valid hinvalid)) hbefore
  cleans := h.cleans

theorem Inv.txStep (h : Inv s) {ok : Bool} (hnext : txStep ok s = some s') : Inv s' := by
  unfold TxTask.txStep at hnext
  split at hnext
  · next hpc =>
    cases hnext
    exact h.goesOn hpc (by split <;> rfl) (by simp) (by split <;> simp) (by split <;> rfl)
  · next hpc =>
    split at hnext
    · cases hnext
    · next queue hqueue =>
      cases hnext
      exact h.goesOn hpc rfl (by simp) (by simp) (by rw [hqueue]; rfl)
    · next bundles queue hqueue =>
      cases hnext
      exact h.goesOn hpc rfl (by simp) (by simp) (by simp [hqueue, TxPc.inFlight, Command.routed])
  · next hpc =>
    cases hnext
    exact h.goesOn hpc rfl (by simp) (by simp) rfl
  · next bundle bundles hpc =>
    cases hnext
    exact h.goesOn hpc rfl (by simp) (by simp) (by simp [TxPc.inFlight, reportBundle])
  · next bundles hpc =>
    split at hnext
    · cases hnext
      exact h.goesOn hpc rfl (by simp) (by simp) (by simp [TxPc.inFlight, Command.routed])
    · cases hnext
  · next hpc =>
    split at hnext
    · next hfree =>
      cases hnext
      have hconserved := h.conserved
      have hends := h.ends
      have hvalid := h.valid
      rw [hpc] at hconserved hends hvalid
      refine ⟨hconserved, fun i => ?_, rfl, by simpa using hends, fun hended => (by cases hended),
        fun hinvalid => (by cases hvalid hinvalid), h.cleans⟩
      rw [h.holds i, hfree]
      simp
    · cases hnext
  · next hpc =>
    split at hnext
    · next hqueue =>
      cases hnext
      have hconserved := h.conserved
      have hfits := h.fits
      have hvalid := h.valid
      rw [hpc] at hconserved hfits hvalid
      refine ⟨hconserved, h.holds, hfits, iff_of_true rfl rfl, fun _ c hc => ?_,
        fun hinvalid => (by cases hvalid hinvalid), h.cleans⟩
      have hin : c ∈ s.queue := hc
      rw [hqueue] at hin
      cases hin
    · next queue hqueue =>
      cases hnext
      exact h.goesOn rfl rfl (by simp [hpc]) (by simp [hpc]) (by rw [hqueue]; rfl)
    · next bundles queue hqueue =>
      cases hnext
      exact h.goesOn hpc rfl (by simp) (by simp) (by simp [hqueue, TxPc.inFlight, Command.routed])
  · next hpc =>
    cases hnext
    exact h.goesOn hpc rfl (by simp) (by simp) rfl
  · next bundle bundles hpc =>
    cases hnext
    exact h.goesOn hpc rfl (by simp) (by simp) (by simp [TxPc.inFlight, reportBundle])
  · cases hnext

theorem Inv.deactivated (h : Inv s) : Inv { s with active := false } :=
  ⟨h.conserved, h.holds, h.fits, h.ends, h.empty, h.valid, h.cleans⟩

theorem Inv.txFails (h : Inv s) (hnext : txFails s = some s') : Inv s' := by
  unfold TxTask.txFails at hnext
  split at hnext
  · next bundle bundles hpc =>
    cases hnext
    have hmoved : Inv { s with tx := .finalizing (bundle :: bundles) } :=
      h.goesOn hpc rfl (by simp) (by simp) rfl
    exact hmoved.deactivated
  · cases hnext

/-! ## The end of the link -/

theorem Inv.finalize (h : Inv s) : Inv { s with queue := s.queue ++ [.finalize] } where
  conserved := by
    show s.handed = _
    rw [h.conserved]
    simp [Command.routed]
  holds := h.holds
  fits := h.fits
  ends := h.ends
  empty hended c hc := by
    rcases List.mem_append.mp hc with hc | hc
    · exact h.empty hended c hc
    · exact List.mem_singleton.mp hc
  valid := h.valid
  cleans := h.cleans

theorem Inv.cleanup (h : Inv s) (hnext : cleanupStep s = some s') : Inv s' := by
  unfold cleanupStep at hnext
  split at hnext
  · next hpc =>
    split at hnext
    · next hended =>
      cases hnext
      have htx : s.tx = .ended := h.ends.mp hended.2
      have hfits := h.fits
      rw [htx, h.cleans.mpr hpc] at hfits
      refine ⟨h.conserved, h.holds, ?_, h.ends, h.empty, fun _ => htx, by simp⟩
      show s.sem.Fits s.tx.locked false
      rw [htx]
      cases hsem : s.sem with
      | free => exact fun _ => rfl
      | sender i =>
          rw [hsem] at hfits
          cases hfits.1
      | txTask => exact rfl
      | nobody => exact rfl
    · cases hnext
  · next hpc =>
    have hinvalid : s.handle = false := by
      rw [Bool.eq_false_iff, Ne, h.cleans, hpc]
      simp
    have hnone : ∀ i, (s.senders i).holds = true ↔ False := by
      intro i
      refine iff_of_false (fun hi => ?_) id
      rw [(h.open_of_holds hi).2] at hinvalid
      cases hinvalid
    split at hnext
    · cases hnext
      exact ⟨h.conserved, fun i => (hnone i).trans (by simp), hinvalid, h.ends, h.empty, h.valid,
        by simp [hinvalid]⟩
    · cases hnext
      exact ⟨h.conserved, fun i => (hnone i).trans (by simp), fun _ => hinvalid, h.ends, h.empty,
        h.valid, h.cleans⟩
  · cases hnext

/-- **One step of any task.** -/
theorem Inv.next (h : Inv s) {e : Event} (henabled : Enabled s e) (hnext : next s e = some s') :
    Inv s' := by
  cases e with
  | begin i bundles =>
      cases hnext
      exact h.senderKeeps (by rw [(of_decide_eq_true henabled).1]; rfl)
  | take i => exact h.take hnext
  | push i => exact h.push hnext
  | giveUp i => exact h.giveUp hnext
  | release i => exact h.release hnext
  | tx ok => exact h.txStep hnext
  | txFails => exact h.txFails hnext
  | deactivate =>
      cases hnext
      exact h.deactivated
  | finalize =>
      cases hnext
      exact h.finalize
  | rxEnds =>
      cases hnext
      exact ⟨h.conserved, h.holds, h.fits, h.ends, h.empty, h.valid, h.cleans⟩
  | cleanup => exact h.cleanup hnext

theorem invariant : Invariant system Anything Inv where
  init := by
    intro s hs
    obtain rfl : s = init := hs
    exact inv_init
  step := by
    intro s e s' h henabled _ hnext
    exact h.next henabled hnext

/-- What the other tasks leave alone.  Only a sender that has the semaphore hands something over, and
nobody pushes into a full queue. -/
theorem others_next {e : Event} (hnext : next s e = some s') (henabled : Enabled s e)
    (htx : ∀ ok, e ≠ .tx ok) (hfails : e ≠ .txFails) :
    s'.tx = s.tx ∧ s'.reports = s.reports ∧ (s.room = false → s'.room = false) ∧
      (s'.handed = s.handed ∨ ∃ i, (s.senders i).holds = true) := by
  cases e with
  | tx ok => exact absurd rfl (htx ok)
  | txFails => exact absurd rfl hfails
  | push i =>
      simp only [next, push] at hnext
      split at hnext
      · next hholding => grind [SenderPc.holds, State.setSender]
      · cases hnext
  | _ =>
      grind [next, semTake, giveUp, semRelease, cleanupStep, State.setSender, State.room, Enabled,
        possible]

/-! ## Every bundle is reported once -/

/-- **The property.** -/
structure ReportedOnce (s : State) : Prop where
  /-- the reports are the beginning of what was handed over, and the rest is still there -/
  order : s.handed = s.reports.map Prod.fst ++ s.tx.inFlight ++ s.queue.flatMap Command.routed
  /-- one sender at a time has the queue -/
  exclusive : ∀ i j, (s.senders i).holds = true → (s.senders j).holds = true → i = j
  /-- a sender that has the queue finds a TX task that will still look into it -/
  usable : ∀ i, (s.senders i).holds = true → s.tx.locked = false ∧ s.handle = true
  /-- when the TX task has ended, everything is reported, and nothing more is handed over -/
  complete : s.tx = .ended → s.handed = s.reports.map Prod.fst ∧
    ∀ t, ReachableFrom system Anything s t → t.handed = s.handed ∧ t.reports = s.reports

/-- What was handed over and reported stays as it is once the TX task has ended. -/
theorem ended_next (h : Inv s) (hended : s.tx = .ended) {e : Event} (henabled : Enabled s e)
    (hnext : next s e = some s') :
    s'.tx = .ended ∧ s'.handed = s.handed ∧ s'.reports = s.reports := by
  have htx : ∀ ok, txStep ok s = none := by simp [txStep, hended]
  have hfails : txFails s = none := by simp [txFails, hended]
  obtain ⟨hsame, hreports, -, hhanded⟩ := others_next hnext henabled
    (fun ok he => by simp [he, next, htx] at hnext) (fun he => by simp [he, next, hfails] at hnext)
  refine ⟨hsame.trans hended, hhanded.resolve_right ?_, hreports⟩
  intro hholds
  obtain ⟨i, hi⟩ := hholds
  exact ne_ended_of_locked (h.open_of_holds hi).1 hended

/-- **Every bundle is reported once.**  In every run of the senders, the TX task, the callers of the
disconnect handler and the clean-up of the link. -/
theorem reported_once {s : State} (h : Reachable system Anything s) : ReportedOnce s := by
  have hinv : Inv s := h.invariant invariant
  constructor
  · exact hinv.conserved
  · intro i j hi hj
    have hsem := (hinv.holds i).mp hi
    rw [(hinv.holds j).mp hj] at hsem
    exact (Sem.sender.inj hsem).symm
  · intro i hi
    exact hinv.open_of_holds hi
  · intro hended
    constructor
    · have hconserved := hinv.conserved
      have hqueue : s.queue.flatMap Command.routed = [] := by
        rw [List.flatMap_eq_nil_iff]
        intro c hc
        rw [hinv.empty hended c hc]
        rfl
      rw [hended, hqueue] at hconserved
      simpa [TxPc.inFlight] using hconserved
    · intro t hreach
      have hstays : t.tx = .ended ∧ t.handed = s.handed ∧ t.reports = s.reports := by
        refine h.along (J := fun t => t.tx = .ended ∧ t.handed = s.handed ∧ t.reports = s.reports)
          hreach invariant ⟨hended, rfl, rfl⟩ ?_
        intro r e r' hr hJ henabled _ hnext
        obtain ⟨hended', hhanded, hreports⟩ := ended_next hr hJ.1 henabled hnext
        exact ⟨hended', hhanded.trans hJ.2.1, hreports.trans hJ.2.2⟩
      exact hstays.2

/-- One bundle is sent, one is not found, and one comes after the link became inactive. -/
theorem reported_once_dropped : ∃ s, ReportedOnce s ∧ s.tx = .ended ∧
    s.reports = [(7, true), (8, false), (9, false)] := by
  have hrun : Runs system Anything
      (fun s => s.tx = .ended ∧ s.reports = [(7, true), (8, false), (9, false)]) init
      (handOver 0 [7, 8] ++ [.tx true, .tx true, .tx true, .tx false, .deactivate] ++
        handOver 1 [9] ++ List.replicate 7 (.tx true)) := by
    decide
  obtain ⟨t, hreach, hended, hreports⟩ := hrun.reachable
  exact ⟨t, reported_once ⟨_, rfl, hreach⟩, hended, hreports⟩

/-! ## The end of the TX task -/

/-- The TX task waits in the disconnect handler for room in its own queue. -/
def Stuck (s : State) : Prop := (∃ bundles, s.tx = .finalizing bundles) ∧ s.room = false

/-- `t` can follow on `s`. -/
abbrev Leads (s t : State) : Prop := ReachableFrom system Anything s t

/-- The TX task can reach its end. -/
def CanEnd (s : State) : Prop := ∃ t, Leads s t ∧ t.tx = .ended

theorem leads_event {e : Event} (henabled : Enabled s e) (hnext : next s e = some s') :
    Leads s s' :=
  ReachableFrom.refl.step ⟨e, henabled, trivial, hnext⟩

theorem leads_tx {ok : Bool} (hnext : txStep ok s = some s') : Leads s s' :=
  leads_event (e := .tx ok) (by simp [Enabled, possible, hnext]) hnext

theorem CanEnd.after (hreach : Leads s s') (h : CanEnd s') : CanEnd s := by
  obtain ⟨t, hreach', htx⟩ := h
  exact ⟨t, hreach.trans hreach', htx⟩

theorem Inv.leads (h : Inv s) (hreach : Leads s s') : Inv s' :=
  hreach.along h invariant.step

theorem drops {bundles : List RoutedBundle} (hpc : s.tx = .dropping bundles) :
    ∃ t, Leads s t ∧ t.tx = .drain ∧ t.queue = s.queue := by
  induction bundles generalizing s with
  | nil =>
      have hstep : txStep true s = some { s with tx := .drain } := by simp [txStep, hpc]
      exact ⟨_, leads_tx hstep, rfl, rfl⟩
  | cons bundle bundles ih =>
      have hstep : txStep true s =
          some { reportBundle s bundle false with tx := .dropping bundles } := by
        simp [txStep, hpc]
      obtain ⟨t, hreach, htx, hqueue⟩ := ih (s := { reportBundle s bundle false with
        tx := .dropping bundles }) rfl
      exact ⟨t, (leads_tx hstep).trans hreach, htx, hqueue⟩

theorem drains {queue : List Command} (hpc : s.tx = .drain) (hqueue : s.queue = queue) :
    CanEnd s := by
  induction queue generalizing s with
  | nil =>
      have hstep : txStep true s = some { s with txEnded := true, tx := .ended } := by
        simp [txStep, hpc, hqueue]
      exact ⟨_, leads_tx hstep, rfl⟩
  | cons c queue ih =>
      cases c with
      | finalize =>
          have hstep : txStep true s = some { s with queue } := by simp [txStep, hpc, hqueue]
          exact .after (leads_tx hstep) (ih hpc rfl)
      | bundles bs =>
          have hstep : txStep true s = some { s with queue, tx := .dropping bs } := by
            simp [txStep, hpc, hqueue]
          obtain ⟨r, hreach, htx, hleft⟩ := drops (s := { s with queue, tx := .dropping bs }) rfl
          exact .after ((leads_tx hstep).trans hreach) (ih htx hleft)

/-- A sender gives the semaphore back. -/
theorem frees (h : Inv s) (hopen : s.tx.locked = false) :
    ∃ t, Leads s t ∧ t.sem = .free ∧ t.tx = s.tx := by
  have hfits := h.fits
  cases hsem : s.sem with
  | free => exact ⟨s, .refl, hsem, rfl⟩
  | txTask =>
      rw [hsem, hopen] at hfits
      cases hfits
  | nobody =>
      rw [hsem] at hfits
      exact absurd (h.valid hfits) (ne_ended_of_locked hopen)
  | sender i =>
      have hreleases : ∀ r : State, r.senders i = .releasing →
          ∃ t, Leads r t ∧ t.sem = .free ∧ t.tx = r.tx := by
        intro r hr
        have hstep : semRelease i r = some { r.setSender i .idle with sem := .free } := by
          simp [semRelease, hr]
        have hleads : Leads r { r.setSender i .idle with sem := .free } :=
          leads_event (e := .release i) (by simp [Enabled, possible, hstep]) hstep
        exact ⟨_, hleads, rfl, rfl⟩
      have hholds := (h.holds i).mpr hsem
      cases hpc : s.senders i with
      | idle => simp [hpc, SenderPc.holds] at hholds
      | waiting bundles => simp [hpc, SenderPc.holds] at hholds
      | releasing => exact hreleases s hpc
      | holding bundles =>
          have hstep : giveUp i s = some (s.setSender i .releasing) := by simp [giveUp, hpc]
          obtain ⟨t, hreach, hfree, htx⟩ := hreleases _ (setSender_self s i .releasing)
          have hleads : Leads s (s.setSender i .releasing) :=
            leads_event (e := .giveUp i) (by simp [Enabled, possible, hstep]) hstep
          exact ⟨t, hleads.trans hreach, hfree, htx⟩

theorem locks (h : Inv s) (hpc : s.tx = .lock) : CanEnd s := by
  obtain ⟨r, hreach, hfree, htx⟩ := frees h (by rw [hpc]; rfl)
  have hstep : txStep true r = some { r with sem := .txTask, tx := .drain } := by
    simp [txStep, htx, hpc, hfree]
  exact .after (hreach.trans (leads_tx hstep)) (drains rfl rfl)

theorem checks (h : Inv s) (hpc : s.tx = .check) (hactive : s.active = false) : CanEnd s := by
  have hstep : txStep true s = some { s with tx := .lock } := by simp [txStep, hpc, hactive]
  exact .after (leads_tx hstep) (locks (h.leads (leads_tx hstep)) rfl)

theorem sends (h : Inv s) {bundles : List RoutedBundle} (hpc : s.tx = .sending bundles)
    (hactive : s.active = false) : CanEnd s := by
  induction bundles generalizing s with
  | nil =>
      have hstep : txStep true s = some { s with tx := .check } := by simp [txStep, hpc]
      exact .after (leads_tx hstep) (checks (h.leads (leads_tx hstep)) rfl hactive)
  | cons bundle bundles ih =>
      have hstep : txStep true s =
          some { reportBundle s bundle true with tx := .sending bundles } := by
        simp [txStep, hpc]
      exact .after (leads_tx hstep) (ih (h.leads (leads_tx hstep)) rfl hactive)

theorem receives (h : Inv s) (hpc : s.tx = .receive) (hactive : s.active = false) :
    CanEnd s := by
  have hfinal : ∀ {r : State} {queue : List Command}, Inv r → r.tx = .receive →
      r.queue = .finalize :: queue → CanEnd r := by
    intro r queue hr hpc' hqueue
    have hstep : txStep true r = some { r with queue, tx := .lock } := by
      simp [txStep, hpc', hqueue]
    exact .after (leads_tx hstep) (locks (hr.leads (leads_tx hstep)) rfl)
  cases hqueue : s.queue with
  | nil =>
      -- the caller of the disconnect handler has still to push its command
      have hrunning : s.txEnded = false := by
        rw [Bool.eq_false_iff, Ne, h.ends, hpc]
        simp
      have hleads : Leads s { s with queue := s.queue ++ [.finalize] } := by
        refine leads_event (e := .finalize) ?_ rfl
        simp [Enabled, possible, hrunning, hactive, State.room, hqueue, contactTxTaskQueueLength]
      have hnew : s.queue ++ [.finalize] = .finalize :: [] := by rw [hqueue, List.nil_append]
      exact .after hleads (hfinal (h.leads hleads) hpc hnew)
  | cons c queue =>
      cases c with
      | finalize => exact hfinal h hpc hqueue
      | bundles bs =>
          have hstep : txStep true s = some { s with queue, tx := .sending bs } := by
            simp [txStep, hpc, hqueue]
          exact .after (leads_tx hstep) (sends (h.leads (leads_tx hstep)) rfl hactive)

/-- A task that is not stuck can end. -/
theorem can_end (h : Inv s) (hactive : s.active = false) (hfree : ¬ Stuck s) : CanEnd s := by
  cases hpc : s.tx with
  | check => exact checks h hpc hactive
  | receive => exact receives h hpc hactive
  | sending bundles => exact sends h hpc hactive
  | finalizing bundles =>
      have hroom : s.room = true := by
        rw [← Bool.not_eq_false]
        intro hfull
        exact hfree ⟨⟨bundles, hpc⟩, hfull⟩
      have hstep : txStep true s =
          some { s with queue := s.queue ++ [.finalize], tx := .sending bundles } := by
        simp [txStep, hpc, hroom]
      exact .after (leads_tx hstep) (sends (h.leads (leads_tx hstep)) rfl hactive)
  | lock => exact locks h hpc
  | drain => exact drains hpc rfl
  | dropping bundles =>
      obtain ⟨r, hreach, htx, -⟩ := drops hpc
      exact .after hreach (drains htx rfl)
  | ended => exact ⟨s, .refl, hpc⟩

/-- A step of the other tasks does not make room in the queue. -/
theorem stuck_next (h : Stuck s) {e : Event} (henabled : Enabled s e) (hnext : next s e = some s') :
    Stuck s' ∧ s'.tx = s.tx ∧ s'.reports = s.reports := by
  obtain ⟨⟨bundles, hpc⟩, hfull⟩ := h
  have htx : ∀ ok, txStep ok s = none := by simp [txStep, hpc, hfull]
  have hfails : txFails s = none := by simp [txFails, hpc]
  obtain ⟨hsame, hreports, hroom, -⟩ := others_next hnext henabled
    (fun ok he => by simp [he, next, htx] at hnext) (fun he => by simp [he, next, hfails] at hnext)
  exact ⟨⟨⟨bundles, hsame.trans hpc⟩, hroom hfull⟩, hsame, hreports⟩

theorem stuck_leads (h : Stuck s) (hreach : Leads s s') :
    s'.tx = s.tx ∧ s'.reports = s.reports := by
  have hstays : Stuck s' ∧ s'.tx = s.tx ∧ s'.reports = s.reports := by
    refine hreach.along (I := fun t => Stuck t ∧ t.tx = s.tx ∧ t.reports = s.reports)
      ⟨h, rfl, rfl⟩ ?_
    intro r e r' hr henabled _ hnext
    obtain ⟨hstuck, htx, hreports⟩ := stuck_next hr.1 henabled hnext
    exact ⟨hstuck, htx.trans hr.2.1, hreports.trans hr.2.2⟩
  exact hstays.2

/-- **The end of the TX task.**  After its link became inactive, the TX task can still end, unless it
has called the disconnect handler with its queue full; and then it reports nothing any more. -/
theorem ends_unless_stuck {s : State} (h : Reachable system Anything s)
    (hactive : s.active = false) : (CanEnd s ↔ ¬ Stuck s) ∧
      (Stuck s → ∀ t, Leads s t → t.tx = s.tx ∧ t.reports = s.reports) := by
  have hinv : Inv s := h.invariant invariant
  refine ⟨⟨?_, can_end hinv hactive⟩, fun hstuck t hreach => stuck_leads hstuck hreach⟩
  intro hends hstuck
  obtain ⟨t, hreach, hended⟩ := hends
  obtain ⟨bundles, hpc⟩ := hstuck.1
  rw [(stuck_leads hstuck hreach).1, hpc] at hended
  cases hended

/-- Three commands wait when a transmission fails. -/
theorem ends_unless_stuck_full :
    ∃ s, Reachable system Anything s ∧ Stuck s ∧ ¬ CanEnd s := by
  have hrun : Runs system Anything
      (fun s => s.tx = .finalizing [7] ∧ s.room = false ∧ s.active = false) init
      (handOver 0 [7] ++ [.tx true, .tx true] ++ handOver 0 [8] ++ handOver 1 [9] ++
        handOver 0 [10] ++ [.txFails]) := by
    decide
  obtain ⟨t, hreach, hpc, hfull, hactive⟩ := hrun.reachable
  have hreachable : Reachable system Anything t := ⟨_, rfl, hreach⟩
  have hstuck : Stuck t := ⟨⟨_, hpc⟩, hfull⟩
  exact ⟨t, hreachable, hstuck,
    fun hends => (ends_unless_stuck hreachable hactive).1.mp hends hstuck⟩

end TxTask
