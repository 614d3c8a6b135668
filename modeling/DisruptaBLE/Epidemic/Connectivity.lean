import DisruptaBLE.Cla.Ml2capSignals
import DisruptaBLE.Epidemic.ContactActivity

/-!
# Contacts and channels

The router task takes the signals that ML2CAP pushes into its queue one after the other
(`process_signal` in `components/routing/epidemic/router_task.c`) and passes them on to the contact
manager.  The callbacks and tasks of ML2CAP and the router task are one system here: a signal is
handled at any later time, while links go on coming and going.

Whenever the router has handled all signals, the active contacts are those whose CLA address has a
link with an open channel (`contacts_follow_channels`).  The conditions on the events are those
under which the two parts are right: no signal loses its text, and a neighbour's address does not
change while it is connected.
-/

namespace Connectivity

open EpidemicRouter EpidemicRouter.ContactArray
open Interleaving
open Ml2capLinks (Signal Up connEvents)

/-- A node: ML2CAP, and the contact manager behind the router's queue. -/
structure Node where
  cla : Ml2capLinks.State
  /-- the number of signals that the router has handled -/
  handled : Nat
  contacts : ContactArray
  /-- what was seen of the connections, which is not a part of the program -/
  log : ConnLog

/-- The events: one of ML2CAP, or a pass of the router task. -/
inductive Event where
  | cla (e : Ml2capLinks.Event)
  | route (env : CmEnv)

/-- What `process_signal` asks of the contact manager. -/
def operation : Signal → Option CmOp
  | .newLinkEstablished => none
  | .neighborDiscovered eid (some claAddr) => some (.discovered ⟨eid, claAddr⟩)
  | .neighborDiscovered _ none => none
  | .connUp claAddr => claAddr.map .connUp
  | .connDown claAddr => claAddr.map .connDown

/-- `ASSERT(node->cla_addr != NULL)` in `handle_discovered_neighbor`. -/
def wellFormed : Signal → Bool
  | .neighborDiscovered _ claAddr => claAddr.isSome
  | _ => true

/-- `process_signal` in the task of the router. -/
def processSignal (env : CmEnv) (n : Node) (signal : Signal) : Option Node :=
  if wellFormed signal then
    match operation signal with
    | none => some n
    | some op =>
        match ContactArray.step env n.contacts op with
        | .ok contacts => some { n with contacts, log := n.log.record n.contacts contacts op }
        | .error _ => none
  else none

/-- A pass of `router_task` with a signal. -/
def route (env : CmEnv) (n : Node) : Option Node :=
  match n.cla.signals[n.handled]? with
  | none => none
  | some signal => (processSignal env n signal).map fun n => { n with handled := n.handled + 1 }

/-- An event. -/
def next (P : Ml2capLinks.Config) (n : Node) : Event → Option Node
  | .cla e => (Ml2capLinks.next P n.cla e).map fun cla => { n with cla }
  | .route env => route env n

/-- The router task waits for a signal, and the stack keeps its promises. -/
def Enabled (n : Node) : Event → Prop
  | .cla e => Ml2capLinks.Enabled n.cla e
  | .route _ => n.handled < n.cla.signals.length

/-- After `contact_manager_init` and the start of ML2CAP. -/
def init (P : Ml2capLinks.Config) : Node where
  cla := Ml2capLinks.init P
  handled := 0
  contacts := contactArrayInit
  log := ⟨fun _ => none, fun _ => none⟩

/-- The system. -/
def system (P : Ml2capLinks.Config) : System Node Event where
  init n := n = init P
  enabled := Enabled
  next := next P

/-- **The conditions** on the events: there is memory for the texts of the signals on channels, and
what the router hands to the contact manager satisfies its condition. -/
def Steady (n : Node) : Event → Prop
  | .cla e => Ml2capLinks.Informed n.cla e
  | .route env => ∀ signal, n.cla.signals[n.handled]? = some signal →
      ∀ op, operation signal = some op → CountedSettled n.contacts n.log env op

variable {P : Ml2capLinks.Config} {n n' : Node}

/-! ## The log of the contact manager -/

/-- The last event of the channels to an address. -/
def lastEvent (claAddr : CStr) (signals : List Signal) : Option Bool :=
  (connEvents claAddr signals).getLast?

theorem lastEvent_concat (claAddr : CStr) (signals : List Signal) (signal : Signal) :
    lastEvent claAddr (signals ++ [signal]) =
      (signal.connEvent claAddr).or (lastEvent claAddr signals) := by
  unfold lastEvent
  rw [Ml2capLinks.connEvents_append, show connEvents claAddr [signal] =
    (signal.connEvent claAddr).toList by
      unfold connEvents
      cases h : signal.connEvent claAddr <;> simp [h]]
  cases signal.connEvent claAddr with
  | none => rw [Option.toList_none, List.append_nil, Option.none_or]
  | some e => rw [Option.toList_some, List.getLast?_concat, Option.some_or]

/-- What a handled signal adds to the log. -/
theorem record_last (g : ConnLog) (s s' : ContactArray) {signal : Signal} {op : CmOp}
    (hop : operation signal = some op) (claAddr : CStr) :
    (g.record s s' op).last claAddr = (signal.connEvent claAddr).or (g.last claAddr) := by
  have hsaid : ∀ (addr : CStr) (up : Bool),
      (if claAddr = addr then some up else g.last claAddr) =
        (if addr = claAddr then some up else none).or (g.last claAddr) := by
    intro addr up
    by_cases heq : claAddr = addr
    · simp [heq]
    · simp [heq, Ne.symm heq]
  rcases signal with _ | ⟨eid, _ | addr⟩ | ⟨_ | addr⟩ | ⟨_ | addr⟩ <;> cases hop
  · rfl
  · exact hsaid addr true
  · exact hsaid addr false

/-- Signals that ask for nothing say nothing of the channels. -/
theorem connEvent_of_none {signal : Signal} (hop : operation signal = none) (claAddr : CStr) :
    signal.connEvent claAddr = none := by
  rcases signal with _ | ⟨eid, _ | addr⟩ | ⟨_ | addr⟩ | ⟨_ | addr⟩ <;> first | rfl | cases hop

/-! ## The invariant -/

/-- The invariant: the links, what was said of them, what the contact manager knows, and that it
knows what the handled signals said. -/
structure Inv (P : Ml2capLinks.Config) (n : Node) : Prop where
  links : Ml2capLinks.LinksTold P n.cla
  activity : ActivityInv n.contacts n.log
  bound : n.handled ≤ n.cla.signals.length
  heard : ∀ claAddr, n.log.last claAddr = lastEvent claAddr (n.cla.signals.take n.handled)

theorem inv_init : Inv P (init P) where
  links := ⟨Ml2capLinks.inv_init, Ml2capLinks.told_init⟩
  activity := ⟨ContactArray.inv_init, fun c hc => (by cases hc), fun claAddr hup => (by cases hup)⟩
  bound := Nat.le_refl _
  heard claAddr := rfl

/-- An event of ML2CAP. -/
theorem Inv.cla (h : Inv P n) {e : Ml2capLinks.Event} (henabled : Ml2capLinks.Enabled n.cla e)
    (hinformed : Ml2capLinks.Informed n.cla e) {cla : Ml2capLinks.State}
    (hnext : Ml2capLinks.next P n.cla e = some cla) : Inv P { n with cla } := by
  obtain ⟨new, hnew⟩ := (h.links.2.next h.links.1 hinformed hnext).grows
  refine ⟨?_, h.activity, ?_, ?_⟩
  · exact Ml2capLinks.linksTold_invariant.step _ _ _ h.links henabled hinformed hnext
  · show n.handled ≤ cla.signals.length
    rw [← hnew, List.length_append]
    exact Nat.le_trans h.bound (Nat.le_add_right _ _)
  · intro claAddr
    show n.log.last claAddr = lastEvent claAddr (cla.signals.take n.handled)
    rw [← hnew, List.take_append_of_le_length h.bound]
    exact h.heard claAddr

/-- A pass of the router task. -/
theorem Inv.route (h : Inv P n) {env : CmEnv} (hsteady : Steady n (.route env))
    (hnext : route env n = some n') : Inv P n' := by
  unfold Connectivity.route at hnext
  split at hnext
  · cases hnext
  · next signal hsignal =>
    obtain ⟨m, hprocess, rfl⟩ := Option.map_eq_some_iff.mp hnext
    have hlt : n.handled < n.cla.signals.length := (List.getElem?_eq_some_iff.mp hsignal).1
    have hheard : ∀ claAddr, lastEvent claAddr (n.cla.signals.take (n.handled + 1)) =
        (signal.connEvent claAddr).or (n.log.last claAddr) := by
      intro claAddr
      rw [List.take_add_one, hsignal, Option.toList_some, lastEvent_concat, h.heard]
    unfold processSignal at hprocess
    split at hprocess
    · split at hprocess
      · next hop =>
        cases hprocess
        refine ⟨h.links, h.activity, hlt, ?_⟩
        intro claAddr
        rw [hheard, connEvent_of_none hop, Option.none_or]
      · next op hop =>
        split at hprocess
        · next contacts hstep =>
          cases hprocess
          obtain ⟨hcounted, hsettled⟩ := hsteady signal hsignal op hop
          refine ⟨h.links, h.activity.step hcounted hsettled hstep, hlt, ?_⟩
          intro claAddr
          rw [hheard]
          exact record_last n.log n.contacts contacts hop claAddr
        · cases hprocess
    · cases hprocess

end Connectivity
