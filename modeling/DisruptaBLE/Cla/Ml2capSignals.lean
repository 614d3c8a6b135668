import DisruptaBLE.Cla.Ml2capLinks
import Mathlib.Data.List.Chain

/-!
# What the router hears of the links

`cla_ml2cap.c` tells the router with `ROUTER_SIGNAL_CONN_UP` and `ROUTER_SIGNAL_CONN_DOWN` when the
channel of a link comes up or goes down.  A signal only carries the CLA address, and its text may be
missing when there is no memory for it.

As long as no text is missing, the two signals take turns for every address, and the last one says
whether a link with the address is up (`signals_told`).
-/

namespace Ml2capLinks

open EpidemicRouter (CStr)
open Interleaving

/-- What a signal says of the channel to an address. -/
def Signal.connEvent (claAddr : CStr) : Signal → Option Bool
  | .connUp (some addr) => if addr = claAddr then some true else none
  | .connDown (some addr) => if addr = claAddr then some false else none
  | _ => none

/-- The events of the channels to an address. -/
def connEvents (claAddr : CStr) (signals : List Signal) : List Bool :=
  signals.filterMap (·.connEvent claAddr)

/-- A link with the address is up. -/
def Up (links : List Link) (claAddr : CStr) : Prop :=
  ∃ l ∈ links, l.claAddr = claAddr ∧ l.chanConnected = true

/-- There is memory for the text of a signal on a channel. -/
def hasText : Event → Bool
  | .chanConnected _ _ text _ => text
  | .chanDisconnected _ text _ => text
  | _ => true

/-- The condition: no signal loses its text. -/
def Informed (_ : State) (e : Event) : Prop := hasText e = true

instance decidableInformed (s : State) (e : Event) : Decidable (Informed s e) :=
  inferInstanceAs (Decidable (hasText e = true))

/-- **The property.**  The signals take turns, and the last one tells the truth. -/
structure Told (s : State) : Prop where
  turns : ∀ claAddr, List.IsChain (· ≠ ·) (false :: connEvents claAddr s.signals)
  last : ∀ claAddr, (connEvents claAddr s.signals).getLastD false = true ↔ Up s.links claAddr

variable {P : Config} {s s' : State} {links : List Link} {claAddr : CStr}

theorem connEvents_append (claAddr : CStr) (a b : List Signal) :
    connEvents claAddr (a ++ b) = connEvents claAddr a ++ connEvents claAddr b :=
  List.filterMap_append

/-- Another turn. -/
theorem turns_append {es : List Bool} {e : Bool} (h : List.IsChain (· ≠ ·) (false :: es))
    (hne : es.getLastD false ≠ e) : List.IsChain (· ≠ ·) (false :: (es ++ [e])) := by
  rw [← List.cons_append, List.isChain_append]
  refine ⟨h, .singleton e, ?_⟩
  intro x hx y hy
  rw [List.getLast?_cons, Option.mem_some_iff] at hx
  obtain rfl : e = y := by simpa using hy
  rw [← hx, ← List.getLastD_eq_getLast?]
  exact hne

/-- What a step adds to the signals, and that they still tell the truth. -/
structure Follows (s s' : State) : Prop where
  grows : s.signals <+: s'.signals
  told : Told s'

/-- Signals that say nothing of the channels, and links whose channels are as before. -/
theorem Told.quiet (h : Told s) {new : List Signal} (hsignals : s'.signals = s.signals ++ new)
    (hquiet : ∀ a, connEvents a new = []) (hup : ∀ a, Up s'.links a ↔ Up s.links a) :
    Follows s s' := by
  have hevents : ∀ a, connEvents a s'.signals = connEvents a s.signals := by
    intro a
    rw [hsignals, connEvents_append, hquiet, List.append_nil]
  refine ⟨⟨new, hsignals.symm⟩, fun a => ?_, fun a => ?_⟩
  · rw [hevents]
    exact h.turns a
  · rw [hevents, hup]
    exact h.last a

/-- No signal. -/
theorem Told.silent (h : Told s) (hsignals : s'.signals = s.signals)
    (hup : ∀ a, Up s'.links a ↔ Up s.links a) : Follows s s' :=
  h.quiet (hsignals.trans (List.append_nil _).symm) (fun _ => rfl) hup

/-- A signal on a channel. -/
theorem Told.signal (h : Told s) (addr : CStr) (e : Bool) (signals : List Signal)
    (hsignals : s'.signals = s.signals ++ signals)
    (hevents : ∀ a, connEvents a signals = if addr = a then [e] else [])
    (hup : ∀ a, Up s'.links a ↔ if addr = a then e = true else Up s.links a)
    (hbefore : Up s.links addr ↔ e = false) : Follows s s' := by
  refine ⟨⟨signals, hsignals.symm⟩, fun a => ?_, fun a => ?_⟩
  · rw [hsignals, connEvents_append, hevents]
    split
    · next heq =>
      subst heq
      refine turns_append (h.turns addr) ?_
      have hlast := (h.last addr).trans hbefore
      intro heq
      rw [heq] at hlast
      cases e
      · exact absurd (hlast.mpr rfl) (by decide)
      · exact absurd (hlast.mp rfl) (by decide)
    · rw [List.append_nil]
      exact h.turns a
  · rw [hsignals, connEvents_append, hevents, hup]
    split
    · rw [List.getLastD_concat]
    · rw [List.append_nil]
      exact h.last a

/-! ## One event -/

/-- A link is written: its own address follows it, and the others stay as they are. -/
theorem up_writeLink {conns : List BtConn} (h : Agree links conns) {link new : Link}
    (hlink : link ∈ links) (hconn : new.conn = link.conn) (hcla : new.claAddr = link.claAddr)
    (a : CStr) : Up (writeLink links new) a ↔
      if link.claAddr = a then new.chanConnected = true else Up links a := by
  constructor
  · intro hup
    obtain ⟨l, hl, haddr, hl_up⟩ := hup
    obtain ⟨k, hk, rfl⟩ := List.mem_map.mp hl
    split at haddr
    · next heq =>
      rw [if_pos heq] at hl_up
      rw [if_pos (hcla.symm.trans haddr)]
      exact hl_up
    · next hne =>
      rw [if_neg hne] at hl_up
      have hother : link.claAddr ≠ a := by
        intro heq
        obtain rfl := h.eq_of_addr k hk link hlink (haddr.trans heq.symm)
        exact hne hconn.symm
      rw [if_neg hother]
      exact ⟨k, hk, haddr, hl_up⟩
  · intro hup
    split at hup
    · next heq =>
      refine ⟨new, List.mem_map.mpr ⟨link, hlink, ?_⟩, hcla.trans heq, hup⟩
      rw [if_pos hconn.symm]
    · next hne =>
      obtain ⟨l, hl, haddr, hl_up⟩ := hup
      refine ⟨l, List.mem_map.mpr ⟨l, hl, ?_⟩, haddr, hl_up⟩
      rw [if_neg]
      intro heq
      obtain rfl := eq_of_conn h.entries hl hlink (heq.trans hconn)
      exact hne haddr

/-- The address of a link is up when the link is. -/
theorem up_link {conns : List BtConn} (h : Agree links conns) {link : Link}
    (hlink : link ∈ links) : Up links link.claAddr ↔ link.chanConnected = true := by
  constructor
  · intro hup
    obtain ⟨l, hl, haddr, hl_up⟩ := hup
    obtain rfl := h.eq_of_addr l hl link hlink haddr
    exact hl_up
  · intro hup
    exact ⟨link, hlink, rfl, hup⟩

/-- Notes in a link. -/
theorem up_noted {conns : List BtConn} (h : Agree links conns) {link new : Link}
    (hlink : link ∈ links) (hconn : new.conn = link.conn) (hcla : new.claAddr = link.claAddr)
    (hsame : new.chanConnected = link.chanConnected) (a : CStr) :
    Up (writeLink links new) a ↔ Up links a := by
  rw [up_writeLink h hlink hconn hcla]
  split
  · next heq => rw [← heq, up_link h hlink, hsame]
  · exact Iff.rfl

/-- A new link is not up. -/
theorem up_append {link : Link} (hdown : link.chanConnected = false) (a : CStr) :
    Up (links ++ [link]) a ↔ Up links a := by
  constructor
  · intro hup
    obtain ⟨l, hl, haddr, hl_up⟩ := hup
    rcases List.mem_append.mp hl with hl | hl
    · exact ⟨l, hl, haddr, hl_up⟩
    · obtain rfl := List.mem_singleton.mp hl
      rw [hdown] at hl_up
      cases hl_up
  · intro hup
    obtain ⟨l, hl, haddr, hl_up⟩ := hup
    exact ⟨l, List.mem_append_left _ hl, haddr, hl_up⟩

/-- A link that is not up goes. -/
theorem up_removed {conns : List BtConn} (h : Agree links conns) {link : Link} {left : List Link}
    (hlink : link ∈ links) (hdown : link.chanConnected = false)
    (hleft : (link :: left).Perm links) (a : CStr) : Up left a ↔ Up links a := by
  constructor
  · intro hup
    obtain ⟨l, hl, haddr, hl_up⟩ := hup
    exact ⟨l, ((h.mem_removed hleft l).mp hl).1, haddr, hl_up⟩
  · intro hup
    obtain ⟨l, hl, haddr, hl_up⟩ := hup
    refine ⟨l, (h.mem_removed hleft l).mpr ⟨hl, ?_⟩, haddr, hl_up⟩
    intro heq
    obtain rfl := eq_of_conn h.entries hl hlink heq
    rw [hdown] at hl_up
    cases hl_up

theorem Told.discovered (h : Told s) (eid macAddr : CStr) (connectable : Bool)
    (calls : DiscoveryCalls) :
    Follows s (handleDiscoveredNeighborInfo P s eid macAddr connectable calls) := by
  have hpushed : ∀ t : State, t.signals = s.signals ++
      [.neighborDiscovered eid (copied calls.text (claAddrOf macAddr))] → t.links = s.links →
        Follows s t := fun t hsignals hlinks =>
    h.quiet hsignals (fun a => rfl) fun a => by rw [hlinks]
  unfold handleDiscoveredNeighborInfo
  split
  · exact h.silent rfl fun a => Iff.rfl
  · dsimp only
    split
    · exact hpushed _ rfl rfl
    · split
      · exact hpushed _ rfl rfl
      · split
        · exact hpushed _ rfl rfl
        · split
          · exact hpushed _ rfl rfl
          · unfold createConnection
            dsimp only
            split <;> exact hpushed _ rfl rfl

/-- A new link is not up. -/
theorem Told.added (h : Told s) {t : State} {link : Link} (hadd : addActiveLink P t link = some s')
    (hdown : link.chanConnected = false) (hlinks : t.links = s.links)
    (hsignals : t.signals = s.signals) (nbBle : NbBle) : Follows s { s' with nbBle } := by
  unfold addActiveLink at hadd
  split at hadd
  · cases hadd
    refine h.silent hsignals fun a => ?_
    show Up (t.links ++ [link]) a ↔ Up s.links a
    rw [hlinks]
    exact up_append hdown a
  · cases hadd

theorem Told.connected (h : Told s) (conn : Conn) (macAddr : CStr) (role : Role)
    (calls : ConnectedCalls) {t : State} (hnext : connected P t conn macAddr role calls = some s')
    (hlinks : t.links = s.links) (hsignals : t.signals = s.signals) : Follows s s' := by
  have hsame : ∀ t' : State, t'.links = s.links → t'.signals = s.signals → Follows s t' :=
    fun t' hl hsig => h.silent hsig fun a => by rw [hl]
  unfold Ml2capLinks.connected at hnext
  split at hnext
  · cases hnext
    exact hsame _ hlinks hsignals
  · split at hnext
    · cases hnext
      exact hsame _ hlinks hsignals
    · cases role with
      | master =>
          dsimp only at hnext
          split at hnext
          · obtain ⟨s'', hadd, hs'⟩ := Option.bind_eq_some_iff.mp hnext
            cases hs'
            exact h.added hadd rfl hlinks hsignals _
          · cases hnext
            exact hsame _ hlinks hsignals
      | slave =>
          obtain ⟨s'', hadd, hs'⟩ := Option.bind_eq_some_iff.mp hnext
          cases hs'
          exact h.added hadd rfl hlinks hsignals _

theorem Told.disconnected (h : Told s) (hinv : Inv P s) (conn : Conn) {t : State}
    (hnext : disconnected P t conn = some s') (hlinks : t.links = s.links)
    (hsignals : t.signals = s.signals) : Follows s s' := by
  unfold Ml2capLinks.disconnected at hnext
  rw [hlinks] at hnext
  split at hnext
  · next link hfind =>
    obtain ⟨hlink, -⟩ := find_some hfind
    split at hnext
    · cases hnext
    · next hdown =>
      have hagree : Agree t.links s.conns := hlinks ▸ hinv.agree
      have hperm := removeActiveLink_perm (P := P) hagree (hlinks ▸ hlink)
      cases hnext
      rw [hlinks] at hperm
      exact h.silent hsignals (up_removed hinv.agree hlink (Bool.eq_false_iff.mpr hdown) hperm)
  · cases hnext
    exact h.silent hsignals fun a => Iff.rfl

theorem Told.chanConnected (h : Told s) (hinv : Inv P s) {conn : Conn} {linkInit : Bool} {now : Nat}
    (hnext : chanConnectedCb (s.setChannel conn true) conn linkInit true now = some s') :
    Follows s s' := by
  unfold chanConnectedCb at hnext
  rw [show (s.setChannel conn true).links = s.links from rfl] at hnext
  split at hnext
  · next link hfind =>
    obtain ⟨hlink, -⟩ := find_some hfind
    split at hnext
    · cases hnext
    · next hdown =>
      rw [Bool.not_eq_true] at hdown
      cases linkInit with
      | true =>
          cases hnext
          refine h.signal link.claAddr true [.newLinkEstablished, .connUp (some link.claAddr)]
            ?_ ?_ ?_ ?_
          · exact List.append_assoc _ _ _
          · intro a
            by_cases ha : link.claAddr = a <;> simp [connEvents, Signal.connEvent, ha]
          · exact up_writeLink hinv.agree hlink rfl rfl
          · rw [up_link hinv.agree hlink, hdown]
            simp
      | false =>
          cases hnext
          exact h.silent rfl (up_noted hinv.agree hlink rfl rfl hdown.symm)
  · cases hnext
    exact h.silent rfl fun a => Iff.rfl

theorem Told.chanDisconnected (h : Told s) (hinv : Inv P s) (conn : Conn) (now : Nat) :
    Follows s (chanDisconnectedCb (s.setChannel conn false) conn true now) := by
  unfold chanDisconnectedCb
  rw [show (s.setChannel conn false).links = s.links from rfl]
  split
  · next link hfind =>
    obtain ⟨hlink, -⟩ := find_some hfind
    dsimp only
    split
    · next hup =>
      refine h.signal link.claAddr false [.connDown (some link.claAddr)] rfl ?_ ?_ ?_
      · intro a
        by_cases ha : link.claAddr = a <;> simp [connEvents, Signal.connEvent, ha]
      · exact up_writeLink hinv.agree hlink rfl rfl
      · rw [up_link hinv.agree hlink, hup]
        simp
    · next hdown =>
      rw [Bool.not_eq_true] at hdown
      exact h.silent rfl (up_noted hinv.agree hlink rfl rfl hdown.symm)
  · exact h.silent rfl fun a => Iff.rfl

theorem Told.noteLink (h : Told s) (hinv : Inv P s) (conn : Conn) {note : Link → Link}
    (hnote : ∀ link, Unmoved link (note link)) : Follows s (noteLink s conn note) := by
  unfold Ml2capLinks.noteLink
  split
  · next link hfind =>
    have hnew := hnote link
    exact h.silent rfl (up_noted hinv.agree (find_some hfind).1 hnew.conn hnew.cla hnew.up)
  · exact h.silent rfl fun a => Iff.rfl

theorem Told.manageLoop (h : Told s) (hinv : Inv P s) (now i n : Nat) :
    Follows s (manageLoop now s i n) := by
  induction n generalizing s i with
  | zero => exact h.silent rfl fun a => Iff.rfl
  | succ n ih =>
      unfold Ml2capLinks.manageLoop
      split
      · exact h.silent rfl fun a => Iff.rfl
      · next link hget =>
        have hlink := List.mem_of_getElem? hget
        split
        · have hmarked : Follows s (btConnDisconnect
              { s with links := writeLink s.links { link with shuttingDown := true } } link.conn) :=
            h.silent rfl (up_noted hinv.agree hlink rfl rfl rfl)
          have hrest := ih hmarked.told (hinv.shutDown hlink) (i + 1)
          exact ⟨hmarked.grows.trans hrest.grows, hrest.told⟩
        · exact ih h hinv (i + 1)

/-- **One event.** -/
theorem Told.next (h : Told s) (hinv : Inv P s) {e : Event} (hinformed : Informed s e)
    (hnext : next P s e = some s') : Follows s s' := by
  cases e with
  | discovered eid macAddr connectable calls =>
      cases hnext
      exact h.discovered eid macAddr connectable calls
  | connected conn macAddr role calls =>
      exact h.connected conn macAddr role calls hnext rfl rfl
  | connectionFailed conn =>
      cases hnext
      exact h.silent rfl fun a => Iff.rfl
  | chanConnected conn linkInit text now =>
      obtain rfl : text = true := hinformed
      exact h.chanConnected hinv hnext
  | chanDisconnected conn text now =>
      obtain rfl : text = true := hinformed
      cases hnext
      exact h.chanDisconnected hinv conn now
  | received conn numBytes now =>
      cases hnext
      exact h.noteLink hinv conn fun _ => ⟨rfl, rfl, rfl, rfl, rfl, rfl⟩
  | transmitted conn sent now =>
      cases hnext
      exact h.noteLink hinv conn fun _ => ⟨rfl, rfl, rfl, rfl, rfl, rfl⟩
  | eidRead conn eid remote node =>
      cases hnext
      unfold gattEidClientReadCb
      split
      · next link hfind =>
        split
        · exact h.quiet rfl (fun a => rfl) (up_noted hinv.agree (find_some hfind).1 rfl rfl rfl)
        · exact h.silent rfl fun a => Iff.rfl
      · exact h.silent rfl fun a => Iff.rfl
  | disconnected conn =>
      exact h.disconnected hinv conn hnext rfl rfl
  | advertisingEnds =>
      cases hnext
      exact h.silent rfl fun a => Iff.rfl
  | manage now =>
      cases hnext
      exact h.manageLoop hinv now 0 s.links.length
  | nbManage scanOk advOk =>
      cases hnext
      exact h.silent rfl fun a => Iff.rfl

theorem told_init : Told (init P) where
  turns a := .singleton false
  last a := by
    constructor
    · intro h
      cases h
    · intro h
      obtain ⟨l, hl, -⟩ := h
      cases hl

/-- The links and what the router heard of them. -/
def LinksTold (P : Config) (s : State) : Prop := Inv P s ∧ Told s

theorem linksTold_invariant : Invariant (system P) Informed (LinksTold P) where
  init := by
    intro s hs
    obtain rfl : s = init P := hs
    exact ⟨inv_init, told_init⟩
  step := by
    intro s e s' h henabled hinformed hnext
    exact ⟨(invariant Informed).step s e s' h.1 henabled hinformed hnext,
      (h.2.next h.1 hinformed hnext).told⟩

/-- **The router hears the truth.**  In every run in which no signal loses its text. -/
theorem signals_told {s : State} (h : Reachable (system P) Informed s) : Told s :=
  (h.invariant linksTold_invariant).2

/-- A connection comes up and goes down. -/
theorem signals_told_down : ∃ s, Told s ∧
    connEvents "ml2cap://AA".toList s.signals = [true, false] := by
  have hrun : Runs (system ⟨1, false⟩) Informed
      (fun s => connEvents "ml2cap://AA".toList s.signals = [true, false]) (init ⟨1, false⟩)
      (connectEvents ++ [.manage 5000, .chanDisconnected 0 true 5010, .disconnected 0]) := by
    decide
  obtain ⟨t, hreach, hevents⟩ := hrun.reachable
  exact ⟨t, signals_told ⟨_, rfl, hreach⟩, hevents⟩

end Ml2capLinks
