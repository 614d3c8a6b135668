import DisruptaBLE.Lib.Interleaving
import DisruptaBLE.Epidemic.Htab

/-!
# The links of ML2CAP

`components/cla/zephyr/cla_ml2cap.c` and the part of `nb_ble.c` that advertises: connections are
discovered, come up and go down, and every connection gets a link with one L2CAP channel.

The callbacks of the Bluetooth stack, the management tasks and the tasks of a link are the events of
a system.  A callback runs under `links_sem` from its first to its last access of the links, and the
stack calls one callback after the other, so an event is one callback or one pass of a task.  What
the stack knows of its connections is a part of the state (`BtConn`), and `Enabled` says what it
promises: it has at most one connection with a device, reports a channel only between the two events
of its connection, and the events of a channel take turns.

`links_sound` says that the table of links agrees with the connections in every run, that no
assertion fails, that the node is only advertised as connectable while a link is free, and that the
router is told about the channel of every link.
-/

namespace Ml2capLinks

open EpidemicRouter (CStr)
open Interleaving

/-- A reference to `struct bt_conn`. -/
abbrev Conn := Nat

/-- `IDLE_TIMEOUT_MS`. -/
def idleTimeoutMs : Nat := 4000

/-- `TIMEOUT_WARNING_MS`. -/
def timeoutWarningMs : Nat := 6000

/-- `cla_get_cla_addr`. -/
def claGetClaAddr (claName claConnectAddr : CStr) : CStr :=
  claName ++ "://".toList ++ claConnectAddr

/-- `ml2cap_name_get`. -/
def ml2capNameGet : CStr := "ml2cap".toList

/-- The CLA address of a device. -/
def claAddrOf (macAddr : CStr) : CStr := claGetClaAddr ml2capNameGet macAddr

/-- A copy of a text, if there is memory for it. -/
def copied (text : Bool) (value : CStr) : Option CStr := if text then some value else none

/-- The configuration: `ML2CAP_MAX_CONN` and `CONFIG_CONNECTION_CONGESTION_CONTROL`. -/
structure Config where
  maxConn : Nat
  congestionControl : Bool

/-- The roles of a connection. -/
inductive Role where
  | master
  | slave
  deriving DecidableEq, Repr

/-! ## The state -/

/-- A connection of the stack. -/
structure BtConn where
  conn : Conn
  /-- the address of the peer, as `bt_addr_le_to_mac_addr` writes it -/
  peer : CStr
  /-- its L2CAP channel is connected -/
  channel : Bool
  /-- `bt_conn_disconnect` was called -/
  ending : Bool
  deriving DecidableEq, Repr

/-- `struct ml2cap_link`: what the callbacks read and write. -/
structure Link where
  conn : Conn
  macAddr : CStr
  claAddr : CStr
  shuttingDown : Bool
  eidKnown : Bool
  chanConnected : Bool
  bytesReceived : Nat
  bytesSent : Nat
  connectTs : Nat
  disconnectTs : Nat
  channelUpTs : Nat
  channelDownTs : Nat
  rxTs : Nat
  txTs : Nat
  deriving DecidableEq, Repr

/-- The signals that the router gets. -/
inductive Signal where
  | newLinkEstablished
  | neighborDiscovered (eid : CStr) (claAddr : Option CStr)
  | connUp (claAddr : Option CStr)
  | connDown (claAddr : Option CStr)
  deriving DecidableEq, Repr

/-- `struct nb_ble_config`, with the advertisement that is running: whether it is connectable. -/
structure NbBle where
  enabled : Bool
  advertisingAsConnectable : Bool
  scannerIsEnabled : Bool
  advertising : Option Bool
  deriving DecidableEq, Repr

/-- The state of the CLA, and of the stack below it. -/
structure State where
  /-- `links`, as far as they are in use -/
  links : List Link
  connProb : Nat
  nbBle : NbBle
  /-- all signals that were pushed into the router's queue -/
  signals : List Signal
  /-- the connections of the stack -/
  conns : List BtConn
  /-- the device to which a connection is being created -/
  pending : Option CStr
  deriving DecidableEq, Repr

/-! ## `nb_ble.c` -/

/-- `adv_stop` and `scan_stop`. -/
def NbBle.stop (nb : NbBle) : NbBle :=
  { nb with advertising := none, scannerIsEnabled := false }

/-- `nb_ble_set_connectable`. -/
def nbBleSetConnectable (connectable : Bool) (nb : NbBle) : NbBle :=
  if !nb.enabled then { nb with advertisingAsConnectable := connectable }
  else if nb.advertisingAsConnectable = connectable then nb
  else { nb with advertisingAsConnectable := connectable }.stop

/-- `nb_ble_enable`. -/
def nbBleEnable (nb : NbBle) : NbBle := { nb with enabled := true }

/-- `nb_ble_disable_and_stop`. -/
def nbBleDisableAndStop (nb : NbBle) : NbBle := { nb with enabled := false }.stop

/-- `scan_start`. -/
def scanStart (ok : Bool) (nb : NbBle) : NbBle :=
  if nb.scannerIsEnabled then nb
  else if ok then { nb with scannerIsEnabled := true }
  else nb

/-- `adv_start`: an advertisement that is running already is left alone. -/
def advStart (ok : Bool) (nb : NbBle) : NbBle :=
  if ok ∧ nb.advertising = none then
    { nb with advertising := some nb.advertisingAsConnectable }
  else nb

/-- A pass of `nb_ble_management_task`. -/
def nbBleManagement (scanOk advOk : Bool) (nb : NbBle) : NbBle :=
  if nb.enabled then advStart advOk (scanStart scanOk nb) else nb

/-- `nb_ble_init`. -/
def nbBleInit : NbBle where
  enabled := true
  advertisingAsConnectable := false
  scannerIsEnabled := false
  advertising := none

/-! ## The table of links -/

/-- `find_link_by_connection`. -/
def findLinkByConnection (links : List Link) (conn : Conn) : Option Link :=
  links.find? fun link => link.conn = conn

/-- `find_link_by_cla_address`. -/
def findLinkByClaAddress (links : List Link) (claAddr : CStr) : Option Link :=
  links.find? fun link => link.claAddr = claAddr

/-- The link of a connection is written. -/
def writeLink (links : List Link) (link : Link) : List Link :=
  links.map fun l => if l.conn = link.conn then link else l

/-- The last entry takes the place of the entry `i`. -/
def swapOut (links : List Link) (i : Nat) : List Link :=
  match links.getLast? with
  | some last => (links.set i last).dropLast
  | none => links

variable (P : Config)

/-- `add_active_link`. -/
def addActiveLink (s : State) (link : Link) : Option State :=
  if s.links.length < P.maxConn then
    let links := s.links ++ [link]
    some { s with links, nbBle := nbBleSetConnectable (links.length < P.maxConn) s.nbBle }
  else none

/-- `remove_active_link`. -/
def removeActiveLink (s : State) (link : Link) : State :=
  let links :=
    match s.links.findIdx? fun l => l.conn = link.conn with
    | some i => swapOut s.links i
    | none => s.links
  { s with links, nbBle := nbBleSetConnectable (links.length < P.maxConn) s.nbBle }

/-- The stack notes something about a connection. -/
def updateConn (conns : List BtConn) (conn : Conn) (f : BtConn → BtConn) : List BtConn :=
  conns.map fun c => if c.conn = conn then f c else c

/-- `bt_conn_disconnect`: the stack will end the connection. -/
def btConnDisconnect (s : State) (conn : Conn) : State :=
  { s with conns := updateConn s.conns conn ({ · with ending := true }) }

/-- A signal is pushed into the router's queue. -/
def State.push (s : State) (signal : Signal) : State := { s with signals := s.signals ++ [signal] }

/-! ## Connections -/

/-- `increase_conn_prob`. -/
def increaseConnProb (connProb : Nat) : Nat :=
  if connProb ≤ 0xFF - 13 then connProb + 13 else 0xFF

/-- `decrease_conn_prob`. -/
def decreaseConnProb (connProb : Nat) : Nat := connProb / 2

/-- `should_connect`. -/
def shouldConnect (random connProb : Nat) : Bool := random &&& 0xFF ≤ connProb

/-- What the calls of `connected` return. -/
structure ConnectedCalls where
  /-- `ml2cap_link_create` returns a link -/
  created : Bool
  /-- `bt_conn_get_info` succeeds -/
  info : Bool
  /-- `bt_l2cap_chan_connect` succeeds -/
  chanConnect : Bool
  now : Nat

/-- `ml2cap_link_create`. -/
def ml2capLinkCreate (conn : Conn) (macAddr : CStr) : Link where
  conn := conn
  macAddr := macAddr
  claAddr := claAddrOf macAddr
  shuttingDown := false
  eidKnown := false
  chanConnected := false
  bytesReceived := 0
  bytesSent := 0
  connectTs := 0
  disconnectTs := 0
  channelUpTs := 0
  channelDownTs := 0
  rxTs := 0
  txTs := 0

/-- The part of `connected` after `fail`. -/
def connectedFail (s : State) (conn : Conn) : State :=
  let s := btConnDisconnect s conn
  { s with nbBle := nbBleEnable s.nbBle }

/-- `connected` without an error. -/
def connected (s : State) (conn : Conn) (macAddr : CStr) (role : Role) (calls : ConnectedCalls) :
    Option State :=
  if s.links.length = P.maxConn then some (connectedFail s conn)
  else if !calls.created ∨ !calls.info then some (connectedFail s conn)
  else
    let link := { ml2capLinkCreate conn macAddr with connectTs := calls.now }
    match role with
    | .master =>
        let s := { s with connProb := increaseConnProb s.connProb }
        if calls.chanConnect then do
          let s ← addActiveLink P s { link with eidKnown := true }
          some { s with nbBle := nbBleEnable s.nbBle }
        else some (connectedFail s conn)
    | .slave => do
        let s ← addActiveLink P s link
        some { s with nbBle := nbBleEnable s.nbBle }

/-- `connected` with an error. -/
def connectionFailed (s : State) (conn : Conn) : State :=
  connectedFail { s with connProb := decreaseConnProb s.connProb } conn

/-- `disconnected`. -/
def disconnected (s : State) (conn : Conn) : Option State :=
  match findLinkByConnection s.links conn with
  | some link =>
      if link.chanConnected then none
      else
        let s := removeActiveLink P s link
        some { s with nbBle := nbBleEnable s.nbBle }
  | none => some { s with nbBle := nbBleEnable s.nbBle }

/-! ## Channels -/

/-- `chan_connected_cb`; `linkInit` is the result of `cla_link_init`, and `text` whether `strdup`
finds memory. -/
def chanConnectedCb (s : State) (conn : Conn) (linkInit text : Bool) (now : Nat) : Option State :=
  match findLinkByConnection s.links conn with
  | some link =>
      if link.chanConnected then none
      else
        let link := { link with channelUpTs := now, chanConnected := linkInit }
        let s := { s with links := writeLink s.links link }
        if linkInit then
          some ((s.push .newLinkEstablished).push
            (.connUp (copied text link.claAddr)))
        else some (btConnDisconnect s conn)
  | none => some (btConnDisconnect s conn)

/-- `chan_disconnected_cb`. -/
def chanDisconnectedCb (s : State) (conn : Conn) (text : Bool) (now : Nat) : State :=
  match findLinkByConnection s.links conn with
  | some link =>
      let down := { link with channelDownTs := now, shuttingDown := true, chanConnected := false }
      let s := { s with links := writeLink s.links down }
      let s :=
        if link.chanConnected then s.push (.connDown (copied text link.claAddr)) else s
      btConnDisconnect s conn
  | none => s

/-- Something is noted in the link of a connection, if it has one. -/
def noteLink (s : State) (conn : Conn) (note : Link → Link) : State :=
  match findLinkByConnection s.links conn with
  | some link => { s with links := writeLink s.links (note link) }
  | none => s

/-- `chan_recv_cb`. -/
def chanRecvCb (s : State) (conn : Conn) (numBytesReceived now : Nat) : State :=
  noteLink s conn fun link =>
    { link with bytesReceived := link.bytesReceived + numBytesReceived, rxTs := now }

/-- What `l2cap_transmit_bytes` notes in the link of the task. -/
def transmitted (s : State) (conn : Conn) (sent now : Nat) : State :=
  noteLink s conn fun link => { link with bytesSent := link.bytesSent + sent, txTs := now }

/-- `gatt_eid_client_read_cb`, for an EID that is not empty; `node` says whether `bt_conn_get_info`
and the allocations succeed, and `remote` is the address in the connection's information. -/
def gattEidClientReadCb (s : State) (conn : Conn) (eid remote : CStr) (node : Bool) : State :=
  match findLinkByConnection s.links conn with
  | some link =>
      if node then
        let s := s.push (.neighborDiscovered eid (some (claAddrOf remote)))
        { s with links := writeLink s.links { link with eidKnown := true } }
      else s
  | none => s

/-! ## Discovery -/

/-- What the calls of `handle_discovered_neighbor_info` return. -/
structure DiscoveryCalls where
  /-- `node_create` finds memory -/
  node : Bool
  /-- `cla_get_cla_addr` finds memory -/
  text : Bool
  random : Nat
  /-- `bt_conn_le_create` succeeds -/
  create : Bool

/-- The last part of `handle_discovered_neighbor_info`, with `bt_conn_le_create`. -/
def createConnection (s : State) (macAddr : CStr) (create : Bool) : State :=
  let s := { s with nbBle := nbBleDisableAndStop s.nbBle }
  if create then { s with pending := some macAddr }
  else { s with nbBle := nbBleEnable s.nbBle }

/-- `handle_discovered_neighbor_info`. -/
def handleDiscoveredNeighborInfo (s : State) (eid macAddr : CStr) (connectable : Bool)
    (calls : DiscoveryCalls) : State :=
  if !calls.node then s
  else
    let s := s.push (.neighborDiscovered eid (copied calls.text (claAddrOf macAddr)))
    if !connectable then s
    else if s.links.length = P.maxConn then s
    else if P.congestionControl && !shouldConnect calls.random s.connProb then s
    else if s.conns.any (·.peer = macAddr) ∨ s.pending = some macAddr then s
    else createConnection s macAddr calls.create

/-! ## The management task -/

/-- The last time at which something happened on the channel of a link. -/
def Link.lastChanUpdate (link : Link) : Nat := max link.channelUpTs (max link.rxTs link.txTs)

/-- The link is idle for too long. -/
def Link.idle (now : Nat) (link : Link) : Bool :=
  !link.shuttingDown && link.chanConnected && link.lastChanUpdate + idleTimeoutMs < now

/-- `possibly_broken`. -/
def Link.possiblyBroken (now : Nat) (link : Link) : Bool :=
  (link.connectTs + timeoutWarningMs < now && link.channelUpTs = 0) ||
  (link.channelDownTs ≠ 0 && link.channelDownTs + timeoutWarningMs < now) ||
  (link.disconnectTs ≠ 0 && link.disconnectTs + timeoutWarningMs < now)

/-- The body of the loop of `mtcp_management_task` for one link: whether it disconnects it. -/
def Link.shutDown (now : Nat) (link : Link) : Bool :=
  link.idle now || (!link.shuttingDown && link.possiblyBroken now)

/-- The loop over the links, from the entry `i` on, for `n` more entries. -/
def manageLoop (now : Nat) (s : State) (i : Nat) : Nat → State
  | 0 => s
  | n + 1 =>
      match s.links[i]? with
      | none => s
      | some link =>
          if link.shutDown now then
            let s := { s with links := writeLink s.links { link with shuttingDown := true } }
            manageLoop now (btConnDisconnect s link.conn) (i + 1) n
          else manageLoop now s (i + 1) n

/-- A pass of `mtcp_management_task`. -/
def manage (now : Nat) (s : State) : State := manageLoop now s 0 s.links.length

/-! ## Sending -/

/-- `ml2cap_get_tx_queue`: the link whose queue is returned. -/
def ml2capGetTxQueue (s : State) (claAddr : CStr) : Option Link :=
  match findLinkByClaAddress s.links claAddr with
  | some link => if !link.shuttingDown && link.chanConnected then some link else none
  | none => none

/-! ## The system -/

/-- The events. -/
inductive Event where
  | discovered (eid macAddr : CStr) (connectable : Bool) (calls : DiscoveryCalls)
  | connected (conn : Conn) (macAddr : CStr) (role : Role) (calls : ConnectedCalls)
  | connectionFailed (conn : Conn)
  | chanConnected (conn : Conn) (linkInit text : Bool) (now : Nat)
  | chanDisconnected (conn : Conn) (text : Bool) (now : Nat)
  | received (conn : Conn) (numBytes now : Nat)
  | transmitted (conn : Conn) (sent now : Nat)
  | eidRead (conn : Conn) (eid remote : CStr) (node : Bool)
  | disconnected (conn : Conn)
  | advertisingEnds
  | manage (now : Nat)
  | nbManage (scanOk advOk : Bool)

/-- What the stack promises of its callbacks. -/
def promised (s : State) : Event → Bool
  | .connected conn macAddr role _ =>
      (∀ c ∈ s.conns, c.conn ≠ conn ∧ c.peer ≠ macAddr) ∧
        (role = .master → s.pending = some macAddr)
  | .connectionFailed conn => s.pending.isSome ∧ ∀ c ∈ s.conns, c.conn ≠ conn
  | .chanConnected conn _ _ _ => ∃ c ∈ s.conns, c.conn = conn ∧ c.channel = false
  | .chanDisconnected conn _ _ => ∃ c ∈ s.conns, c.conn = conn ∧ c.channel = true
  | .disconnected conn => ∃ c ∈ s.conns, c.conn = conn ∧ c.channel = false
  | _ => true

/-- The events that can happen. -/
def Enabled (s : State) (e : Event) : Prop := promised s e = true

/-- The stack notes what happened to a channel. -/
def State.setChannel (s : State) (conn : Conn) (channel : Bool) : State :=
  { s with conns := updateConn s.conns conn ({ · with channel }) }

/-- An event: the stack notes it, and the CLA handles it. -/
def next (s : State) : Event → Option State
  | .discovered eid macAddr connectable calls =>
      some (handleDiscoveredNeighborInfo P s eid macAddr connectable calls)
  | .connected conn macAddr role calls =>
      let pending := if role = .master then none else s.pending
      let conns := s.conns ++ [⟨conn, macAddr, false, false⟩]
      connected P { s with conns, pending } conn macAddr role calls
  | .connectionFailed conn => some (connectionFailed { s with pending := none } conn)
  | .chanConnected conn linkInit text now =>
      chanConnectedCb (s.setChannel conn true) conn linkInit text now
  | .chanDisconnected conn text now =>
      some (chanDisconnectedCb (s.setChannel conn false) conn text now)
  | .received conn numBytes now => some (chanRecvCb s conn numBytes now)
  | .transmitted conn sent now => some (transmitted s conn sent now)
  | .eidRead conn eid remote node => some (gattEidClientReadCb s conn eid remote node)
  | .disconnected conn =>
      disconnected P { s with conns := s.conns.filter (·.conn ≠ conn) } conn
  | .advertisingEnds => some { s with nbBle := { s.nbBle with advertising := none } }
  | .manage now => some (manage now s)
  | .nbManage scanOk advOk => some { s with nbBle := nbBleManagement scanOk advOk s.nbBle }

/-- After `ml2cap_init` and the first part of `mtcp_management_task`. -/
def init : State where
  links := []
  connProb := 0xFF
  nbBle := nbBleSetConnectable (0 < P.maxConn) nbBleInit
  signals := []
  conns := []
  pending := none

/-- The CLA on top of the stack. -/
def system : System State Event where
  init s := s = init P
  enabled := Enabled
  next := next P

instance decidableEnabled (s : State) (e : Event) : Decidable ((system P).enabled s e) :=
  inferInstanceAs (Decidable (promised s e = true))

/-! ## The invariant -/

/-- The link belongs to the connection. -/
structure Serves (l : Link) (c : BtConn) : Prop where
  conn : l.conn = c.conn
  peer : l.macAddr = c.peer
  up : l.chanConnected = true → c.channel = true
  down : l.shuttingDown = true → c.ending = true
  /-- a channel that was up and is not used is lost -/
  lost : l.channelUpTs ≠ 0 → l.chanConnected = false → c.ending = true

/-- The links agree with the connections. -/
structure Agree (links : List Link) (conns : List BtConn) : Prop where
  distinct : (conns.map (·.conn)).Nodup
  devices : (conns.map (·.peer)).Nodup
  entries : (links.map (·.conn)).Nodup
  addr : ∀ l ∈ links, l.claAddr = claAddrOf l.macAddr
  /-- every link has its connection -/
  served : ∀ l ∈ links, ∃ c ∈ conns, Serves l c
  /-- a connection without a link is being ended -/
  orphans : ∀ c ∈ conns, c.ending = true ∨ ∃ l ∈ links, l.conn = c.conn

/-- Advertising agrees with the number of links. -/
structure Advertises (P : Config) (links : Nat) (pending : Bool) (nb : NbBle) : Prop where
  bound : links ≤ P.maxConn
  connectable : nb.advertisingAsConnectable = decide (links < P.maxConn)
  running : ∀ b, nb.advertising = some b → b = nb.advertisingAsConnectable
  /-- it is only off while a connection is being created -/
  disabled : nb.enabled = false → nb.advertising = none ∧ pending = true

/-- The invariant. -/
structure Inv (s : State) : Prop where
  agree : Agree s.links s.conns
  advertises : Advertises P s.links.length s.pending.isSome s.nbBle

variable {P} {s s' : State} {links : List Link} {conns : List BtConn}

theorem find_some {conn : Conn} {l : Link} (h : findLinkByConnection links conn = some l) :
    l ∈ links ∧ l.conn = conn := by
  have hconn := List.find?_some h
  exact ⟨List.mem_of_find?_eq_some h, by simpa using hconn⟩

theorem find_none {conn : Conn} (h : findLinkByConnection links conn = none) :
    ∀ l ∈ links, l.conn ≠ conn := by
  intro l hl heq
  have hfalse := List.find?_eq_none.mp h l hl
  exact hfalse (decide_eq_true heq)

theorem eq_of_conn (h : (links.map (·.conn)).Nodup) {l l' : Link} (hl : l ∈ links)
    (hl' : l' ∈ links) (heq : l.conn = l'.conn) : l = l' :=
  List.inj_on_of_nodup_map h hl hl' heq

/-- **Changes in place.**  Links and connections may change as long as they keep their identity and
belong to each other. -/
theorem Agree.mapped (h : Agree links conns) {f : Link → Link} {g : BtConn → BtConn}
    (hf : ∀ l ∈ links, (f l).conn = l.conn ∧ (f l).macAddr = l.macAddr ∧ (f l).claAddr = l.claAddr)
    (hg : ∀ c, (g c).conn = c.conn ∧ (g c).peer = c.peer ∧ (c.ending = true → (g c).ending = true))
    (hserves : ∀ l ∈ links, ∀ c ∈ conns, Serves l c → Serves (f l) (g c)) :
    Agree (links.map f) (conns.map g) where
  distinct := by
    rw [List.map_map, show (fun c : BtConn => c.conn) ∘ g = (·.conn) from funext fun c => (hg c).1]
    exact h.distinct
  devices := by
    rw [List.map_map, show (fun c : BtConn => c.peer) ∘ g = (·.peer) from
      funext fun c => (hg c).2.1]
    exact h.devices
  entries := by
    have hsame : links.map ((·.conn) ∘ f) = links.map (·.conn) :=
      List.map_congr_left fun l hl => (hf l hl).1
    rw [List.map_map, hsame]
    exact h.entries
  addr := by
    intro l hl
    obtain ⟨k, hk, rfl⟩ := List.mem_map.mp hl
    rw [(hf k hk).2.2, (hf k hk).2.1]
    exact h.addr k hk
  served := by
    intro l hl
    obtain ⟨k, hk, rfl⟩ := List.mem_map.mp hl
    obtain ⟨c, hc, hserved⟩ := h.served k hk
    exact ⟨g c, List.mem_map_of_mem hc, hserves k hk c hc hserved⟩
  orphans := by
    intro c hc
    obtain ⟨b, hb, rfl⟩ := List.mem_map.mp hc
    rcases h.orphans b hb with hending | ⟨l, hl, hconn⟩
    · exact .inl ((hg b).2.2 hending)
    · exact .inr ⟨f l, List.mem_map_of_mem hl, by rw [(hf l hl).1, hconn, (hg b).1]⟩

/-- Notes about a connection do not change what it is, and do not revoke its end. -/
def Notes (f : BtConn → BtConn) : Prop :=
  ∀ c, (f c).conn = c.conn ∧ (f c).peer = c.peer ∧ (c.ending = true → (f c).ending = true)

theorem Notes.update {f : BtConn → BtConn} (hf : Notes f) (conn : Conn) :
    Notes fun c => if c.conn = conn then f c else c := by
  intro c
  dsimp only
  split
  · exact hf c
  · exact ⟨rfl, rfl, id⟩

/-- A link and its connection are written. -/
theorem Agree.written (h : Agree links conns) {link new : Link} {f : BtConn → BtConn}
    (hlink : link ∈ links) (hconn : new.conn = link.conn) (hmac : new.macAddr = link.macAddr)
    (hcla : new.claAddr = link.claAddr) (hf : Notes f)
    (hserves : ∀ c, Serves link c → Serves new (f c)) :
    Agree (writeLink links new) (updateConn conns link.conn f) := by
  refine h.mapped ?_ (hf.update link.conn) ?_
  · intro l hl
    split
    · next heq =>
      obtain rfl := eq_of_conn h.entries hl hlink (heq.trans hconn)
      exact ⟨hconn, hmac, hcla⟩
    · exact ⟨rfl, rfl, rfl⟩
  · intro l hl c hc hserved
    rw [← hserved.conn, hconn]
    split
    · next heq =>
      obtain rfl := eq_of_conn h.entries hl hlink heq
      exact hserves c hserved
    · exact hserved

/-- Only the connection is written. -/
theorem Agree.marked (h : Agree links conns) {conn : Conn} {f : BtConn → BtConn} (hf : Notes f)
    (hserves : ∀ l ∈ links, ∀ c, c.conn = conn → Serves l c → Serves l (f c)) :
    Agree links (updateConn conns conn f) := by
  have hmapped := h.mapped (f := id) (fun l _ => ⟨rfl, rfl, rfl⟩) (hf.update conn) (by
    intro l hl c _ hserved
    dsimp only [id]
    split
    · next heq => exact hserves l hl c heq hserved
    · exact hserved)
  rwa [List.map_id] at hmapped

/-- A connection whose channel is down has no link with a channel. -/
theorem Agree.idle (h : Agree links conns) {link : Link} (hlink : link ∈ links) {c : BtConn}
    (hc : c ∈ conns) (hconn : link.conn = c.conn) (hdown : c.channel = false) :
    link.chanConnected = false := by
  obtain ⟨b, hb, hserved⟩ := h.served link hlink
  obtain rfl : b = c :=
    List.inj_on_of_nodup_map h.distinct hb hc (hserved.conn.symm.trans hconn)
  cases hup : link.chanConnected with
  | false => rfl
  | true =>
      rw [hserved.up hup] at hdown
      cases hdown

theorem length_writeLink (links : List Link) (link : Link) :
    (writeLink links link).length = links.length := List.length_map _

theorem nodup_map_concat {α β : Type} {f : α → β} {xs : List α} {a : α} (h : (xs.map f).Nodup)
    (hnew : ∀ x ∈ xs, f x ≠ f a) : ((xs ++ [a]).map f).Nodup := by
  rw [List.map_append, List.map_singleton]
  refine List.Nodup.append h (List.nodup_singleton _) ?_
  intro y hy hya
  obtain ⟨x, hx, rfl⟩ := List.mem_map.mp hy
  exact hnew x hx (List.mem_singleton.mp hya)

/-- **A new connection with its link.** -/
theorem Agree.linked (h : Agree links conns) {link : Link} {c : BtConn}
    (hnew : ∀ b ∈ conns, b.conn ≠ c.conn ∧ b.peer ≠ c.peer)
    (haddr : link.claAddr = claAddrOf link.macAddr) (hserved : Serves link c) :
    Agree (links ++ [link]) (conns ++ [c]) where
  distinct := nodup_map_concat h.distinct fun b hb => (hnew b hb).1
  devices := nodup_map_concat h.devices fun b hb => (hnew b hb).2
  entries := by
    refine nodup_map_concat h.entries ?_
    intro l hl heq
    obtain ⟨b, hb, hlb⟩ := h.served l hl
    exact (hnew b hb).1 (by rw [← hlb.conn, heq, hserved.conn])
  addr := by
    intro l hl
    rcases List.mem_append.mp hl with hl | hl
    · exact h.addr l hl
    · obtain rfl := List.mem_singleton.mp hl
      exact haddr
  served := by
    intro l hl
    rcases List.mem_append.mp hl with hl | hl
    · obtain ⟨b, hb, hlb⟩ := h.served l hl
      exact ⟨b, List.mem_append_left _ hb, hlb⟩
    · obtain rfl := List.mem_singleton.mp hl
      exact ⟨c, List.mem_append_right _ List.mem_cons_self, hserved⟩
  orphans := by
    intro b hb
    rcases List.mem_append.mp hb with hb | hb
    · rcases h.orphans b hb with hending | ⟨l, hl, hconn⟩
      · exact .inl hending
      · exact .inr ⟨l, List.mem_append_left _ hl, hconn⟩
    · obtain rfl := List.mem_singleton.mp hb
      exact .inr ⟨link, List.mem_append_right _ List.mem_cons_self, hserved.conn⟩

/-- A new connection that is ended at once. -/
theorem Agree.refused (h : Agree links conns) {c : BtConn}
    (hnew : ∀ b ∈ conns, b.conn ≠ c.conn ∧ b.peer ≠ c.peer) (hending : c.ending = true) :
    Agree links (conns ++ [c]) where
  distinct := nodup_map_concat h.distinct fun b hb => (hnew b hb).1
  devices := nodup_map_concat h.devices fun b hb => (hnew b hb).2
  entries := h.entries
  addr := h.addr
  served := by
    intro l hl
    obtain ⟨b, hb, hlb⟩ := h.served l hl
    exact ⟨b, List.mem_append_left _ hb, hlb⟩
  orphans := by
    intro b hb
    rcases List.mem_append.mp hb with hb | hb
    · exact h.orphans b hb
    · obtain rfl := List.mem_singleton.mp hb
      exact .inl hending

/-- The entry of a link leaves the array. -/
theorem swapOut_perm {i : Nat} (hi : i < links.length) :
    (links[i] :: swapOut links i).Perm links := by
  refine List.Perm.trans (List.Perm.cons _ ?_) (List.getElem_cons_eraseIdx_perm hi)
  rcases List.eq_nil_or_concat links with rfl | ⟨front, last, rfl⟩
  · cases hi
  · rw [List.concat_eq_append] at hi ⊢
    rw [List.length_append, List.length_singleton] at hi
    have hswap : swapOut (front ++ [last]) i = ((front ++ [last]).set i last).dropLast := by
      unfold swapOut
      rw [List.getLast?_concat]
    rw [hswap]
    rcases Nat.lt_or_ge i front.length with hlt | hge
    · rw [List.set_append_left _ _ hlt, List.dropLast_concat, List.eraseIdx_append_of_lt_length hlt,
        List.set_eq_take_append_cons_drop, if_pos hlt, List.eraseIdx_eq_take_drop_succ]
      simp only [List.append_assoc]
      refine List.Perm.append_left _ ?_
      exact (List.perm_append_singleton last (front.drop (i + 1))).symm
    · obtain rfl : i = front.length := by omega
      rw [List.set_append_right _ _ (Nat.le_refl _),
        List.eraseIdx_append_of_length_le (Nat.le_refl _)]
      simp

/-- **`remove_active_link`** removes the link of a connection, and no other one. -/
theorem removeActiveLink_perm (h : Agree s.links conns) {link : Link} (hlink : link ∈ s.links) :
    (link :: (removeActiveLink P s link).links).Perm s.links := by
  unfold removeActiveLink
  cases hfind : s.links.findIdx? fun l => decide (l.conn = link.conn) with
  | none =>
      have hnone := List.findIdx?_eq_none_iff.mp hfind link hlink
      simp at hnone
  | some i =>
      obtain ⟨hi, hconn, -⟩ := List.findIdx?_eq_some_iff_getElem.mp hfind
      obtain rfl := eq_of_conn h.entries (List.getElem_mem hi) hlink (of_decide_eq_true hconn)
      exact swapOut_perm hi

theorem Agree.mem_removed (h : Agree links conns) {link : Link} {left : List Link}
    (hleft : (link :: left).Perm links) (l : Link) :
    l ∈ left ↔ l ∈ links ∧ l.conn ≠ link.conn := by
  have hnodup := ((hleft.map _).nodup_iff).mpr h.entries
  rw [List.map_cons, List.nodup_cons] at hnodup
  rw [← hleft.mem_iff, List.mem_cons]
  constructor
  · intro hl
    exact ⟨.inr hl, fun heq => hnodup.1 (heq ▸ List.mem_map_of_mem hl)⟩
  · intro hl
    exact hl.1.resolve_left fun heq => hl.2 (congrArg Link.conn heq)

/-- **A connection and its link go.** -/
theorem Agree.removed (h : Agree links conns) {conn : Conn} {left : List Link}
    (hentries : (left.map (·.conn)).Nodup) (hmem : ∀ l, l ∈ left ↔ l ∈ links ∧ l.conn ≠ conn) :
    Agree left (conns.filter (·.conn ≠ conn)) where
  distinct := (List.filter_sublist.map _).nodup h.distinct
  devices := (List.filter_sublist.map _).nodup h.devices
  entries := hentries
  addr l hl := h.addr l ((hmem l).mp hl).1
  served := by
    intro l hl
    obtain ⟨c, hc, hserved⟩ := h.served l ((hmem l).mp hl).1
    refine ⟨c, List.mem_filter.mpr ⟨hc, ?_⟩, hserved⟩
    rw [decide_eq_true_iff, ← hserved.conn]
    exact ((hmem l).mp hl).2
  orphans := by
    intro c hc
    obtain ⟨hc, hne⟩ := List.mem_filter.mp hc
    rw [decide_eq_true_iff] at hne
    rcases h.orphans c hc with hending | ⟨l, hl, hconn⟩
    · exact .inl hending
    · exact .inr ⟨l, (hmem l).mpr ⟨hl, by rw [hconn]; exact hne⟩, hconn⟩

/-! ## Advertising -/

variable {links' : Nat} {pending pending' : Bool} {nb : NbBle}

/-- After the number of links has changed. -/
theorem Advertises.changed (h : Advertises P links' pending nb) {n : Nat} (hn : n ≤ P.maxConn) :
    Advertises P n pending (nbBleSetConnectable (n < P.maxConn) nb) := by
  unfold nbBleSetConnectable
  split
  · next hoff =>
    rw [Bool.not_eq_true'] at hoff
    obtain ⟨hnone, hpending⟩ := h.disabled hoff
    exact ⟨hn, rfl, fun b hb => (by rw [hnone] at hb; cases hb), fun _ => ⟨hnone, hpending⟩⟩
  · next hon =>
    split
    · next heq =>
      exact ⟨hn, heq, h.running, h.disabled⟩
    · refine ⟨hn, rfl, fun b hb => (by cases hb), ?_⟩
      intro hoff
      exact (hon (by simpa [NbBle.stop] using hoff)).elim

theorem Advertises.enable (h : Advertises P links' pending nb) :
    Advertises P links' pending' (nbBleEnable nb) :=
  ⟨h.bound, h.connectable, h.running, fun hoff => by cases hoff⟩

theorem Advertises.disable (h : Advertises P links' pending nb) :
    Advertises P links' true (nbBleDisableAndStop nb) :=
  ⟨h.bound, h.connectable, fun b hb => (by cases hb), fun _ => ⟨rfl, rfl⟩⟩

theorem Advertises.ends (h : Advertises P links' pending nb) :
    Advertises P links' pending { nb with advertising := none } :=
  ⟨h.bound, h.connectable, fun b hb => (by cases hb), fun hoff => ⟨rfl, (h.disabled hoff).2⟩⟩

theorem Advertises.scanned (h : Advertises P links' pending nb) (ok : Bool) :
    Advertises P links' pending (scanStart ok nb) := by
  unfold scanStart
  split
  · exact h
  · split
    · exact ⟨h.bound, h.connectable, h.running, h.disabled⟩
    · exact h

theorem Advertises.started (h : Advertises P links' pending nb) (ok : Bool)
    (hon : nb.enabled = true) : Advertises P links' pending (advStart ok nb) := by
  unfold advStart
  split
  · refine ⟨h.bound, h.connectable, fun b hb => (Option.some.inj hb).symm, ?_⟩
    intro hoff
    rw [hon] at hoff
    cases hoff
  · exact h

theorem Advertises.managed (h : Advertises P links' pending nb) (scanOk advOk : Bool) :
    Advertises P links' pending (nbBleManagement scanOk advOk nb) := by
  unfold nbBleManagement
  split
  · next hon =>
    refine (h.scanned scanOk).started advOk ?_
    unfold scanStart
    split
    · exact hon
    · split <;> exact hon
  · exact h

/-! ## One event -/

theorem inv_init : Inv P (init P) where
  agree := ⟨.nil, .nil, .nil, fun _ hl => (by cases hl), fun _ hl => (by cases hl),
    fun _ hc => (by cases hc)⟩
  advertises := by
    have hfirst : Advertises P P.maxConn false nbBleInit :=
      ⟨Nat.le_refl _, by simp [nbBleInit], fun b hb => (by cases hb), fun hoff => (by cases hoff)⟩
    exact hfirst.changed (Nat.zero_le _)

theorem notes_ending : Notes ({ · with ending := true }) := fun _ => ⟨rfl, rfl, fun _ => rfl⟩

theorem notes_channel (channel : Bool) : Notes ({ · with channel }) := fun _ => ⟨rfl, rfl, id⟩

theorem Inv.btConnDisconnect (h : Inv P s) (conn : Conn) : Inv P (btConnDisconnect s conn) :=
  ⟨h.agree.marked notes_ending fun _ _ _ _ hserved => ⟨hserved.conn, hserved.peer, hserved.up,
    fun _ => rfl, fun _ _ => rfl⟩, h.advertises⟩

theorem Inv.push (h : Inv P s) (signal : Signal) : Inv P (s.push signal) :=
  ⟨h.agree, h.advertises⟩

/-- A callback that writes a link and its connection. -/
theorem Inv.written (h : Inv P s) {link new : Link} {f : BtConn → BtConn} (hlink : link ∈ s.links)
    (hconn : new.conn = link.conn) (hmac : new.macAddr = link.macAddr)
    (hcla : new.claAddr = link.claAddr) (hf : Notes f)
    (hserves : ∀ c, Serves link c → Serves new (f c)) :
    Inv P { s with links := writeLink s.links new, conns := updateConn s.conns link.conn f } where
  agree := h.agree.written hlink hconn hmac hcla hf hserves
  advertises := by
    rw [length_writeLink]
    exact h.advertises

/-- A note in a link keeps its identity and what it says of its channel. -/
structure Unmoved (link new : Link) : Prop where
  conn : new.conn = link.conn
  mac : new.macAddr = link.macAddr
  cla : new.claAddr = link.claAddr
  up : new.chanConnected = link.chanConnected
  down : new.shuttingDown = link.shuttingDown
  ts : new.channelUpTs = link.channelUpTs

/-- A callback that only writes notes into a link. -/
theorem Inv.noted (h : Inv P s) {link new : Link} (hlink : link ∈ s.links)
    (hnew : Unmoved link new) : Inv P { s with links := writeLink s.links new } := by
  have hwritten := h.written hlink hnew.conn hnew.mac hnew.cla (f := id)
    (fun _ => ⟨rfl, rfl, id⟩) (by
      intro c hserved
      exact ⟨hnew.conn.trans hserved.conn, hnew.mac.trans hserved.peer,
        fun hc => hserved.up (hnew.up ▸ hc), fun hc => hserved.down (hnew.down ▸ hc),
        fun hc hidle => hserved.lost (hnew.ts ▸ hc) (hnew.up ▸ hidle)⟩)
  simpa [updateConn] using hwritten

theorem Inv.noteLink (h : Inv P s) (conn : Conn) {note : Link → Link}
    (hnote : ∀ link, Unmoved link (note link)) : Inv P (noteLink s conn note) := by
  unfold Ml2capLinks.noteLink
  split
  · next link hfind => exact h.noted (find_some hfind).1 (hnote link)
  · exact h

theorem Inv.created (h : Inv P s) (macAddr : CStr) (create : Bool) :
    Inv P (createConnection s macAddr create) := by
  unfold createConnection
  dsimp only
  split
  · exact ⟨h.agree, h.advertises.disable⟩
  · exact ⟨h.agree, h.advertises.disable.enable⟩

theorem Inv.discovered (h : Inv P s) (eid macAddr : CStr) (connectable : Bool)
    (calls : DiscoveryCalls) :
    Inv P (handleDiscoveredNeighborInfo P s eid macAddr connectable calls) := by
  unfold handleDiscoveredNeighborInfo
  split
  · exact h
  · have hpushed := h.push
      (.neighborDiscovered eid (copied calls.text (claAddrOf macAddr)))
    dsimp only
    split
    · exact hpushed
    · split
      · exact hpushed
      · split
        · exact hpushed
        · split
          · exact hpushed
          · exact hpushed.created macAddr calls.create

theorem Inv.connected (h : Inv P s) {conn : Conn} {macAddr : CStr} (role : Role)
    (calls : ConnectedCalls) (hnew : ∀ c ∈ s.conns, c.conn ≠ conn ∧ c.peer ≠ macAddr)
    (pending : Option CStr) : ∃ s', connected P { s with
      conns := s.conns ++ [⟨conn, macAddr, false, false⟩], pending } conn macAddr role calls =
        some s' ∧ Inv P s' := by
  have hfail : ∀ connProb, Inv P (connectedFail { s with
      conns := s.conns ++ [⟨conn, macAddr, false, false⟩], pending, connProb } conn) := by
    intro connProb
    refine ⟨?_, h.advertises.enable⟩
    have hold : s.conns.map (fun c => if c.conn = conn then { c with ending := true } else c) =
        s.conns := by
      refine (List.map_congr_left fun c hc => ?_).trans (List.map_id _)
      rw [if_neg (hnew c hc).1, id]
    simp only [connectedFail, Ml2capLinks.btConnDisconnect, updateConn, List.map_append, hold,
      List.map_cons, List.map_nil, if_true]
    exact h.agree.refused hnew rfl
  unfold Ml2capLinks.connected
  split
  · exact ⟨_, rfl, hfail s.connProb⟩
  · next hroom =>
    split
    · exact ⟨_, rfl, hfail s.connProb⟩
    · have hlt : s.links.length < P.maxConn := Nat.lt_of_le_of_ne h.advertises.bound hroom
      have hadded : ∀ eidKnown : Bool, Agree
          (s.links ++
            [{ ml2capLinkCreate conn macAddr with connectTs := calls.now, eidKnown }])
          (s.conns ++ [⟨conn, macAddr, false, false⟩]) := fun eidKnown =>
        h.agree.linked hnew rfl ⟨rfl, rfl, fun hup => (by cases hup), fun hdown => (by cases hdown),
          fun hts => (hts rfl).elim⟩
      have hadv : Advertises P (s.links.length + 1) pending.isSome
          (nbBleEnable (nbBleSetConnectable (s.links.length + 1 < P.maxConn) s.nbBle)) :=
        (h.advertises.changed hlt).enable
      cases role with
      | master =>
          dsimp only
          split
          · simp only [addActiveLink, if_pos hlt, Option.bind_eq_bind, Option.bind_some,
              List.length_append, List.length_singleton]
            refine ⟨_, rfl, hadded _, ?_⟩
            rw [List.length_append, List.length_singleton]
            exact hadv
          · exact ⟨_, rfl, hfail _⟩
      | slave =>
          simp only [addActiveLink, if_pos hlt, Option.bind_eq_bind, Option.bind_some,
            List.length_append, List.length_singleton]
          refine ⟨_, rfl, hadded _, ?_⟩
          rw [List.length_append, List.length_singleton]
          exact hadv

theorem Inv.disconnected (h : Inv P s) {c : BtConn} (hc : c ∈ s.conns)
    (hdown : c.channel = false) :
    ∃ s', disconnected P { s with conns := s.conns.filter (·.conn ≠ c.conn) } c.conn = some s' ∧
      Inv P s' := by
  unfold Ml2capLinks.disconnected
  cases hfind : findLinkByConnection s.links c.conn with
  | none =>
      refine ⟨_, rfl, h.agree.removed h.agree.entries fun l => ?_, h.advertises.enable⟩
      exact ⟨fun hl => ⟨hl, find_none hfind l hl⟩, And.left⟩
  | some link =>
      obtain ⟨hlink, hconn⟩ := find_some hfind
      have hidle := h.agree.idle hlink hc hconn hdown
      have hperm := removeActiveLink_perm (P := P) h.agree hlink
      have hentries := ((hperm.map _).nodup_iff).mpr h.agree.entries
      simp only [hidle, Bool.false_eq_true, if_false]
      refine ⟨_, rfl, ?_, Advertises.enable (h.advertises.changed ?_)⟩
      · rw [← hconn]
        exact h.agree.removed (List.nodup_cons.mp hentries).2 (h.agree.mem_removed hperm)
      · have hlength := hperm.length_eq
        have hbound := h.advertises.bound
        rw [List.length_cons] at hlength
        exact Nat.le_trans (Nat.le_of_succ_le (Nat.le_of_eq hlength)) hbound

/-- The stack notes the state of a channel, and its connection is ended. -/
theorem update_twice (conns : List BtConn) (conn : Conn) (channel : Bool) :
    updateConn (updateConn conns conn ({ · with channel })) conn ({ · with ending := true }) =
      updateConn conns conn ({ · with channel, ending := true }) := by
  unfold updateConn
  rw [List.map_map]
  refine List.map_congr_left fun c _ => ?_
  by_cases hc : c.conn = conn <;> simp [hc]

/-- The stack notes the state of a channel that no link uses. -/
theorem Inv.channelUnused (h : Inv P s) {conn : Conn} (hnone : ∀ l ∈ s.links, l.conn ≠ conn)
    (channel : Bool) : Inv P (s.setChannel conn channel) := by
  refine ⟨h.agree.marked (notes_channel channel) ?_, h.advertises⟩
  intro l hl c hc hserved
  exact absurd (hserved.conn.trans hc) (hnone l hl)

/-- A link is marked and its connection is ended. -/
theorem Inv.shut (h : Inv P s) {link : Link} (hlink : link ∈ s.links) (new : Link) (channel : Bool)
    (hconn : new.conn = link.conn) (hmac : new.macAddr = link.macAddr)
    (hcla : new.claAddr = link.claAddr) (hup : new.chanConnected = true → channel = true) :
    Inv P { s with
      links := writeLink s.links new
      conns := updateConn s.conns link.conn ({ · with channel, ending := true }) } :=
  h.written hlink hconn hmac hcla (fun _ => ⟨rfl, rfl, fun _ => rfl⟩) fun _ hc =>
    ⟨hconn.trans hc.conn, hmac.trans hc.peer, hup, fun _ => rfl, fun _ _ => rfl⟩

theorem Inv.chanConnected (h : Inv P s) {c : BtConn} (hc : c ∈ s.conns)
    (hdown : c.channel = false) (linkInit text : Bool) (now : Nat) :
    ∃ s', chanConnectedCb (s.setChannel c.conn true) c.conn linkInit text now = some s' ∧
      Inv P s' := by
  unfold chanConnectedCb
  rw [show (s.setChannel c.conn true).links = s.links from rfl]
  cases hfind : findLinkByConnection s.links c.conn with
  | none => exact ⟨_, rfl, (h.channelUnused (find_none hfind) true).btConnDisconnect c.conn⟩
  | some link =>
      obtain ⟨hlink, hconn⟩ := find_some hfind
      have hidle := h.agree.idle hlink hc hconn hdown
      simp only [hidle, Bool.false_eq_true, if_false]
      rw [← hconn]
      cases linkInit with
      | true =>
          refine ⟨_, rfl, Inv.push (Inv.push ?_ _) _⟩
          exact h.written hlink rfl rfl rfl (notes_channel true) fun b hb =>
            ⟨hb.conn, hb.peer, fun _ => rfl, hb.down, fun _ hdown => (by cases hdown)⟩
      | false =>
          have hshut := h.shut hlink { link with channelUpTs := now, chanConnected := false } true
            rfl rfl rfl fun hup => by cases hup
          rw [← update_twice] at hshut
          exact ⟨_, rfl, hshut⟩

theorem Inv.chanDisconnected (h : Inv P s) (conn : Conn) (text : Bool) (now : Nat) :
    Inv P (chanDisconnectedCb (s.setChannel conn false) conn text now) := by
  unfold chanDisconnectedCb
  rw [show (s.setChannel conn false).links = s.links from rfl]
  cases hfind : findLinkByConnection s.links conn with
  | none => exact h.channelUnused (find_none hfind) false
  | some link =>
      obtain ⟨hlink, rfl⟩ := find_some hfind
      have hshut := h.shut hlink
        { link with channelDownTs := now, shuttingDown := true, chanConnected := false } false
        rfl rfl rfl fun hup => by cases hup
      rw [← update_twice] at hshut
      dsimp only
      split
      · exact ⟨hshut.agree, hshut.advertises⟩
      · exact hshut

theorem Inv.eidRead (h : Inv P s) (conn : Conn) (eid remote : CStr) (node : Bool) :
    Inv P (gattEidClientReadCb s conn eid remote node) := by
  unfold gattEidClientReadCb
  split
  · next link hfind =>
    split
    · exact (h.push _).noted (find_some hfind).1 ⟨rfl, rfl, rfl, rfl, rfl, rfl⟩
    · exact h
  · exact h

/-- A link is marked as shutting down and its connection is ended. -/
theorem Inv.shutDown (h : Inv P s) {link : Link} (hlink : link ∈ s.links) :
    Inv P (Ml2capLinks.btConnDisconnect
      { s with links := writeLink s.links { link with shuttingDown := true } } link.conn) :=
  h.written hlink rfl rfl rfl notes_ending fun _ hc =>
    ⟨hc.conn, hc.peer, hc.up, fun _ => rfl, fun _ _ => rfl⟩

theorem Inv.manageLoop (h : Inv P s) (now i n : Nat) : Inv P (manageLoop now s i n) := by
  induction n generalizing s i with
  | zero => exact h
  | succ n ih =>
      unfold Ml2capLinks.manageLoop
      split
      · exact h
      · next link hget =>
        split
        · exact ih (h.shutDown (List.mem_of_getElem? hget)) (i + 1)
        · exact ih h (i + 1)

/-- **One event.**  It does not fail, and keeps the invariant. -/
theorem Inv.next (h : Inv P s) {e : Event} (henabled : Enabled s e) :
    ∃ s', next P s e = some s' ∧ Inv P s' := by
  cases e with
  | discovered eid macAddr connectable calls =>
      exact ⟨_, rfl, h.discovered eid macAddr connectable calls⟩
  | connected conn macAddr role calls =>
      exact h.connected role calls (of_decide_eq_true henabled).1 _
  | connectionFailed conn =>
      exact ⟨_, rfl, (h.btConnDisconnect conn).agree, h.advertises.enable⟩
  | chanConnected conn linkInit text now =>
      obtain ⟨c, hc, rfl, hdown⟩ := of_decide_eq_true henabled
      exact h.chanConnected hc hdown linkInit text now
  | chanDisconnected conn text now => exact ⟨_, rfl, h.chanDisconnected conn text now⟩
  | received conn numBytes now =>
      exact ⟨_, rfl, h.noteLink conn fun _ => ⟨rfl, rfl, rfl, rfl, rfl, rfl⟩⟩
  | transmitted conn sent now =>
      exact ⟨_, rfl, h.noteLink conn fun _ => ⟨rfl, rfl, rfl, rfl, rfl, rfl⟩⟩
  | eidRead conn eid remote node => exact ⟨_, rfl, h.eidRead conn eid remote node⟩
  | disconnected conn =>
      obtain ⟨c, hc, rfl, hdown⟩ := of_decide_eq_true henabled
      exact h.disconnected hc hdown
  | advertisingEnds => exact ⟨_, rfl, h.agree, h.advertises.ends⟩
  | manage now => exact ⟨_, rfl, h.manageLoop now 0 s.links.length⟩
  | nbManage scanOk advOk => exact ⟨_, rfl, h.agree, h.advertises.managed scanOk advOk⟩

theorem invariant (C : State → Event → Prop) : Invariant (system P) C (Inv P) where
  init := by
    intro s hs
    obtain rfl : s = Ml2capLinks.init P := hs
    exact inv_init
  step := by
    intro s e s' h henabled _ hnext
    obtain ⟨t, ht, hinv⟩ := h.next henabled
    obtain rfl : t = s' := Option.some.inj (ht.symm.trans hnext)
    exact hinv

/-! ## What a maintainer relies on -/

theorem claAddrOf_inj {a b : CStr} (h : claAddrOf a = claAddrOf b) : a = b :=
  List.append_cancel_left h

/-- An address belongs to one link. -/
theorem Agree.eq_of_addr (h : Agree links conns) :
    ∀ l ∈ links, ∀ l' ∈ links, l.claAddr = l'.claAddr → l = l' := by
  intro l hl l' hl' heq
  obtain ⟨c, hc, hserved⟩ := h.served l hl
  obtain ⟨c', hc', hserved'⟩ := h.served l' hl'
  rw [h.addr l hl, h.addr l' hl'] at heq
  have hpeer : c.peer = c'.peer := by
    rw [← hserved.peer, ← hserved'.peer, claAddrOf_inj heq]
  have hsame : c = c' := List.inj_on_of_nodup_map h.devices hc hc' hpeer
  refine eq_of_conn h.entries hl hl' ?_
  rw [hserved.conn, hserved'.conn, hsame]

/-- What holds of the table of links in every run. -/
structure LinksSound (s : State) : Prop where
  bound : s.links.length ≤ P.maxConn
  /-- an address belongs to one link -/
  distinct : ∀ l ∈ s.links, ∀ l' ∈ s.links, l.claAddr = l'.claAddr → l = l'
  /-- a link has a connection with its device; its channel is up when the link says so -/
  served : ∀ l ∈ s.links, ∃ c ∈ s.conns, c.conn = l.conn ∧ claAddrOf c.peer = l.claAddr ∧
    (l.chanConnected = true → c.channel = true) ∧ (l.shuttingDown = true → c.ending = true)
  /-- a connection has a link, or is being ended -/
  orphans : ∀ c ∈ s.conns, c.ending = true ∨ ∃ l ∈ s.links, l.conn = c.conn
  /-- others are only invited to connect while there is room for a link -/
  advertised : s.nbBle.advertising = some true → s.links.length < P.maxConn
  /-- advertising and scanning are only off while a connection is being created -/
  enabled : s.nbBle.enabled = true ∨ s.pending.isSome = true
  /-- the router gets the queue of the link with the address, while its channel is usable -/
  queue : ∀ claAddr l, ml2capGetTxQueue s claAddr = some l ↔
    l ∈ s.links ∧ l.claAddr = claAddr ∧ l.shuttingDown = false ∧ l.chanConnected = true
  /-- no assertion fails -/
  safe : ∀ e, Enabled s e → (next P s e).isSome = true

/-- **The links of ML2CAP.**  In every run, whatever the order of the callbacks and of the passes of
the tasks. -/
theorem links_sound {s : State} (h : Reachable (system P) Anything s) : LinksSound (P := P) s := by
  have hinv : Inv P s := h.invariant (invariant Anything)
  have hdistinct := hinv.agree.eq_of_addr
  constructor
  · exact hinv.advertises.bound
  · exact hdistinct
  · intro l hl
    obtain ⟨c, hc, hserved⟩ := hinv.agree.served l hl
    refine ⟨c, hc, hserved.conn.symm, ?_, hserved.up, hserved.down⟩
    rw [← hserved.peer, hinv.agree.addr l hl]
  · exact hinv.agree.orphans
  · intro hadv
    have hflag := hinv.advertises.running true hadv
    rw [hinv.advertises.connectable] at hflag
    exact of_decide_eq_true hflag.symm
  · cases hon : s.nbBle.enabled with
    | true => exact .inl rfl
    | false => exact .inr (hinv.advertises.disabled hon).2
  · intro claAddr l
    unfold ml2capGetTxQueue findLinkByClaAddress
    constructor
    · intro hget
      split at hget
      · next link hfind =>
        split at hget
        · next hup =>
          cases hget
          have haddr := List.find?_some hfind
          exact ⟨List.mem_of_find?_eq_some hfind, by simpa using haddr, by simpa using hup⟩
        · cases hget
      · cases hget
    · intro hl
      obtain ⟨hmem, haddr, hdown, hup⟩ := hl
      cases hfind : s.links.find? fun link => link.claAddr = claAddr with
      | none =>
          have hnone := List.find?_eq_none.mp hfind l hmem
          exact (hnone (by simpa using haddr)).elim
      | some link =>
          have haddr' := List.find?_some hfind
          obtain rfl := hdistinct link (List.mem_of_find?_eq_some hfind) l hmem
            (by rw [haddr]; simpa using haddr')
          simp [hdown, hup]
  · intro e henabled
    obtain ⟨s', hs', -⟩ := hinv.next henabled
    rw [hs']
    rfl

/-- The connection of the witnesses: a device is discovered, and its channel comes up. -/
def connectEvents : List Event :=
  [.nbManage true true,
    .discovered "dtn://a".toList "AA".toList true ⟨true, true, 7, true⟩,
    .connected 0 "AA".toList .master ⟨true, true, true, 10⟩,
    .chanConnected 0 true true 20]

/-- A device is connected, and its queue is there for the router. -/
theorem links_sound_connected : ∃ s, LinksSound (P := ⟨1, false⟩) s ∧
    (ml2capGetTxQueue s "ml2cap://AA".toList).isSome = true := by
  have hrun : Runs (system ⟨1, false⟩) Anything
      (fun s => (ml2capGetTxQueue s "ml2cap://AA".toList).isSome = true) (init ⟨1, false⟩)
      connectEvents := by
    decide
  obtain ⟨t, hreach, hqueue⟩ := hrun.reachable
  exact ⟨t, links_sound ⟨_, rfl, hreach⟩, hqueue⟩

end Ml2capLinks
