import Mathlib.Algebra.Group.Nat.Defs
import Mathlib.Data.List.Basic

/-!
# The parser of configuration commands

`components/agents/config_parser.c`: a command is read byte by byte, and the router gets it when
the byte that ends it was read.  Requests for memory are served.

A string is the list of its bytes; `current_index` is its length while it is read.  `current_eid`
and `current_contact` always lead to the last entry of a list, so what is kept of them is whether
they are set and which list they lead to.
-/

namespace ConfigParser

/-- The bytes of a C string, without its terminator. -/
abbrev Str := List UInt8

/-! ## Commands -/

/-- `enum router_command_type`. -/
inductive CommandType where
  | undefined
  | add
  | update
  | delete
  | query
  deriving DecidableEq, Repr

/-- The command type with this code. -/
def CommandType.ofCode (code : UInt8) : Option CommandType :=
  if code = 0x31 then some .add
  else if code = 0x32 then some .update
  else if code = 0x33 then some .delete
  else if code = 0x34 then some .query
  else none

/-- `struct contact`, as far as the parser writes it. -/
structure Contact where
  fromTime : UInt64
  toTime : UInt64
  bitrate : UInt32
  contactEndpoints : List Str
  deriving DecidableEq, Repr

/-- `contact_create`. -/
def contactCreate : Contact := ⟨0, 0, 0, []⟩

/-- `struct node`, as far as the parser writes it.  The reliability, a `float`, is always a number of
thousandths, and this number is kept. -/
structure Node where
  eid : Option Str
  claAddr : Option Str
  reliability : UInt16
  endpoints : List Str
  contacts : List Contact
  deriving DecidableEq, Repr

/-- `node_create(NULL)`. -/
def nodeCreate : Node := ⟨none, none, 1000, [], []⟩

/-- `struct router_command`. -/
structure RouterCommand where
  type : CommandType
  data : Node
  deriving DecidableEq, Repr

/-! ## State -/

/-- `enum parser_status`. -/
inductive ParserStatus where
  | good
  | done
  | error
  deriving DecidableEq, Repr

/-- `enum config_parser_stage`. -/
inductive Stage where
  | commandType
  | nodeConfStartDelimiter
  | nodeConfEid
  | nodeConfReliabilitySeparator
  | nodeConfReliability
  | nodeConfClaAddrSeparator
  | claAddrStartDelimiter
  | claAddr
  | claAddrNodesSeparator
  | nodeListStartDelimiter
  | nodeStartDelimiter
  | nodeEid
  | nodeSeparator
  | nodesContactsSeparator
  | contactListStartDelimiter
  | contactStartDelimiter
  | contactStartTime
  | contactEndTime
  | contactBitrate
  | contactNodeListStartDelimiter
  | contactNodeStartDelimiter
  | contactNodeEid
  | contactNodeSeparator
  | contactEndDelimiter
  | contactSeparator
  | commandEndMarker
  deriving DecidableEq, Repr

/-- The lists of endpoints that `current_eid` may lead to: those of the node, and those of its last
contact. -/
inductive EidList where
  | endpoints
  | contactEndpoints
  deriving DecidableEq, Repr

/-- `struct config_parser`, and the commands that were sent.  The command of a parser that is done
was sent, and is not looked at any more. -/
structure Parser where
  status : ParserStatus
  stage : Stage
  routerCommand : RouterCommand
  currentIntData : Str
  currentEid : Option EidList
  currentContact : Bool
  sent : List RouterCommand
  deriving DecidableEq, Repr

/-- A parser after `config_parser_reset`. -/
def Parser.fresh (sent : List RouterCommand) : Parser where
  status := .good
  stage := .commandType
  routerCommand := ⟨.undefined, nodeCreate⟩
  currentIntData := []
  currentEid := none
  currentContact := false
  sent := sent

/-! ## Delimiters -/

/-- `EID_START_DELIMITER` and `CLA_ADDR_START_DELIMITER`: an opening parenthesis. -/
def eidStartDelimiter : UInt8 := 0x28

/-- `EID_END_DELIMITER` and `CLA_ADDR_END_DELIMITER`: a closing parenthesis. -/
def eidEndDelimiter : UInt8 := 0x29

/-- The separators within a list or an object, and the one before the reliability: a comma. -/
def listElementSeparator : UInt8 := 0x2C

/-- The separators between the parts of a command: a colon. -/
def partSeparator : UInt8 := 0x3A

/-- `COMMAND_END_MARKER`: a semicolon. -/
def commandEndMarker : UInt8 := 0x3B

/-- `LIST_START_DELIMITER`: an opening bracket. -/
def listStartDelimiter : UInt8 := 0x5B

/-- `LIST_END_DELIMITER`: a closing bracket. -/
def listEndDelimiter : UInt8 := 0x5D

/-- `OBJECT_START_DELIMITER`: an opening brace. -/
def objectStartDelimiter : UInt8 := 0x7B

/-- `OBJECT_END_DELIMITER`: a closing brace. -/
def objectEndDelimiter : UInt8 := 0x7D

/-- The characters that `read_eid` accepts. -/
def eidChar (byte : UInt8) : Bool :=
  (0x21 ≤ byte && byte ≤ 0x5F) || (0x61 ≤ byte && byte ≤ 0x7A) || byte = 0x7E

/-- The characters that `read_cla_addr` accepts. -/
def claAddrChar (byte : UInt8) : Bool :=
  (0x30 ≤ byte && byte ≤ 0x39) || (0x41 ≤ byte && byte ≤ 0x5A) || (0x61 ≤ byte && byte ≤ 0x7A) ||
    byte = 0x3A || byte = 0x2E || byte = 0x5B || byte = 0x5D

/-- The characters that `read_integer` accepts. -/
def digitChar (byte : UInt8) : Bool := 0x30 ≤ byte && byte ≤ 0x39

/-! ## Numbers -/

/-- The number that decimal digits stand for. -/
def decimal (digits : Str) : Nat := digits.foldl (fun n b => 10 * n + (b.toNat - 0x30)) 0

/-- `strtoull`, which stops at the largest number. -/
def strtoull (digits : Str) : UInt64 := UInt64.ofNat (min (decimal digits) (2 ^ 64 - 1))

/-- `strtoul` for a `long` of so many bits, converted to `uint32_t`. -/
def strtoul (longBits : Nat) (digits : Str) : UInt32 :=
  UInt32.ofNat (min (decimal digits) (2 ^ longBits - 1))

/-- `atoi`, which is `strtol` converted to `int`, converted to `uint16_t`. -/
def atoi (longBits : Nat) (digits : Str) : UInt16 :=
  UInt16.ofNat (min (decimal digits) (2 ^ (longBits - 1) - 1))

/-! ## Reading -/

/-- Change the last element. -/
def onLast {α : Type} (f : α → α) : List α → List α
  | [] => []
  | [x] => [f x]
  | x :: y :: l => x :: onLast f (y :: l)

namespace Parser

/-- Change the node of the command. -/
def onNode (p : Parser) (f : Node → Node) : Parser :=
  { p with routerCommand := { p.routerCommand with data := f p.routerCommand.data } }

/-- Change the contact behind `current_contact`. -/
def onContact (p : Parser) (f : Contact → Contact) : Parser :=
  p.onNode fun n => { n with contacts := onLast f n.contacts }

/-- Change a list of endpoints. -/
def onEids (p : Parser) (f : List Str → List Str) : EidList → Parser
  | .endpoints => p.onNode fun n => { n with endpoints := f n.endpoints }
  | .contactEndpoints =>
      p.onContact fun c => { c with contactEndpoints := f c.contactEndpoints }

/-- `begin_read_data_eid`: the list `target` begins anew unless there is a `current_eid`, whose list
gets the new entry. -/
def beginReadDataEid (p : Parser) (target : EidList) : Parser :=
  match p.currentEid with
  | none => { p.onEids (fun _ => [[]]) target with currentEid := some target }
  | some list => p.onEids (· ++ [[]]) list

/-- `begin_read_node_conf_eid`. -/
def beginReadNodeConfEid (p : Parser) : Parser := p.onNode fun n => { n with eid := some [] }

/-- `read_eid` for the EID of the node. -/
def readNodeConfEid (p : Parser) (byte : UInt8) : Parser :=
  if eidChar byte then p.onNode fun n => { n with eid := n.eid.map (· ++ [byte]) }
  else { p with status := .error }

/-- `read_eid` for the EID of `current_eid`. -/
def readEid (p : Parser) (byte : UInt8) : Parser :=
  if eidChar byte then
    match p.currentEid with
    | none => p
    | some list => p.onEids (onLast (· ++ [byte])) list
  else { p with status := .error }

/-- `begin_read_cla_addr`. -/
def beginReadClaAddr (p : Parser) : Parser := p.onNode fun n => { n with claAddr := some [] }

/-- `read_cla_addr`. -/
def readClaAddr (p : Parser) (byte : UInt8) : Parser :=
  if claAddrChar byte then p.onNode fun n => { n with claAddr := n.claAddr.map (· ++ [byte]) }
  else { p with status := .error }

/-- `begin_read_contact`. -/
def beginReadContact (p : Parser) : Parser :=
  { p.onNode fun n =>
      { n with contacts := if p.currentContact then n.contacts ++ [contactCreate]
                           else [contactCreate] } with
    currentContact := true
    currentEid := none }

/-- `begin_read_integer`, and the end of the functions `end_read_uint*`. -/
def beginReadInteger (p : Parser) : Parser := { p with currentIntData := [] }

/-- `read_integer`. -/
def readInteger (p : Parser) (byte : UInt8) : Parser :=
  if digitChar byte then { p with currentIntData := p.currentIntData ++ [byte] }
  else { p with status := .error }

/-- A byte that ends the command or leads to the next stage. -/
def endOr (p : Parser) (byte : UInt8) (next : Stage) : Parser :=
  if byte = partSeparator then { p with stage := next }
  else if byte = commandEndMarker then { p with status := .done }
  else { p with status := .error }

/-- A separator or the end of a list. -/
def separatorOr (p : Parser) (byte : UInt8) (start next : Stage) : Parser :=
  if byte = listElementSeparator then { p with stage := start }
  else if byte = listEndDelimiter then { p with stage := next }
  else { p with status := .error }

/-- A single byte that leads to the next stage. -/
def expect (p : Parser) (byte delimiter : UInt8) (next : Stage) : Parser :=
  if byte = delimiter then { p with stage := next } else { p with status := .error }

end Parser

/-- `read_command` at a certain time, for a `long` of so many bits. -/
def readCommand (longBits : Nat) (now : UInt64) (p : Parser) (byte : UInt8) : Parser :=
  match p.stage with
  | .commandType => { p with status := .error }
  | .nodeConfStartDelimiter =>
      if byte = eidStartDelimiter then { p.beginReadNodeConfEid with stage := .nodeConfEid }
      else { p with status := .error }
  | .nodeConfEid =>
      if byte = eidEndDelimiter then { p with stage := .nodeConfReliabilitySeparator }
      else p.readNodeConfEid byte
  | .nodeConfReliabilitySeparator =>
      if byte = listElementSeparator then
        { p.beginReadInteger with stage := .nodeConfReliability }
      else p.endOr byte .claAddrStartDelimiter
  | .nodeConfReliability =>
      if byte = partSeparator || byte = commandEndMarker then
        let tmp := atoi longBits p.currentIntData
        let p := p.beginReadInteger
        if tmp < 100 || 1000 < tmp then { p with status := .error }
        else
          let p := { p.onNode fun n => { n with reliability := tmp } with
            stage := .claAddrStartDelimiter }
          if byte = commandEndMarker then { p with status := .done } else p
      else p.readInteger byte
  | .nodeConfClaAddrSeparator => p.endOr byte .claAddrStartDelimiter
  | .claAddrStartDelimiter =>
      if byte = eidStartDelimiter then { p.beginReadClaAddr with stage := .claAddr }
      else p.endOr byte .nodeListStartDelimiter
  | .claAddr =>
      if byte = eidEndDelimiter then { p with stage := .claAddrNodesSeparator }
      else p.readClaAddr byte
  | .claAddrNodesSeparator => p.endOr byte .nodeListStartDelimiter
  | .nodeListStartDelimiter =>
      if byte = listStartDelimiter then { p with stage := .nodeStartDelimiter }
      else p.endOr byte .contactListStartDelimiter
  | .nodeStartDelimiter =>
      if byte = eidStartDelimiter then
        { p.beginReadDataEid .endpoints with stage := .nodeEid }
      else p.expect byte listEndDelimiter .nodesContactsSeparator
  | .nodeEid =>
      if byte = eidEndDelimiter then { p with stage := .nodeSeparator } else p.readEid byte
  | .nodeSeparator => p.separatorOr byte .nodeStartDelimiter .nodesContactsSeparator
  | .nodesContactsSeparator => p.endOr byte .contactListStartDelimiter
  | .contactListStartDelimiter =>
      if byte = listStartDelimiter then { p with stage := .contactStartDelimiter }
      else if byte = commandEndMarker then { p with status := .done }
      else { p with status := .error }
  | .contactStartDelimiter =>
      if byte = objectStartDelimiter then
        { p.beginReadContact.beginReadInteger with stage := .contactStartTime }
      else p.expect byte listEndDelimiter .commandEndMarker
  | .contactStartTime =>
      if byte = listElementSeparator then
        { (p.onContact fun c => { c with fromTime := strtoull p.currentIntData }).beginReadInteger
          with stage := .contactEndTime }
      else p.readInteger byte
  | .contactEndTime =>
      if byte = listElementSeparator then
        let toTime := strtoull p.currentIntData
        let p := (p.onContact fun c => { c with toTime }).beginReadInteger
        if (p.routerCommand.data.contacts.getLast?.any fun c => c.fromTime < toTime) &&
            now < toTime then
          { p with stage := .contactBitrate }
        else { p with status := .error }
      else p.readInteger byte
  | .contactBitrate =>
      if byte = listElementSeparator || byte = objectEndDelimiter then
        { (p.onContact fun c =>
            { c with bitrate := strtoul longBits p.currentIntData }).beginReadInteger with
          stage := if byte = listElementSeparator then .contactNodeListStartDelimiter
            else .contactSeparator }
      else p.readInteger byte
  | .contactNodeListStartDelimiter => p.expect byte listStartDelimiter .contactNodeStartDelimiter
  | .contactNodeStartDelimiter =>
      if byte = eidStartDelimiter then
        { p.beginReadDataEid .contactEndpoints with stage := .contactNodeEid }
      else p.expect byte listEndDelimiter .contactEndDelimiter
  | .contactNodeEid =>
      if byte = eidEndDelimiter then { p with stage := .contactNodeSeparator } else p.readEid byte
  | .contactNodeSeparator => p.separatorOr byte .contactNodeStartDelimiter .contactEndDelimiter
  | .contactEndDelimiter => p.expect byte objectEndDelimiter .contactSeparator
  | .contactSeparator => p.separatorOr byte .contactStartDelimiter .commandEndMarker
  | .commandEndMarker =>
      if byte = ConfigParser.commandEndMarker then { p with status := .done }
      else { p with status := .error }

/-- `send_router_command`. -/
def sendRouterCommand (p : Parser) : Parser := { p with sent := p.sent ++ [p.routerCommand] }

/-- The first byte of a command. -/
def readCommandType (p : Parser) (byte : UInt8) : Parser :=
  let p := { p with stage := .nodeConfStartDelimiter }
  match CommandType.ofCode byte with
  | some type => { p with routerCommand := { p.routerCommand with type } }
  | none => { p with status := .error }

/-- `config_parser_read_byte`. -/
def configParserReadByte (longBits : Nat) (now : UInt64) (p : Parser) (byte : UInt8) : Parser :=
  if p.status ≠ .good then p
  else
    let p := if p.stage = .commandType then readCommandType p byte
      else readCommand longBits now p byte
    if p.status = .done then sendRouterCommand p else p

/-- `config_parser_reset`. -/
def configParserReset (p : Parser) : Parser :=
  if p.status = .good ∧ p.stage = .commandType then p else Parser.fresh p.sent

/-- The loop of `config_parser_read`: the bytes that are left, each with the time at which it is
read, and the number of those before them. -/
def readLoop (longBits length : Nat) : Nat → List (UInt8 × UInt64) → Parser → Nat × Parser
  | i, [], p => (i, p)
  | i, (byte, now) :: rest, p =>
      let p := configParserReadByte longBits now p byte
      if p.status ≠ .good ∧ p.status ≠ .done then (length, configParserReset p)
      else readLoop longBits length (i + 1) rest p

/-- `config_parser_read`. -/
def configParserRead (longBits : Nat) (p : Parser) (buffer : List (UInt8 × UInt64)) :
    Nat × Parser :=
  readLoop longBits buffer.length 0 buffer p

/-- One call of `config_parser_read` after the other, beginning with `config_parser_init`. -/
def readAll (longBits : Nat) (segments : List (List (UInt8 × UInt64))) : Parser :=
  segments.foldl (fun p buffer => (configParserRead longBits p buffer).2) (Parser.fresh [])

end ConfigParser
