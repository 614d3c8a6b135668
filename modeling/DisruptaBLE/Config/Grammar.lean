import DisruptaBLE.Config.Parser
import Mathlib.Data.List.Forall2

/-!
# The text of configuration commands

The syntax trees of the commands that `read_command` accepts, and the text each of them stands for.
Every text has one tree only (`CommandText.text_injective`).

`CommandText.Matches` says that a command is the one that is written, `CommandText.read` is what the
parser makes of a tree.  They agree exactly when all numbers are written with a digit at least, and
fit the fields they are put into (`matches_read_iff`).
-/

namespace ConfigParser

/-! ## Definitions -/

/-- The code of a command type. -/
def CommandType.code : CommandType → UInt8
  | .undefined => 0
  | .add => 0x31
  | .update => 0x32
  | .delete => 0x33
  | .query => 0x34

/-- The characters of an EID. -/
structure EidText where
  chars : Str
  valid : ∀ b ∈ chars, eidChar b = true ∧ b ≠ eidEndDelimiter

/-- The characters of a CLA address. -/
structure ClaAddrText where
  chars : Str
  valid : ∀ b ∈ chars, claAddrChar b = true ∧ b ≠ eidEndDelimiter

/-- The digits of a number. -/
structure Digits where
  chars : Str
  valid : ∀ b ∈ chars, digitChar b = true

/-- The elements of a list after the opening bracket; a separator may come before the closing
one. -/
inductive Items (α : Type) where
  | done
  | one (x : α)
  | more (x : α) (rest : Items α)

/-- A contact. -/
structure ContactText where
  fromTime : Digits
  toTime : Digits
  bitrate : Digits
  endpoints : Option (Items EidText)

/-- The end of a command, from the place of the contact list on. -/
structure ContactsText where
  contacts : Option (Items ContactText)

/-- The end of a command, from the place of the endpoint list on. -/
structure NodesText where
  endpoints : Option (Items EidText)
  rest : Option ContactsText

/-- The end of a command, from the place of the CLA address on. -/
structure ClaText where
  addr : Option ClaAddrText
  rest : Option NodesText

/-- A command. -/
structure CommandText where
  type : CommandType
  type_ne : type ≠ .undefined
  eid : EidText
  reliability : Option Digits
  rest : Option ClaText

def EidText.text (e : EidText) : Str := eidStartDelimiter :: e.chars ++ [eidEndDelimiter]

def ClaAddrText.text (a : ClaAddrText) : Str := eidStartDelimiter :: a.chars ++ [eidEndDelimiter]

namespace Items

variable {α : Type}

def toList : Items α → List α
  | done => []
  | one x => [x]
  | more x rest => x :: rest.toList

/-- The text after the opening bracket. -/
def text (item : α → Str) : Items α → Str
  | done => [listEndDelimiter]
  | one x => item x ++ [listEndDelimiter]
  | more x rest => item x ++ listElementSeparator :: rest.text item

end Items

/-- A list in its brackets, where there is one. -/
def listText {α : Type} (item : α → Str) : Option (Items α) → Str
  | none => []
  | some items => listStartDelimiter :: items.text item

/-- The end of a command, or a separator and the next part. -/
def restText {α : Type} (part : α → Str) : Option α → Str
  | none => [commandEndMarker]
  | some x => partSeparator :: part x

/-- The end of a contact. -/
def endpointsText : Option (Items EidText) → Str
  | none => [objectEndDelimiter]
  | some items =>
      listElementSeparator :: listStartDelimiter :: items.text EidText.text ++ [objectEndDelimiter]

def ContactText.text (c : ContactText) : Str :=
  objectStartDelimiter :: c.fromTime.chars ++ listElementSeparator :: c.toTime.chars ++
    listElementSeparator :: c.bitrate.chars ++ endpointsText c.endpoints

def ContactsText.text (s : ContactsText) : Str :=
  listText ContactText.text s.contacts ++ [commandEndMarker]

def NodesText.text (s : NodesText) : Str :=
  listText EidText.text s.endpoints ++ restText ContactsText.text s.rest

/-- The CLA address in its parentheses, where there is one. -/
def addrText : Option ClaAddrText → Str
  | none => []
  | some a => a.text

def ClaText.text (s : ClaText) : Str := addrText s.addr ++ restText NodesText.text s.rest

/-- The reliability after its separator, where there is one. -/
def reliabilityText : Option Digits → Str
  | none => []
  | some d => listElementSeparator :: d.chars

def CommandText.text (w : CommandText) : Str :=
  w.type.code :: w.eid.text ++ reliabilityText w.reliability ++ restText ClaText.text w.rest

/-! ## Texts are unambiguous -/

/-- Where a text ends can be told from the text. -/
def Unambiguous {α : Type} (text : α → Str) : Prop :=
  ∀ x y r s, text x ++ r = text y ++ s → x = y ∧ r = s

/-- The first character that is not in a class is determined. -/
theorem span_unique {P : UInt8 → Prop} {xs ys r s : Str} {x y : UInt8} (hxs : ∀ b ∈ xs, P b)
    (hys : ∀ b ∈ ys, P b) (hx : ¬ P x) (hy : ¬ P y) (h : xs ++ x :: r = ys ++ y :: s) :
    xs = ys ∧ x = y ∧ r = s := by
  induction xs generalizing ys with
  | nil =>
      cases ys with
      | nil => exact ⟨rfl, List.cons.inj h⟩
      | cons b ys => exact absurd ((List.cons.inj h).1 ▸ hys b List.mem_cons_self) hx
  | cons a xs ih =>
      cases ys with
      | nil => exact absurd ((List.cons.inj h).1 ▸ hxs a List.mem_cons_self) hy
      | cons b ys =>
          obtain ⟨rfl, htail⟩ := List.cons.inj h
          obtain ⟨rfl, hrest⟩ := ih (fun c hc => hxs c (List.mem_cons_of_mem _ hc))
            (fun c hc => hys c (List.mem_cons_of_mem _ hc)) htail
          exact ⟨rfl, hrest⟩

theorem EidText.unambiguous : Unambiguous EidText.text := by
  intro x y r s h
  obtain ⟨cs, hcs⟩ := x
  obtain ⟨ds, hds⟩ := y
  simp only [EidText.text, List.cons_append, List.append_assoc, List.nil_append,
    List.cons.injEq, true_and] at h
  obtain ⟨rfl, _, rfl⟩ := span_unique hcs hds (fun h => h.2 rfl) (fun h => h.2 rfl) h
  exact ⟨rfl, rfl⟩

theorem ClaAddrText.unambiguous : Unambiguous ClaAddrText.text := by
  intro x y r s h
  obtain ⟨cs, hcs⟩ := x
  obtain ⟨ds, hds⟩ := y
  simp only [ClaAddrText.text, List.cons_append, List.append_assoc, List.nil_append,
    List.cons.injEq, true_and] at h
  obtain ⟨rfl, _, rfl⟩ := span_unique hcs hds (fun h => h.2 rfl) (fun h => h.2 rfl) h
  exact ⟨rfl, rfl⟩

/-- Digits end at the first other character. -/
theorem Digits.unique {d e : Digits} {x y : UInt8} {r s : Str} (hx : digitChar x = false)
    (hy : digitChar y = false) (h : d.chars ++ x :: r = e.chars ++ y :: s) :
    d = e ∧ x = y ∧ r = s := by
  obtain ⟨cs, hcs⟩ := d
  obtain ⟨ds, hds⟩ := e
  obtain ⟨rfl, hrest⟩ := span_unique hcs hds (Bool.eq_false_iff.mp hx) (Bool.eq_false_iff.mp hy) h
  exact ⟨rfl, hrest⟩

theorem Items.unambiguous {α : Type} {item : α → Str} (hitem : Unambiguous item)
    (hstart : ∀ x, ∃ c l, item x = c :: l ∧ c ≠ listEndDelimiter) :
    Unambiguous (Items.text item) := by
  intro x
  induction x with
  | done =>
      intro y r s h
      cases y with
      | done => exact ⟨rfl, (List.cons.inj h).2⟩
      | one y | more y _ =>
          obtain ⟨c, l, hc, hne⟩ := hstart y
          rw [Items.text, Items.text, hc] at h
          exact absurd (List.cons.inj h).1.symm hne
  | one x =>
      intro y r s h
      cases y with
      | done =>
          obtain ⟨c, l, hc, hne⟩ := hstart x
          rw [Items.text, Items.text, hc] at h
          exact absurd (List.cons.inj h).1 hne
      | one y =>
          rw [Items.text, Items.text, List.append_assoc, List.append_assoc] at h
          obtain ⟨rfl, hrest⟩ := hitem _ _ _ _ h
          exact ⟨rfl, (List.cons.inj hrest).2⟩
      | more y rest =>
          rw [Items.text, Items.text, List.append_assoc, List.append_assoc] at h
          obtain ⟨_, hrest⟩ := hitem _ _ _ _ h
          exact absurd (List.cons.inj hrest).1 (by decide)
  | more x rest ih =>
      intro y r s h
      cases y with
      | done =>
          obtain ⟨c, l, hc, hne⟩ := hstart x
          rw [Items.text, Items.text, hc] at h
          exact absurd (List.cons.inj h).1 hne
      | one y =>
          rw [Items.text, Items.text, List.append_assoc, List.append_assoc] at h
          obtain ⟨_, hrest⟩ := hitem _ _ _ _ h
          exact absurd (List.cons.inj hrest).1 (by decide)
      | more y rest' =>
          rw [Items.text, Items.text, List.append_assoc, List.append_assoc] at h
          obtain ⟨rfl, hrest⟩ := hitem _ _ _ _ h
          obtain ⟨rfl, hend⟩ := ih _ _ _ (List.cons.inj hrest).2
          exact ⟨rfl, hend⟩

theorem eids_unambiguous : Unambiguous (Items.text EidText.text) :=
  Items.unambiguous EidText.unambiguous fun _ => ⟨_, _, rfl, by decide⟩

/-- The end of a contact begins with a character that is no digit. -/
theorem endpointsText_start (o : Option (Items EidText)) :
    ∃ c l, endpointsText o = c :: l ∧ digitChar c = false := by
  cases o with
  | none => exact ⟨_, _, rfl, by decide⟩
  | some items => exact ⟨_, _, rfl, by decide⟩

theorem endpointsText_unambiguous : Unambiguous endpointsText := by
  intro x y r s h
  cases x with
  | none =>
      cases y with
      | none => exact ⟨rfl, (List.cons.inj h).2⟩
      | some items => exact absurd (List.cons.inj h).1 (by decide)
  | some items =>
      cases y with
      | none => exact absurd (List.cons.inj h).1 (by decide)
      | some items' =>
          simp only [endpointsText, List.cons_append, List.append_assoc, List.cons.injEq,
            true_and] at h
          obtain ⟨rfl, hrest⟩ := eids_unambiguous _ _ _ _ h
          exact ⟨rfl, (List.cons.inj hrest).2⟩

theorem ContactText.unambiguous : Unambiguous ContactText.text := by
  intro x y r s h
  obtain ⟨f, t, b, o⟩ := x
  obtain ⟨f', t', b', o'⟩ := y
  obtain ⟨c, l, hc, hdigit⟩ := endpointsText_start o
  obtain ⟨c', l', hc', hdigit'⟩ := endpointsText_start o'
  have hsep : digitChar listElementSeparator = false := by decide
  simp only [ContactText.text, hc, hc', List.cons_append, List.append_assoc, List.cons.injEq,
    true_and] at h
  obtain ⟨rfl, _, h⟩ := Digits.unique hsep hsep h
  obtain ⟨rfl, _, h⟩ := Digits.unique hsep hsep h
  obtain ⟨rfl, hcc, hll⟩ := Digits.unique hdigit hdigit' h
  have hend : endpointsText o ++ r = endpointsText o' ++ s := by
    rw [hc, hc', List.cons_append, List.cons_append, hcc, hll]
  obtain ⟨rfl, rfl⟩ := endpointsText_unambiguous _ _ _ _ hend
  exact ⟨rfl, rfl⟩

theorem contacts_unambiguous : Unambiguous (Items.text ContactText.text) :=
  Items.unambiguous ContactText.unambiguous fun _ => ⟨_, _, rfl, by decide⟩

/-- A list in its brackets, before a part that does not begin with a bracket. -/
theorem listText_unique {α : Type} {item : α → Str} (hitems : Unambiguous (Items.text item))
    {x y : Option (Items α)} {b c : UInt8} {r s : Str} (hb : b ≠ listStartDelimiter)
    (hc : c ≠ listStartDelimiter) (h : listText item x ++ b :: r = listText item y ++ c :: s) :
    x = y ∧ b = c ∧ r = s := by
  cases x with
  | none =>
      cases y with
      | none => exact ⟨rfl, List.cons.inj h⟩
      | some items => exact absurd (List.cons.inj h).1 hb
  | some items =>
      cases y with
      | none => exact absurd (List.cons.inj h).1.symm hc
      | some items' =>
          obtain ⟨rfl, hrest⟩ := hitems _ _ _ _ (List.cons.inj h).2
          exact ⟨rfl, List.cons.inj hrest⟩

theorem restText_start {α : Type} (part : α → Str) (o : Option α) :
    ∃ c l, restText part o = c :: l ∧ (c = commandEndMarker ∨ c = partSeparator) := by
  cases o with
  | none => exact ⟨_, _, rfl, .inl rfl⟩
  | some x => exact ⟨_, _, rfl, .inr rfl⟩

theorem restText_injective {α : Type} {part : α → Str}
    (hpart : ∀ x y, part x = part y → x = y) {o o' : Option α}
    (h : restText part o = restText part o') : o = o' := by
  cases o with
  | none =>
      cases o' with
      | none => rfl
      | some y => exact absurd (List.cons.inj h).1 (by decide)
  | some x =>
      cases o' with
      | none => exact absurd (List.cons.inj h).1 (by decide)
      | some y => rw [hpart x y (List.cons.inj h).2]

theorem ContactsText.text_injective (x y : ContactsText) (h : x.text = y.text) : x = y := by
  obtain ⟨contacts⟩ := x
  obtain ⟨contacts'⟩ := y
  have hmarker : commandEndMarker ≠ listStartDelimiter := by decide
  obtain ⟨rfl, _⟩ := listText_unique contacts_unambiguous hmarker hmarker h
  rfl

theorem NodesText.text_injective (x y : NodesText) (h : x.text = y.text) : x = y := by
  obtain ⟨endpoints, rest⟩ := x
  obtain ⟨endpoints', rest'⟩ := y
  obtain ⟨c, l, hc, hcmark⟩ := restText_start ContactsText.text rest
  obtain ⟨c', l', hc', hcmark'⟩ := restText_start ContactsText.text rest'
  have hbracket : ∀ c, c = commandEndMarker ∨ c = partSeparator → c ≠ listStartDelimiter := by
    rintro c (rfl | rfl) <;> decide
  simp only [NodesText.text, hc, hc'] at h
  obtain ⟨rfl, hcc, hll⟩ := listText_unique eids_unambiguous (hbracket c hcmark)
    (hbracket c' hcmark') h
  obtain rfl : rest = rest' := by
    apply restText_injective ContactsText.text_injective
    rw [hc, hc', hcc, hll]
  rfl

theorem ClaText.text_injective (x y : ClaText) (h : x.text = y.text) : x = y := by
  obtain ⟨addr, rest⟩ := x
  obtain ⟨addr', rest'⟩ := y
  obtain ⟨c, l, hc, hcmark⟩ := restText_start NodesText.text rest
  obtain ⟨c', l', hc', hcmark'⟩ := restText_start NodesText.text rest'
  have hparen : ∀ c, c = commandEndMarker ∨ c = partSeparator → c ≠ eidStartDelimiter := by
    rintro c (rfl | rfl) <;> decide
  have hboth : addr = addr' ∧ restText NodesText.text rest = restText NodesText.text rest' := by
    unfold ClaText.text at h
    cases addr with
    | none =>
        cases addr' with
        | none => exact ⟨rfl, h⟩
        | some a =>
            dsimp only [addrText] at h
            rw [hc] at h
            exact absurd (List.cons.inj h).1 (hparen c hcmark)
    | some a =>
        cases addr' with
        | none =>
            dsimp only [addrText] at h
            rw [hc'] at h
            exact absurd (List.cons.inj h).1.symm (hparen c' hcmark')
        | some a' =>
            obtain ⟨rfl, hrest⟩ := ClaAddrText.unambiguous _ _ _ _ h
            exact ⟨rfl, hrest⟩
  obtain ⟨rfl, hrest⟩ := hboth
  rw [restText_injective NodesText.text_injective hrest]

theorem CommandType.code_injective {t t' : CommandType} (h : t.code = t'.code) : t = t' := by
  cases t <;> cases t' <;> first | rfl | exact absurd h (by decide)

/-- **The grammar is unambiguous.** -/
theorem CommandText.text_injective (x y : CommandText) (h : x.text = y.text) : x = y := by
  obtain ⟨type, hne, eid, reliability, rest⟩ := x
  obtain ⟨type', hne', eid', reliability', rest'⟩ := y
  obtain ⟨c, l, hc, hcmark⟩ := restText_start ClaText.text rest
  obtain ⟨c', l', hc', hcmark'⟩ := restText_start ClaText.text rest'
  have hcomma : ∀ c, c = commandEndMarker ∨ c = partSeparator →
      c ≠ listElementSeparator ∧ digitChar c = false := by
    rintro c (rfl | rfl) <;> decide
  simp only [CommandText.text, List.cons_append, List.append_assoc, List.cons.injEq] at h
  obtain ⟨htype, h⟩ := h
  obtain rfl := CommandType.code_injective htype
  obtain ⟨rfl, htail⟩ := EidText.unambiguous _ _ _ _ h
  have hboth : reliability = reliability' ∧
      restText ClaText.text rest = restText ClaText.text rest' := by
    cases reliability with
    | none =>
        cases reliability' with
        | none => exact ⟨rfl, htail⟩
        | some d =>
            dsimp only [reliabilityText] at htail
            rw [hc] at htail
            exact absurd (List.cons.inj htail).1 (hcomma c hcmark).1
    | some d =>
        cases reliability' with
        | none =>
            dsimp only [reliabilityText] at htail
            rw [hc'] at htail
            exact absurd (List.cons.inj htail).1.symm (hcomma c' hcmark').1
        | some d' =>
            dsimp only [reliabilityText] at htail
            rw [hc, hc'] at htail ⊢
            obtain ⟨rfl, rfl, rfl⟩ := Digits.unique (hcomma c hcmark).2 (hcomma c' hcmark').2
              (List.cons.inj htail).2
            exact ⟨rfl, rfl⟩
  obtain ⟨rfl, hrest⟩ := hboth
  rw [restText_injective ClaText.text_injective hrest]

/-! ## What a command means -/

/-- A number in the text is written with a digit at least, and has a value. -/
def Digits.Reads (d : Digits) (n : Nat) : Prop := d.chars ≠ [] ∧ decimal d.chars = n

/-- A number in the text is written with a digit at least, and fits a field of so many bits. -/
def Digits.Fits (d : Digits) (bits : Nat) : Prop := d.chars ≠ [] ∧ decimal d.chars < 2 ^ bits

/-- The EIDs of a list. -/
def eidsOf : Option (Items EidText) → List Str
  | none => []
  | some items => items.toList.map EidText.chars

/-- The contacts of a list. -/
def contactsOf : Option (Items ContactText) → List ContactText
  | none => []
  | some items => items.toList

namespace CommandText

/-- The written CLA address. -/
def claAddr (w : CommandText) : Option Str :=
  w.rest.bind fun s => s.addr.map ClaAddrText.chars

/-- The written endpoints. -/
def endpoints (w : CommandText) : List Str :=
  eidsOf (w.rest.bind fun s => s.rest.bind fun s => s.endpoints)

/-- The written contacts. -/
def contacts (w : CommandText) : List ContactText :=
  contactsOf (w.rest.bind fun s => s.rest.bind fun s => s.rest.bind fun s => s.contacts)

end CommandText

/-- A contact is the one that is written. -/
structure ContactText.Matches (t : ContactText) (c : Contact) : Prop where
  fromTime : t.fromTime.Reads c.fromTime.toNat
  toTime : t.toTime.Reads c.toTime.toNat
  bitrate : t.bitrate.Reads c.bitrate.toNat
  contactEndpoints : c.contactEndpoints = eidsOf t.endpoints

/-- **A command is the one that is written.**  A node without a written reliability has the
reliability 1. -/
structure CommandText.Matches (w : CommandText) (c : RouterCommand) : Prop where
  type : c.type = w.type
  eid : c.data.eid = some w.eid.chars
  reliability : ∀ d ∈ w.reliability, d.Reads c.data.reliability.toNat
  noReliability : w.reliability = none → c.data.reliability = 1000
  claAddr : c.data.claAddr = w.claAddr
  endpoints : c.data.endpoints = w.endpoints
  contacts : List.Forall₂ ContactText.Matches w.contacts c.data.contacts

/-- The numbers of a contact fit their fields. -/
structure ContactText.NumbersFit (t : ContactText) : Prop where
  fromTime : t.fromTime.Fits 64
  toTime : t.toTime.Fits 64
  bitrate : t.bitrate.Fits 32

/-- **All numbers of a command fit their fields.** -/
structure CommandText.NumbersFit (w : CommandText) : Prop where
  reliability : ∀ d ∈ w.reliability, d.Fits 16
  contacts : ∀ t ∈ w.contacts, t.NumbersFit

/-- What the parser makes of a contact. -/
def ContactText.read (longBits : Nat) (t : ContactText) : Contact where
  fromTime := strtoull t.fromTime.chars
  toTime := strtoull t.toTime.chars
  bitrate := strtoul longBits t.bitrate.chars
  contactEndpoints := eidsOf t.endpoints

/-- What the parser makes of a command. -/
def CommandText.read (longBits : Nat) (w : CommandText) : RouterCommand where
  type := w.type
  data :=
    { eid := some w.eid.chars
      claAddr := w.claAddr
      reliability := (w.reliability.map fun d => atoi longBits d.chars).getD 1000
      endpoints := w.endpoints
      contacts := w.contacts.map (ContactText.read longBits) }

section

variable {longBits : Nat}

theorem reads_strtoull_iff (d : Digits) : d.Reads (strtoull d.chars).toNat ↔ d.Fits 64 := by
  unfold Digits.Reads Digits.Fits strtoull
  rw [UInt64.toNat_ofNat']
  refine and_congr_right fun _ => ?_
  omega

theorem reads_strtoul_iff (hbits : 32 ≤ longBits) (d : Digits) :
    d.Reads (strtoul longBits d.chars).toNat ↔ d.Fits 32 := by
  have hlong : 2 ^ 32 ≤ 2 ^ longBits := Nat.pow_le_pow_right (by decide) hbits
  unfold Digits.Reads Digits.Fits strtoul
  rw [UInt32.toNat_ofNat']
  refine and_congr_right fun _ => ?_
  omega

theorem reads_atoi_iff (hbits : 32 ≤ longBits) (d : Digits) :
    d.Reads (atoi longBits d.chars).toNat ↔ d.Fits 16 := by
  have hlong : 2 ^ 31 ≤ 2 ^ (longBits - 1) := Nat.pow_le_pow_right (by decide) (by omega)
  unfold Digits.Reads Digits.Fits atoi
  rw [UInt16.toNat_ofNat']
  refine and_congr_right fun _ => ?_
  omega

theorem contact_matches_read_iff (hbits : 32 ≤ longBits) (t : ContactText) :
    t.Matches (t.read longBits) ↔ t.NumbersFit := by
  constructor
  · intro h
    exact ⟨(reads_strtoull_iff _).mp h.fromTime, (reads_strtoull_iff _).mp h.toTime,
      (reads_strtoul_iff hbits _).mp h.bitrate⟩
  · intro h
    exact ⟨(reads_strtoull_iff _).mpr h.fromTime, (reads_strtoull_iff _).mpr h.toTime,
      (reads_strtoul_iff hbits _).mpr h.bitrate, rfl⟩

/-- **What is read is what is written** exactly when all numbers fit. -/
theorem matches_read_iff (hbits : 32 ≤ longBits) (w : CommandText) :
    w.Matches (w.read longBits) ↔ w.NumbersFit := by
  have hcontacts : List.Forall₂ ContactText.Matches w.contacts
      (w.contacts.map (ContactText.read longBits)) ↔ ∀ t ∈ w.contacts, t.NumbersFit := by
    rw [List.forall₂_map_right_iff, List.forall₂_same]
    exact forall₂_congr fun t _ => contact_matches_read_iff hbits t
  have hreliability : (∀ d ∈ w.reliability, d.Reads (w.read longBits).data.reliability.toNat) ↔
      ∀ d ∈ w.reliability, d.Fits 16 := by
    refine forall₂_congr fun d hd => ?_
    have hread : (w.read longBits).data.reliability = atoi longBits d.chars := by
      unfold CommandText.read
      rw [Option.mem_def.mp hd]
      rfl
    rw [hread]
    exact reads_atoi_iff hbits d
  constructor
  · exact fun h => ⟨hreliability.mp h.reliability, hcontacts.mp h.contacts⟩
  · intro h
    refine ⟨rfl, rfl, hreliability.mpr h.reliability, fun hnone => ?_, rfl, rfl,
      hcontacts.mpr h.contacts⟩
    unfold CommandText.read
    rw [hnone]
    rfl

end

end ConfigParser
