import DisruptaBLE.Lib.Cbor

/-!
# TinyCBOR

The parser and the serializer of version 7 read and write CBOR with TinyCBOR, which is not a part of
the repository.  `TinyCbor` lists the functions that they call, over the iterator `CborValue`, and
`Documented` says what these functions do: they are those of `reference`.

An iterator has preparsed the head of the item at which it stands.  Within a container it knows how
many items are left, and when it moves behind an item that is not the last one, it preparses the
head of the next one.  This fails when that head is not complete.

More bytes do not change a result, except that they may turn `unexpectedEof` into another one
(`Grown`).
-/

namespace Bundle7

open Cbor

/-- `CborError`.  The errors between which the parser makes no difference are one. -/
inductive CborError where
  | unexpectedEof
  | unexpectedBreak
  | illegalType
  | unknownLength
  | dataTooLarge
  | outOfMemory
  | malformed
  deriving DecidableEq, Repr

/-- `CborValue`. -/
structure CborValue where
  /-- the bytes from `ptr` to `parser->end` -/
  rest : List UInt8
  /-- `type`, or nothing for `CborInvalidType` -/
  type : Option Kind
  /-- `cbor_value_is_length_known` -/
  lengthKnown : Bool
  /-- `remaining`, or nothing for `UINT32_MAX` in containers of unknown length -/
  remaining : Option Nat
  deriving DecidableEq, Repr

namespace CborValue

/-- `cbor_value_is_array`. -/
def isArray (it : CborValue) : Bool := it.type = some .array

/-- `cbor_value_is_unsigned_integer`. -/
def isUnsignedInteger (it : CborValue) : Bool := it.type = some .uint

/-- `cbor_value_is_byte_string`. -/
def isByteString (it : CborValue) : Bool := it.type = some .bytes

/-- `cbor_value_is_text_string`. -/
def isTextString (it : CborValue) : Bool := it.type = some .text

/-- `cbor_value_at_end`. -/
def atEnd (it : CborValue) : Bool := it.remaining = some 0

/-- The same iterator over a longer buffer. -/
def extend (it : CborValue) (d : List UInt8) : CborValue := { it with rest := it.rest ++ d }

@[simp] theorem rest_extend (it : CborValue) (d : List UInt8) :
    (it.extend d).rest = it.rest ++ d := rfl

@[simp] theorem type_extend (it : CborValue) (d : List UInt8) : (it.extend d).type = it.type := rfl

@[simp] theorem lengthKnown_extend (it : CborValue) (d : List UInt8) :
    (it.extend d).lengthKnown = it.lengthKnown := rfl

@[simp] theorem remaining_extend (it : CborValue) (d : List UInt8) :
    (it.extend d).remaining = it.remaining := rfl

@[simp] theorem extend_nil (it : CborValue) : it.extend [] = it := by
  simp [extend]

@[simp] theorem isArray_extend (it : CborValue) (d : List UInt8) :
    (it.extend d).isArray = it.isArray := rfl

@[simp] theorem isUnsignedInteger_extend (it : CborValue) (d : List UInt8) :
    (it.extend d).isUnsignedInteger = it.isUnsignedInteger := rfl

@[simp] theorem isByteString_extend (it : CborValue) (d : List UInt8) :
    (it.extend d).isByteString = it.isByteString := rfl

@[simp] theorem isTextString_extend (it : CborValue) (d : List UInt8) :
    (it.extend d).isTextString = it.isTextString := rfl

@[simp] theorem atEnd_extend (it : CborValue) (d : List UInt8) :
    (it.extend d).atEnd = it.atEnd := rfl

end CborValue

/-- The functions of TinyCBOR that are called.  The iterator that stands beside an error is where
the function has left it. -/
structure TinyCbor where
  /-- `cbor_parser_init` -/
  parserInit : List UInt8 → Option CborError × CborValue
  /-- `cbor_value_get_uint64` -/
  getUint64 : CborValue → UInt64
  /-- `cbor_value_get_array_length` -/
  getArrayLength : CborValue → Except CborError Nat
  /-- `cbor_value_get_string_length` -/
  getStringLength : CborValue → Except CborError Nat
  /-- `cbor_value_advance_fixed` -/
  advanceFixed : CborValue → Option CborError × CborValue
  /-- `cbor_value_enter_container` -/
  enterContainer : CborValue → Except CborError CborValue
  /-- `cbor_value_leave_container` -/
  leaveContainer : CborValue → CborValue → Except CborError CborValue
  /-- `cbor_value_copy_byte_string` and `cbor_value_copy_text_string` into a buffer of some size -/
  copyString : CborValue → Nat → Except CborError (List UInt8 × CborValue)
  /-- `cbor_encode_uint` -/
  encodeUint : UInt64 → List UInt8
  /-- `cbor_encode_text_string` -/
  encodeTextString : List UInt8 → List UInt8
  /-- `cbor_encode_byte_string` -/
  encodeByteString : List UInt8 → List UInt8
  /-- `cbor_encoder_create_array` -/
  createArray : Nat → List UInt8

/-! ## The documented behaviour -/

/-- An iterator at these bytes whose first head is preparsed. -/
def preparseValue (remaining : Option Nat) (l : List UInt8) : Option CborError × CborValue :=
  match readHead l with
  | .short => (some .unexpectedEof, ⟨l, none, true, remaining⟩)
  | .malformed => (some .malformed, ⟨l, none, true, remaining⟩)
  | .stop => (some .unexpectedBreak, ⟨l, some .simple, true, remaining⟩)
  | .head h => (none, ⟨l, some h.kind, h.arg.isSome, remaining⟩)

/-- The same in a container, where the break of an indefinite one is consumed. -/
def preparseItem (remaining : Option Nat) (l : List UInt8) : Option CborError × CborValue :=
  if remaining = none ∧ l.head? = some 0xff then (none, ⟨l.tail, none, true, some 0⟩)
  else preparseValue remaining l

/-- An iterator behind the item at which `it` stands. -/
def preparseNext (it : CborValue) (l : List UInt8) : Option CborError × CborValue :=
  match it.remaining with
  | none => preparseItem none l
  | some n =>
      if it.type = some .tag then preparseItem (some n) l
      else if n ≤ 1 then (none, ⟨l, none, true, some 0⟩)
      else preparseItem (some (n - 1)) l

/-- A result without the place of a failure. -/
def checked (r : Option CborError × CborValue) : Except CborError CborValue :=
  match r.1 with
  | none => .ok r.2
  | some e => .error e

/-- The head at which an iterator stands. -/
def headOf (it : CborValue) : Except CborError Head :=
  match readHead it.rest with
  | .short => .error .unexpectedEof
  | .malformed => .error .malformed
  | .stop => .error .unexpectedBreak
  | .head h => .ok h

/-- The argument of a head whose length is known. -/
def knownLength (it : CborValue) : Except CborError Nat :=
  match headOf it with
  | .error e => .error e
  | .ok h =>
      match h.arg with
      | none => .error .unknownLength
      | some n => .ok n

/-- The chunks of a string of unknown length, and the bytes behind its break. -/
def readChunks (kind : Kind) : Nat → List UInt8 → Except CborError (List UInt8 × List UInt8)
  | 0, _ => .error .unexpectedEof
  | fuel + 1, l =>
      match readHead l with
      | .short => .error .unexpectedEof
      | .malformed => .error .malformed
      | .stop => .ok ([], l.tail)
      | .head h =>
          if h.kind ≠ kind then .error .illegalType
          else
            match h.arg with
            | none => .error .malformed
            | some n =>
                if l.length - h.size < n then .error .unexpectedEof
                else
                  match readChunks kind fuel (l.drop (h.size + n)) with
                  | .error e => .error e
                  | .ok (bytes, rest) => .ok ((l.drop h.size).take n ++ bytes, rest)

/-- The bytes of a string, and the bytes behind it. -/
def readString (it : CborValue) : Except CborError (List UInt8 × List UInt8) :=
  match headOf it with
  | .error e => .error e
  | .ok h =>
      match h.arg with
      | none => readChunks h.kind it.rest.length (it.rest.drop h.size)
      | some n =>
          if it.rest.length - h.size < n then .error .unexpectedEof
          else .ok ((it.rest.drop h.size).take n, it.rest.drop (h.size + n))

/-- TinyCBOR, as it is documented. -/
def reference : TinyCbor where
  parserInit := preparseValue (some 1)
  getUint64 := fun it =>
    match headOf it with
    | .ok ⟨_, some n, _⟩ => UInt64.ofNat n
    | _ => 0
  getArrayLength := knownLength
  getStringLength := knownLength
  advanceFixed := fun it =>
    match headOf it with
    | .error e => (some e, it)
    | .ok h => preparseNext it (it.rest.drop h.size)
  enterContainer := fun it =>
    match headOf it with
    | .error e => .error e
    | .ok h =>
        match h.arg with
        | none => checked (preparseItem none (it.rest.drop h.size))
        | some n =>
            if 2 ^ 32 - 1 ≤ n then .error .dataTooLarge
            else if n = 0 then .ok ⟨it.rest.drop h.size, none, true, some 0⟩
            else checked (preparseItem (some n) (it.rest.drop h.size))
  leaveContainer := fun it recursed => checked (preparseNext it recursed.rest)
  copyString := fun it size =>
    match readString it with
    | .error e => .error e
    | .ok (bytes, rest) =>
        match checked (preparseNext it rest) with
        | .error e => .error e
        | .ok next => if size < bytes.length then .error .outOfMemory else .ok (bytes, next)
  encodeUint := fun n => encodeHead .uint n.toNat
  encodeTextString := fun s => encodeHead .text s.length ++ s
  encodeByteString := fun s => encodeHead .bytes s.length ++ s
  createArray := encodeHead .array

/-- TinyCBOR does what its documentation says. -/
structure TinyCbor.Documented (T : TinyCbor) : Prop where
  /-- the first head is preparsed, as one item -/
  parserInit : T.parserInit = reference.parserInit
  /-- the argument of a head of any width -/
  getUint64 : T.getUint64 = reference.getUint64
  /-- the number of items, when it is known -/
  getArrayLength : T.getArrayLength = reference.getArrayLength
  /-- the number of bytes, when it is known -/
  getStringLength : T.getStringLength = reference.getStringLength
  /-- behind the head, at the next item -/
  advanceFixed : T.advanceFixed = reference.advanceFixed
  /-- at the first item of the container -/
  enterContainer : T.enterContainer = reference.enterContainer
  /-- behind the container, at the next item -/
  leaveContainer : T.leaveContainer = reference.leaveContainer
  /-- all bytes of the string, and the iterator at the next item -/
  copyString : T.copyString = reference.copyString
  /-- numbers are written in their shortest form -/
  encodeUint : T.encodeUint = reference.encodeUint
  /-- the length in its shortest form, and the text -/
  encodeTextString : T.encodeTextString = reference.encodeTextString
  /-- the length in its shortest form, and the bytes -/
  encodeByteString : T.encodeByteString = reference.encodeByteString
  /-- the number of items in its shortest form -/
  createArray : T.createArray = reference.createArray

theorem reference_documented : reference.Documented := by
  constructor <;> rfl

theorem TinyCbor.Documented.eq_reference {T : TinyCbor} (h : T.Documented) : T = reference := by
  obtain ⟨h₁, h₂, h₃, h₄, h₅, h₆, h₇, h₈, h₉, h₁₀, h₁₁, h₁₂⟩ := h
  cases T
  congr

/-! ## More bytes -/

/-- How a result may change with more bytes: only when the bytes were not enough, and otherwise
what it holds is extended. -/
def Grown {α : Type} (f : α → α) (r r' : Except CborError α) : Prop :=
  r = .error .unexpectedEof ∨ r' = r.map f

section

variable {α β : Type} {f : α → α} {g : β → β}

theorem Grown.error (e : CborError) : Grown f (.error e) (.error e) := .inr rfl

theorem Grown.ok (a : α) : Grown f (.ok a) (.ok (f a)) := .inr rfl

theorem Grown.eof (r : Except CborError α) : Grown f (.error .unexpectedEof) r := .inl rfl

theorem Grown.bind {r r' : Except CborError α} {k k' : α → Except CborError β}
    (hr : Grown f r r') (hk : ∀ a, Grown g (k a) (k' (f a))) : Grown g (r >>= k) (r' >>= k') := by
  rcases hr with rfl | rfl
  · exact .inl rfl
  · cases r with
    | error e => exact .inr rfl
    | ok a => exact hk a

theorem Grown.ite {c : Prop} [Decidable c] {r r' s s' : Except CborError α}
    (hr : c → Grown f r r') (hs : ¬ c → Grown f s s') :
    Grown f (if c then r else s) (if c then r' else s') := by
  split
  · next h => exact hr h
  · next h => exact hs h

end

variable {T : TinyCbor} (d : List UInt8)

theorem grown_headOf (it : CborValue) : Grown id (headOf it) (headOf (it.extend d)) := by
  by_cases h : readHead it.rest = .short
  · exact .inl (by simp [headOf, h])
  · refine .inr ?_
    simp only [headOf, CborValue.rest_extend, readHead_append h]
    cases readHead it.rest <;> rfl

theorem headOf_size {it : CborValue} {h : Head} (hh : headOf it = .ok h) :
    1 ≤ h.size ∧ h.size ≤ it.rest.length := by
  unfold headOf at hh
  split at hh
  · cases hh
  · cases hh
  · cases hh
  · next hr =>
    obtain rfl := Except.ok.inj hh
    exact readHead_size hr

theorem drop_extend {it : CborValue} {h : Head} (hh : headOf it = .ok h) :
    (it.extend d).rest.drop h.size = it.rest.drop h.size ++ d :=
  List.drop_append_of_le_length (headOf_size hh).2

theorem grown_preparseValue (remaining : Option Nat) (l : List UInt8) :
    Grown (·.extend d) (checked (preparseValue remaining l))
      (checked (preparseValue remaining (l ++ d))) := by
  by_cases h : readHead l = .short
  · exact .inl (by simp [checked, preparseValue, h])
  · refine .inr ?_
    simp only [checked, preparseValue, readHead_append h]
    cases readHead l <;> rfl

theorem grown_preparseItem (remaining : Option Nat) (l : List UInt8) :
    Grown (·.extend d) (checked (preparseItem remaining l))
      (checked (preparseItem remaining (l ++ d))) := by
  cases l with
  | nil =>
      refine .inl ?_
      simp [checked, preparseItem, preparseValue, readHead]
  | cons b l =>
      unfold preparseItem
      rw [show (b :: l ++ d).head? = (b :: l).head? from rfl]
      split
      · exact .inr rfl
      · exact grown_preparseValue d remaining (b :: l)

theorem grown_preparseNext (it : CborValue) (l : List UInt8) :
    Grown (·.extend d) (checked (preparseNext it l))
      (checked (preparseNext (it.extend d) (l ++ d))) := by
  rw [show preparseNext (it.extend d) (l ++ d) = preparseNext it (l ++ d) from rfl]
  unfold preparseNext
  cases it.remaining with
  | none => exact grown_preparseItem d none l
  | some n =>
      dsimp only
      by_cases htag : it.type = some .tag
      · rw [if_pos htag, if_pos htag]
        exact grown_preparseItem d _ l
      · rw [if_neg htag, if_neg htag]
        by_cases hn : n ≤ 1
        · rw [if_pos hn, if_pos hn]
          exact .inr rfl
        · rw [if_neg hn, if_neg hn]
          exact grown_preparseItem d _ l

theorem grown_knownLength (it : CborValue) :
    Grown id (knownLength it) (knownLength (it.extend d)) := by
  unfold knownLength
  rcases grown_headOf d it with h | h
  · exact .inl (by simp [h])
  · rw [h]
    cases headOf it with
    | error e => exact .error e
    | ok head =>
        refine .inr ?_
        simp only [Except.map, id]
        cases head.arg <;> rfl

/-! ## More bytes for the functions of TinyCBOR -/

theorem grown_parserInit (l : List UInt8) :
    Grown (·.extend d) (checked (reference.parserInit l))
      (checked (reference.parserInit (l ++ d))) :=
  grown_preparseValue d (some 1) l

theorem grown_advanceFixed (it : CborValue) :
    Grown (·.extend d) (checked (reference.advanceFixed it))
      (checked (reference.advanceFixed (it.extend d))) := by
  simp only [reference]
  rcases grown_headOf d it with h | h
  · exact .inl (by simp [h, checked])
  · rw [h]
    cases hhead : headOf it with
    | error e => exact .error e
    | ok head =>
        simp only [Except.map, id, drop_extend d hhead]
        exact grown_preparseNext d it _

theorem grown_enterContainer (it : CborValue) :
    Grown (·.extend d) (reference.enterContainer it)
      (reference.enterContainer (it.extend d)) := by
  simp only [reference]
  rcases grown_headOf d it with h | h
  · exact .inl (by simp [h])
  · rw [h]
    cases hhead : headOf it with
    | error e => exact .error e
    | ok head =>
        simp only [Except.map, id, drop_extend d hhead]
        cases head.arg with
        | none => exact grown_preparseItem d none _
        | some n =>
            apply Grown.ite
            · intro _
              exact .error _
            · intro _
              apply Grown.ite
              · intro _
                exact .inr rfl
              · intro _
                exact grown_preparseItem d (some n) _

theorem grown_leaveContainer (it recursed : CborValue) :
    Grown (·.extend d) (reference.leaveContainer it recursed)
      (reference.leaveContainer (it.extend d) (recursed.extend d)) :=
  grown_preparseNext d it recursed.rest

end Bundle7
