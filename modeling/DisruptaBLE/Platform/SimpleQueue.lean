import DisruptaBLE.Lib.RingWindow

/-!
# Message queues of the POSIX platform

`components/platform/posix/simple_queue.c` and the functions of `hal_queue.c` on it.  A queue is a
ring of items in a block of bytes, with two positions in it, and two semaphores that count the items
and the free places.  The positions are wrapped at the next use only, and each can stand at either
end of the ring.

`Fifo` is what a queue is for: a list of at most `n` items.  `BehavesAsFifo` says of all sequences of
calls that a queue is one.  One call runs at a time, no signal interrupts it, and `malloc` serves
what can be served.
-/

namespace SimpleQueue

open RingWindow

/-! ## The platform -/

/-- Where a run ends. -/
inductive Stop where
  /-- `exit(EXIT_FAILURE)` -/
  | exit
  /-- a call waits for another one -/
  | blocked
  /-- undefined behaviour: an overflow, an access outside of the block, a semaphore that was not
  initialised -/
  | undefined
  deriving DecidableEq, Repr

/-- A `sem_t`; `none` is one that was not initialised. -/
abbrev Semaphore := Option Nat

/-- `SEM_VALUE_MAX`, which is also the largest `int`. -/
def semValueMax : Nat := 2 ^ 31 - 1

/-- `sem_init`, which refuses values that are too large. -/
def semInit (value : UInt32) : Semaphore :=
  if value.toNat ≤ semValueMax then some value.toNat else none

/-- `sem_wait`. -/
def semWait : Semaphore → Except Stop Semaphore
  | none => .error .undefined
  | some 0 => .error .blocked
  | some (n + 1) => .ok (some n)

/-- `sem_trywait`; `none` is `-1`. -/
def semTryWait : Semaphore → Except Stop (Option Semaphore)
  | none => .error .undefined
  | some 0 => .ok none
  | some (n + 1) => .ok (some (some n))

/-- `sem_post`. -/
def semPost : Semaphore → Except Stop Semaphore
  | none => .error .undefined
  | some n => .ok (some (if n < semValueMax then n + 1 else n))

/-- `struct timespec`, as the clock shows it. -/
structure Timespec where
  tvSec : Nat
  tvNsec : Nat
  tvNsec_lt : tvNsec < 1000000000

/-- The end of a timeout, which is not negative: seconds and nanoseconds. -/
def deadline (ts : Timespec) (timeout : Nat) : Nat × Nat :=
  let tvSec := ts.tvSec + timeout / 1000
  let tvNsec := ts.tvNsec + timeout % 1000 * 1000000
  if 1000000000 ≤ tvNsec then (tvSec + 1, tvNsec % 1000000000) else (tvSec, tvNsec)

/-- `sem_timedwait` and what its callers do with an error; `none` is `ETIMEDOUT`.  The time is
looked at only if the call has to wait. -/
def semTimedWait (ts : Nat × Nat) : Semaphore → Except Stop (Option Semaphore)
  | none => .error .undefined
  | some 0 => if ts.2 < 1000000000 then .ok none else .error .exit
  | some (n + 1) => .ok (some (some n))

/-! ## Queues -/

/-- `Queue_t`.  Positions are relative to `abs_start`; without memory `abs_start` is `NULL`. -/
structure Queue where
  itemLength : Int
  itemSize : Int
  semaphore : Semaphore
  semPop : Semaphore
  semPush : Semaphore
  memory : Option (List UInt8)
  absEnd : Int
  currentStart : Int
  currentEnd : Int

/-- `increment`. -/
def increment (current absStart absEnd itemSize : Int) : Int :=
  let val := current + itemSize
  if absEnd < val then absStart else val

/-- `decrement`. -/
def decrement (current absStart absEnd itemSize : Int) : Int :=
  let val := current - itemSize
  if val < absStart then absEnd - itemSize else val

/-- `memcpy` into the block. -/
def copyIn (memory : Option (List UInt8)) (pos : Int) (item : List UInt8) (size : Int) :
    Except Stop (Option (List UInt8)) :=
  match memory with
  | none => .error .undefined
  | some bytes =>
      if 0 ≤ pos ∧ 0 ≤ size ∧ pos + size ≤ bytes.length ∧ size ≤ item.length then
        .ok (some (write bytes pos.toNat (item.take size.toNat)))
      else .error .undefined

/-- `memcpy` out of the block. -/
def copyOut (memory : Option (List UInt8)) (pos size : Int) : Except Stop (List UInt8) :=
  match memory with
  | none => .error .undefined
  | some bytes =>
      if 0 ≤ pos ∧ 0 ≤ size ∧ pos + size ≤ bytes.length then
        .ok ((bytes.drop pos.toNat).take size.toNat)
      else .error .undefined

/-- `queueCreate`.  The two numbers become `int`s, and a product that is none is an overflow.
What is in the block does not matter; there is none of a negative size. -/
def queueCreate (queueLength itemSize : UInt32) : Except Stop Queue :=
  if queueLength = 0 ∨ itemSize = 0 then .error .exit
  else
    let length := queueLength.toInt32.toInt
    let size := itemSize.toInt32.toInt
    if length * size < -2 ^ 31 ∨ 2 ^ 31 ≤ length * size then .error .undefined
    else
      .ok { itemLength := length
            itemSize := size
            semaphore := semInit 1
            semPop := semInit 0
            semPush := semInit queueLength
            memory :=
              if length * size < 0 then none else some (List.replicate (length * size).toNat 0)
            absEnd := length * size
            currentStart := 0
            currentEnd := 0 }

/-- `queueReset`. -/
def queueReset (q : Queue) : Except Stop Queue := do
  let semaphore ← semWait q.semaphore
  let semaphore ← semPost semaphore
  return { q with
    semaphore := semaphore
    currentStart := 0
    currentEnd := 0
    semPop := semInit 0
    semPush := semInit (UInt32.ofInt q.itemLength) }

/-- `queueItemsWaiting`. -/
def queueItemsWaiting (q : Queue) : Except Stop UInt32 :=
  match q.semPop with
  | none => .error .undefined
  | some value => .ok (UInt32.ofNat value)

/-- `queuePop`, once it has an item. -/
def popItem (q : Queue) : Except Stop (Queue × List UInt8) := do
  let semaphore ← semWait q.semaphore
  let currentStart := if q.absEnd ≤ q.currentStart then 0 else q.currentStart
  let item ← copyOut q.memory currentStart q.itemSize
  let semPush ← semPost q.semPush
  let semaphore ← semPost semaphore
  return ({ q with
    semaphore := semaphore
    semPush := semPush
    currentStart := increment currentStart 0 q.absEnd q.itemSize }, item)

/-- `queuePop`; `none` is `EXIT_FAILURE`. -/
def queuePop (q : Queue) (timeout : Int) (now : Timespec) :
    Except Stop (Queue × Option (List UInt8)) := do
  if 0 ≤ timeout then
    match ← semTimedWait (deadline now timeout.toNat) q.semPop with
    | none => return (q, none)
    | some semPop =>
        let (q, item) ← popItem { q with semPop := semPop }
        return (q, some item)
  else
    let semPop ← semWait q.semPop
    let (q, item) ← popItem { q with semPop := semPop }
    return (q, some item)

/-- `queuePush`, once it has a free place. -/
def pushItem (q : Queue) (item : List UInt8) : Except Stop Queue := do
  let semaphore ← semWait q.semaphore
  let currentEnd := if q.absEnd ≤ q.currentEnd then 0 else q.currentEnd
  let memory ← copyIn q.memory currentEnd item q.itemSize
  let semPop ← semPost q.semPop
  let semaphore ← semPost semaphore
  return { q with
    semaphore := semaphore
    memory := memory
    semPop := semPop
    currentEnd := increment currentEnd 0 q.absEnd q.itemSize }

/-- `queuePush` with `force`, when the queue is full. -/
def replaceItem (q : Queue) (item : List UInt8) : Except Stop Queue := do
  let semaphore ← semWait q.semaphore
  let memory ← copyIn q.memory (decrement q.currentEnd 0 q.absEnd q.itemSize) item q.itemSize
  let semaphore ← semPost semaphore
  return { q with semaphore := semaphore, memory := memory }

/-- `queuePush` behind its first condition, which takes a free place if it is forced. -/
def pushWaiting (q : Queue) (item : List UInt8) (timeout : Int) (force : Bool) (now : Timespec) :
    Except Stop (Queue × Bool) := do
  if 0 ≤ timeout then
    match ← semTimedWait (deadline now timeout.toNat) q.semPush with
    | none => return (q, false)
    | some semPush => return (← pushItem { q with semPush := semPush } item, true)
  else if force then
    return (← pushItem q item, true)
  else
    let semPush ← semWait q.semPush
    return (← pushItem { q with semPush := semPush } item, true)

/-- `queuePush`; `false` is `EXIT_FAILURE`. -/
def queuePush (q : Queue) (item : List UInt8) (timeout : Int) (force : Bool) (now : Timespec) :
    Except Stop (Queue × Bool) := do
  if force then
    match ← semTryWait q.semPush with
    | none => return (← replaceItem q item, true)
    | some semPush => pushWaiting { q with semPush := semPush } item timeout force now
  else pushWaiting q item timeout force now

/-! ## The functions of `hal_queue.c` -/

/-- `enum ud3tn_result`. -/
inductive Ud3tnResult where
  | ok
  | fail
  deriving DecidableEq, Repr

/-- An item of the size of the queue. -/
abbrev Item (size : Nat) := { bytes : List UInt8 // bytes.length = size }

/-- A call.  Those with a timeout read the clock. -/
inductive Call (size : Nat) where
  | pushToBack (item : Item size)
  | tryPushToBack (item : Item size) (timeout : Int) (now : Timespec)
  | overrideToBack (item : Item size)
  | receive (timeout : Int) (now : Timespec)
  | reset

/-- What a call gives back: nothing, a result, or a result and what it copied. -/
inductive Answer where
  | done
  | result (r : Ud3tnResult)
  | received (r : Ud3tnResult) (buffer : Option (List UInt8))
  deriving DecidableEq, Repr

/-- `hal_queue_push_to_back`; the clock is not read. -/
def halQueuePushToBack (q : Queue) (item : List UInt8) (now : Timespec) : Except Stop Queue := do
  let (q, _) ← queuePush q item (-1) false now
  return q

/-- `hal_queue_try_push_to_back`. -/
def halQueueTryPushToBack (q : Queue) (item : List UInt8) (timeout : Int) (now : Timespec) :
    Except Stop (Queue × Ud3tnResult) := do
  let (q, success) ← queuePush q item timeout false now
  return (q, if success then .ok else .fail)

/-- `hal_queue_override_to_back`; the clock is not read. -/
def halQueueOverrideToBack (q : Queue) (item : List UInt8) (now : Timespec) :
    Except Stop (Queue × Ud3tnResult) := do
  let (q, success) ← queuePush q item (-1) true now
  return (q, if success then .ok else .fail)

/-- `hal_queue_receive`. -/
def halQueueReceive (q : Queue) (timeout : Int) (now : Timespec) :
    Except Stop (Queue × Ud3tnResult × Option (List UInt8)) := do
  let (q, item) ← queuePop q timeout now
  return (q, if item.isSome then .ok else .fail, item)

/-- The clock where its time is not used. -/
def anyTime : Timespec := ⟨0, 0, by decide⟩

/-- One call. -/
def Queue.call {size : Nat} (q : Queue) : Call size → Except Stop (Queue × Answer)
  | .pushToBack item => do
      let q ← halQueuePushToBack q item.1 anyTime
      return (q, .done)
  | .tryPushToBack item timeout now => do
      let (q, r) ← halQueueTryPushToBack q item.1 timeout now
      return (q, .result r)
  | .overrideToBack item => do
      let (q, r) ← halQueueOverrideToBack q item.1 anyTime
      return (q, .result r)
  | .receive timeout now => do
      let (q, r, buffer) ← halQueueReceive q timeout now
      return (q, .received r buffer)
  | .reset => do
      let q ← queueReset q
      return (q, .done)

/-- Calls one after the other. -/
def Queue.calls {size : Nat} (q : Queue) : List (Call size) → Except Stop (Queue × List Answer)
  | [] => .ok (q, [])
  | c :: cs => do
      let (q, answer) ← q.call c
      let (q, answers) ← q.calls cs
      return (q, answer :: answers)

/-! ## Purpose -/

namespace Fifo

variable {size : Nat}

/-- One call of a list of at most `n` items; `none` if it waits. -/
def call (n : Nat) (items : List (Item size)) : Call size → Option (List (Item size) × Answer)
  | .pushToBack item => if items.length < n then some (items ++ [item], .done) else none
  | .tryPushToBack item timeout _ =>
      if items.length < n then some (items ++ [item], .result .ok)
      else if 0 ≤ timeout then some (items, .result .fail)
      else none
  | .overrideToBack item =>
      if items.length < n then some (items ++ [item], .result .ok)
      else some (items.dropLast ++ [item], .result .ok)
  | .receive timeout _ =>
      match items with
      | item :: rest => some (rest, .received .ok (some item.1))
      | [] => if 0 ≤ timeout then some ([], .received .fail none) else none
  | .reset => some ([], .done)

/-- Calls one after the other. -/
def calls (n : Nat) (items : List (Item size)) :
    List (Call size) → Option (List (Item size) × List Answer)
  | [] => some (items, [])
  | c :: cs =>
      match call n items c with
      | none => none
      | some (items, answer) => (calls n items cs).map fun r => (r.1, answer :: r.2)

end Fifo

/-- A queue is refused, or it answers all calls as a list does, waits when it does, and counts its
items and its free places. -/
def BehavesAsFifo (queueLength itemSize : UInt32) : Prop :=
  queueCreate queueLength itemSize = .error .exit ∨
    ∃ q, queueCreate queueLength itemSize = .ok q ∧
      ∀ cs : List (Call itemSize.toNat),
        match Fifo.calls queueLength.toNat [] cs with
        | none => q.calls cs = .error .blocked
        | some (items, answers) =>
            ∃ q' pop push, q.calls cs = .ok (q', answers) ∧
              queueItemsWaiting q' = .ok (UInt32.ofNat items.length) ∧
              q'.semPop = some pop ∧ q'.semPush = some push ∧ push + pop = queueLength.toNat

end SimpleQueue
