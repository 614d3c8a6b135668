import DisruptaBLE.Lib.Heap
import DisruptaBLE.Platform.SimpleQueue

/-!
# Message queues are bounded lists

`Holds` connects a queue with the list of its items: they lie in a window of the ring, and the
semaphores count them and the free places.  Each call keeps it and answers as the list does
(`Holds.call`), so all calls do (`Holds.calls`).  The size of the block decides whether a queue
comes to be one.
-/

namespace SimpleQueue

open PtrHeap (ok_bind bind_eq_ok)
open RingWindow

/-! ## Positions -/

section Positions

variable {n size : Nat}

/-- The position before its use. -/
theorem wrapped_eq (hsize : 0 < size) {i : Nat} (hi : i ≤ n) :
    (if ((n * size : Nat) : Int) ≤ (i * size : Nat) then 0 else ((i * size : Nat) : Int)) =
      (i % n * size : Nat) := by
  have hcond : ((n * size : Nat) : Int) ≤ (i * size : Nat) ↔ n ≤ i := by
    rw [Int.ofNat_le, Nat.mul_le_mul_right_iff hsize]
  by_cases hend : n ≤ i
  · have heq : i = n := by omega
    rw [if_pos (hcond.mpr hend), heq, Nat.mod_self, Nat.zero_mul, Int.natCast_zero]
  · rw [if_neg (fun h => hend (hcond.mp h)), Nat.mod_eq_of_lt (by omega)]

theorem increment_eq {i : Nat} (hi : i < n) :
    increment (i * size : Nat) 0 (n * size : Nat) size = ((i + 1) * size : Nat) := by
  have hle : (i + 1) * size ≤ n * size := Nat.mul_le_mul_right _ hi
  rw [Nat.succ_mul] at hle ⊢
  simp only [increment]
  rw [if_neg (by omega)]
  omega

/-- The cell before a position, from both ends of the ring. -/
theorem decrement_eq (hsize : 0 < size) {i : Nat} (hi : i ≤ n) (hn : 0 < n) :
    decrement (i * size : Nat) 0 (n * size : Nat) size = ((i + (n - 1)) % n * size : Nat) := by
  simp only [decrement]
  cases i with
  | zero =>
      have hlast : n * size = (n - 1) * size + size := by
        rw [← Nat.succ_mul]
        congr 1
        omega
      rw [Nat.zero_mul, Nat.zero_add, Nat.mod_eq_of_lt (by omega), if_pos (by omega)]
      omega
  | succ i =>
      have hcell : (i + 1 + (n - 1)) % n = i := by
        rw [show i + 1 + (n - 1) = i + n by omega, Nat.add_mod_right, Nat.mod_eq_of_lt (by omega)]
      rw [hcell, Nat.succ_mul, if_neg (by omega)]
      omega

theorem cell_le {i : Nat} (hi : i < n) : i * size + size ≤ n * size := by
  rw [← Nat.succ_mul]
  exact Nat.mul_le_mul_right _ hi

theorem copyIn_cell {bytes item : List UInt8} (hbytes : bytes.length = n * size)
    (hitem : item.length = size) {i : Nat} (hi : i < n) :
    copyIn (some bytes) (i * size : Nat) item size = .ok (some (write bytes (i * size) item)) := by
  have hle : i * size + size ≤ n * size := cell_le hi
  rw [copyIn, if_pos ⟨by omega, by omega, by omega, by omega⟩, Int.toNat_natCast, Int.toNat_natCast,
    List.take_of_length_le (by omega)]

theorem copyOut_cell {bytes : List UInt8} (hbytes : bytes.length = n * size) {i : Nat}
    (hi : i < n) : copyOut (some bytes) (i * size : Nat) size = .ok (cell size bytes i) := by
  have hle : i * size + size ≤ n * size := cell_le hi
  rw [copyOut, if_pos ⟨by omega, by omega, by omega⟩, Int.toNat_natCast, Int.toNat_natCast]
  rfl

end Positions

/-! ## What a queue holds -/

/-- The items are in the block, from cell `first` up to cell `last`. -/
structure Stored (n size : Nat) (q : Queue) (items : List (Item size)) (bytes : List UInt8)
    (first last : Nat) : Prop where
  itemLength : q.itemLength = n
  itemSize : q.itemSize = size
  absEnd : q.absEnd = (n * size : Nat)
  semaphore : q.semaphore = some 1
  memory : q.memory = some bytes
  length_bytes : bytes.length = n * size
  currentStart : q.currentStart = (first * size : Nat)
  currentEnd : q.currentEnd = (last * size : Nat)
  first_le : first ≤ n
  last_le : last ≤ n
  last_mod : last % n = (first + items.length) % n
  length_le : items.length ≤ n
  window : Window n (cell size bytes) first (items.map Subtype.val)

/-- The queue holds the items, and its semaphores count them and the places that are free. -/
def Holds (n size : Nat) (q : Queue) (items : List (Item size)) : Prop :=
  (∃ bytes first last, Stored n size q items bytes first last) ∧
    q.semPop = some items.length ∧ q.semPush = some (n - items.length)

section Parts

variable {n size : Nat} {q : Queue} {items : List (Item size)} {bytes : List UInt8}
  {first last : Nat}

theorem popItem_spec (hsize : 0 < size) {item : Item size} {push : Nat}
    (h : Stored n size q (item :: items) bytes first last) (hpush : q.semPush = some push)
    (hmax : push < semValueMax) :
    ∃ q', popItem q = .ok (q', item.1) ∧ Stored n size q' items bytes (first % n + 1) last ∧
      q'.semPop = q.semPop ∧ q'.semPush = some (push + 1) := by
  have hlen := h.length_le
  have hlast := h.last_mod
  rw [List.length_cons] at hlen hlast
  have hn : 0 < n := by omega
  have hfirst : first % n < n := Nat.mod_lt _ hn
  have hitem : cell size bytes (first % n) = item.1 := h.window.head
  refine ⟨{ q with
    semaphore := some 1
    semPush := some (push + 1)
    currentStart := ((first % n + 1) * size : Nat) }, ?_, ?_, rfl, rfl⟩
  · rw [popItem, h.semaphore, h.absEnd, h.currentStart, wrapped_eq hsize h.first_le, h.memory,
      h.itemSize]
    dsimp only
    rw [copyOut_cell h.length_bytes hfirst, hitem, hpush, increment_eq hfirst]
    simp only [semWait, semPost, hmax, if_true]
    rfl
  · exact
      { itemLength := h.itemLength
        itemSize := h.itemSize
        absEnd := h.absEnd
        semaphore := rfl
        memory := h.memory
        length_bytes := h.length_bytes
        currentStart := rfl
        currentEnd := h.currentEnd
        first_le := hfirst
        last_le := h.last_le
        last_mod := by
          rw [hlast, Nat.add_assoc, Nat.mod_add_mod, Nat.add_comm 1]
        length_le := by omega
        window := h.window.tail.congr (by rw [Nat.mod_add_mod]) }

theorem pushItem_spec (hsize : 0 < size) (item : Item size) {pop : Nat}
    (h : Stored n size q items bytes first last) (hfree : items.length < n)
    (hpop : q.semPop = some pop) (hmax : pop < semValueMax) :
    ∃ q' bytes', pushItem q item.1 = .ok q' ∧
      Stored n size q' (items ++ [item]) bytes' first (last % n + 1) ∧
      q'.semPop = some (pop + 1) ∧ q'.semPush = q.semPush := by
  have hn : 0 < n := by omega
  have hlast : last % n < n := Nat.mod_lt _ hn
  have hcell : last % n * size + size ≤ bytes.length := by
    rw [h.length_bytes]
    exact cell_le hlast
  refine ⟨{ q with
    semaphore := some 1
    memory := some (write bytes (last % n * size) item.1)
    semPop := some (pop + 1)
    currentEnd := ((last % n + 1) * size : Nat) },
    write bytes (last % n * size) item.1, ?_, ?_, rfl, rfl⟩
  · rw [pushItem, h.semaphore, h.absEnd, h.currentEnd, wrapped_eq hsize h.last_le, h.memory,
      h.itemSize]
    dsimp only
    rw [copyIn_cell h.length_bytes item.2 hlast, hpop, increment_eq hlast]
    simp only [semWait, semPost, hmax, if_true]
    rfl
  · exact
      { itemLength := h.itemLength
        itemSize := h.itemSize
        absEnd := h.absEnd
        semaphore := rfl
        memory := rfl
        length_bytes := by rw [length_write (by rw [item.2]; exact hcell), h.length_bytes]
        currentStart := h.currentStart
        currentEnd := rfl
        first_le := h.first_le
        last_le := hlast
        last_mod := by
          rw [List.length_append, List.length_singleton, ← Nat.add_assoc, Nat.mod_add_mod,
            Nat.add_mod, h.last_mod, ← Nat.add_mod]
        length_le := by
          rw [List.length_append, List.length_singleton]
          exact hfree
        window := by
          rw [List.map_append, List.map_singleton]
          refine h.window.append ?_ ?_ ?_
          · rw [List.length_map]
            exact hfree
          · rw [List.length_map, ← h.last_mod]
            exact cell_write_same item.2 (by omega)
          · rw [List.length_map, ← h.last_mod]
            intro j _ hne
            exact cell_write_of_ne item.2 hcell hne }

theorem replaceItem_spec (hsize : 0 < size) (item : Item size)
    (h : Stored n size q items bytes first last) (hne : items ≠ []) :
    ∃ q' bytes', replaceItem q item.1 = .ok q' ∧
      Stored n size q' (items.dropLast ++ [item]) bytes' first last ∧
      q'.semPop = q.semPop ∧ q'.semPush = q.semPush := by
  have hlen := h.length_le
  have hpos : 0 < items.length := List.length_pos_iff.mpr hne
  have hn : 0 < n := by omega
  have hmod : (last + (n - 1)) % n = (first + (items.length - 1)) % n := by
    rw [Nat.add_mod, h.last_mod, ← Nat.add_mod,
      show first + items.length + (n - 1) = first + (items.length - 1) + n by omega,
      Nat.add_mod_right]
  have hcell : (last + (n - 1)) % n * size + size ≤ bytes.length := by
    rw [h.length_bytes]
    exact cell_le (Nat.mod_lt _ hn)
  refine ⟨{ q with
    semaphore := some 1
    memory := some (write bytes ((last + (n - 1)) % n * size) item.1) },
    write bytes ((last + (n - 1)) % n * size) item.1, ?_, ?_, rfl, rfl⟩
  · rw [replaceItem, h.semaphore, h.absEnd, h.currentEnd, h.itemSize,
      decrement_eq hsize h.last_le hn, h.memory,
      copyIn_cell h.length_bytes item.2 (Nat.mod_lt _ hn)]
    rfl
  · have hlength : (items.dropLast ++ [item]).length = items.length := by
      rw [List.length_append, List.length_dropLast, List.length_singleton]
      omega
    exact
      { itemLength := h.itemLength
        itemSize := h.itemSize
        absEnd := h.absEnd
        semaphore := rfl
        memory := rfl
        length_bytes := by rw [length_write (by rw [item.2]; exact hcell), h.length_bytes]
        currentStart := h.currentStart
        currentEnd := h.currentEnd
        first_le := h.first_le
        last_le := h.last_le
        last_mod := by rw [hlength, h.last_mod]
        length_le := by rw [hlength]; exact hlen
        window := by
          rw [List.map_append, List.map_singleton, List.map_dropLast]
          refine h.window.dropLast.append ?_ ?_ ?_
          · rw [List.length_dropLast, List.length_map]
            omega
          · rw [List.length_dropLast, List.length_map, ← hmod]
            exact cell_write_same item.2 (by omega)
          · rw [List.length_dropLast, List.length_map, ← hmod]
            intro j _ hother
            exact cell_write_of_ne item.2 hcell hother }

end Parts

/-! ## One call -/

/-- The end of a timeout is a time, so that no wait fails for another reason than the time. -/
theorem deadline_lt (ts : Timespec) (timeout : Nat) : (deadline ts timeout).2 < 1000000000 := by
  simp only [deadline]
  split
  · exact Nat.mod_lt _ (by decide)
  · omega

section Calls

variable {n size : Nat} {q : Queue} {items : List (Item size)}

theorem Holds.length_le (h : Holds n size q items) : items.length ≤ n := by
  obtain ⟨⟨_, _, _, hstored⟩, _, _⟩ := h
  exact hstored.length_le

/-- A free place is taken, and the item put there. -/
theorem Holds.pushItem (h : Holds n size q items) (hsize : 0 < size) (hmax : n ≤ semValueMax)
    (hfree : items.length < n) (item : Item size) :
    ∃ q', pushItem { q with semPush := some (n - items.length - 1) } item.1 = .ok q' ∧
      Holds n size q' (items ++ [item]) := by
  obtain ⟨⟨bytes, first, last, hstored⟩, hpop, _⟩ := h
  have htaken : Stored n size { q with semPush := some (n - items.length - 1) } items bytes first
      last := { hstored with }
  obtain ⟨q', bytes', hq', hstored', hpop', hpush'⟩ :=
    pushItem_spec hsize item htaken hfree hpop (by omega)
  refine ⟨q', hq', ⟨bytes', first, _, hstored'⟩, ?_, ?_⟩
  · rw [hpop', List.length_append, List.length_singleton]
  · rw [hpush', List.length_append, List.length_singleton, Nat.sub_sub]

/-- The first item is taken out. -/
theorem Holds.popItem {item : Item size} (h : Holds n size q (item :: items)) (hsize : 0 < size)
    (hmax : n ≤ semValueMax) :
    ∃ q', popItem { q with semPop := some items.length } = .ok (q', item.1) ∧
      Holds n size q' items := by
  have hlen := h.length_le
  rw [List.length_cons] at hlen
  obtain ⟨⟨bytes, first, last, hstored⟩, _, hpush⟩ := h
  rw [List.length_cons] at hpush
  have htaken : Stored n size { q with semPop := some items.length } (item :: items) bytes first
      last := { hstored with }
  obtain ⟨q', hq', hstored', hpop', hpush'⟩ :=
    popItem_spec hsize htaken hpush (by omega)
  refine ⟨q', hq', ⟨bytes, _, last, hstored'⟩, hpop', ?_⟩
  rw [hpush']
  congr 1
  omega

theorem Holds.replaceItem (h : Holds n size q items) (hsize : 0 < size) (hne : items ≠ [])
    (item : Item size) :
    ∃ q', replaceItem q item.1 = .ok q' ∧ Holds n size q' (items.dropLast ++ [item]) := by
  obtain ⟨⟨bytes, first, last, hstored⟩, hpop, hpush⟩ := h
  obtain ⟨q', bytes', hq', hstored', hpop', hpush'⟩ :=
    replaceItem_spec hsize item hstored hne
  have hlength : (items.dropLast ++ [item]).length = items.length := by
    have hpos := List.length_pos_iff.mpr hne
    rw [List.length_append, List.length_dropLast, List.length_singleton]
    omega
  refine ⟨q', hq', ⟨bytes', first, last, hstored'⟩, ?_, ?_⟩
  · rw [hpop', hpop, hlength]
  · rw [hpush', hpush, hlength]

/-- With a free place every push appends. -/
theorem Holds.queuePush_free (h : Holds n size q items) (hsize : 0 < size) (hmax : n ≤ semValueMax)
    (hfree : items.length < n) (item : Item size) (timeout : Int) (force : Bool) (now : Timespec)
    (hforce : force = true → timeout < 0) :
    ∃ q', queuePush q item.1 timeout force now = .ok (q', true) ∧
      Holds n size q' (items ++ [item]) := by
  obtain ⟨q', hq', hholds⟩ := h.pushItem hsize hmax hfree item
  obtain ⟨free, hcount⟩ : ∃ free, n - items.length = free + 1 := ⟨n - items.length - 1, by omega⟩
  have hpush := h.2.2
  rw [hcount] at hpush
  rw [hcount, Nat.add_sub_cancel] at hq'
  refine ⟨q', ?_, hholds⟩
  cases force with
  | true =>
      rw [queuePush, hpush]
      simp only [semTryWait, pushWaiting, if_true, if_neg (Int.not_le.mpr (hforce rfl)), ok_bind,
        hq']
      rfl
  | false =>
      rw [queuePush, pushWaiting, hpush]
      simp only [Bool.false_eq_true, if_false, semTimedWait, semWait, ok_bind, hq']
      rw [ite_self]
      rfl

/-- Without a free place a push fails after its timeout, or waits. -/
theorem Holds.queuePush_full (h : Holds n size q items) (hfull : items.length = n)
    (item : List UInt8) (timeout : Int) (now : Timespec) :
    queuePush q item timeout false now =
      if 0 ≤ timeout then .ok (q, false) else .error .blocked := by
  have hpush := h.2.2
  rw [hfull, Nat.sub_self] at hpush
  rw [queuePush, pushWaiting, hpush]
  simp only [Bool.false_eq_true, if_false, semTimedWait, semWait, if_pos (deadline_lt _ _), ok_bind]
  rfl

/-- Without a free place the newest item is replaced, if the push is forced. -/
theorem Holds.queuePush_replace (h : Holds n size q items) (hsize : 0 < size) (hn : 0 < n)
    (hfull : items.length = n) (item : Item size) (timeout : Int) (now : Timespec) :
    ∃ q', queuePush q item.1 timeout true now = .ok (q', true) ∧
      Holds n size q' (items.dropLast ++ [item]) := by
  have hne : items ≠ [] := List.length_pos_iff.mp (by omega)
  obtain ⟨q', hq', hholds⟩ := h.replaceItem hsize hne item
  have hpush := h.2.2
  rw [hfull, Nat.sub_self] at hpush
  refine ⟨q', ?_, hholds⟩
  rw [queuePush, hpush]
  simp only [if_true, semTryWait, ok_bind, hq']
  rfl

/-- An item is taken out with every timeout. -/
theorem Holds.queuePop_cons {item : Item size} (h : Holds n size q (item :: items))
    (hsize : 0 < size) (hmax : n ≤ semValueMax) (timeout : Int) (now : Timespec) :
    ∃ q', queuePop q timeout now = .ok (q', some item.1) ∧ Holds n size q' items := by
  obtain ⟨q', hq', hholds⟩ := h.popItem hsize hmax
  have hpop := h.2.1
  rw [List.length_cons] at hpop
  refine ⟨q', ?_, hholds⟩
  rw [queuePop, hpop]
  simp only [semTimedWait, semWait, ok_bind, hq']
  rw [ite_self]
  rfl

theorem Holds.queuePop_nil (h : Holds n size q []) (timeout : Int) (now : Timespec) :
    queuePop q timeout now = if 0 ≤ timeout then .ok (q, none) else .error .blocked := by
  have hpop := h.2.1
  rw [List.length_nil] at hpop
  rw [queuePop, hpop]
  simp only [semTimedWait, semWait, if_pos (deadline_lt _ _), ok_bind]
  rfl

theorem Holds.queueReset (h : Holds n size q items) (hmax : n ≤ semValueMax) :
    ∃ q', queueReset q = .ok q' ∧ Holds n size q' [] := by
  obtain ⟨⟨bytes, first, last, hstored⟩, _, _⟩ := h
  have hpush : semInit (UInt32.ofInt q.itemLength) = some n := by
    have hlength : (UInt32.ofInt q.itemLength).toNat = n := by
      rw [semValueMax] at hmax
      rw [hstored.itemLength, UInt32.ofInt, UInt32.toNat_ofNat']
      omega
    rw [semInit, hlength, if_pos hmax]
  refine ⟨{ q with
    semaphore := some 1
    currentStart := 0
    currentEnd := 0
    semPop := some 0
    semPush := some n }, ?_, ⟨bytes, 0, 0, ?_⟩, rfl, rfl⟩
  · rw [SimpleQueue.queueReset, hstored.semaphore, hpush]
    rfl
  · exact
      { itemLength := hstored.itemLength
        itemSize := hstored.itemSize
        absEnd := hstored.absEnd
        semaphore := rfl
        memory := hstored.memory
        length_bytes := hstored.length_bytes
        currentStart := by simp
        currentEnd := by simp
        first_le := Nat.zero_le _
        last_le := Nat.zero_le _
        last_mod := rfl
        length_le := Nat.zero_le _
        window := Window.nil }

/-- **One call.**  A queue answers as a list of at most `n` items does, and waits when it does. -/
theorem Holds.call (h : Holds n size q items) (hsize : 0 < size) (hn : 0 < n)
    (hmax : n ≤ semValueMax) (c : Call size) :
    match Fifo.call n items c with
    | none => q.call c = .error .blocked
    | some (items', answer) => ∃ q', q.call c = .ok (q', answer) ∧ Holds n size q' items' := by
  have hlen := h.length_le
  cases c with
  | pushToBack item =>
      by_cases hfree : items.length < n
      · obtain ⟨q', hq', hholds⟩ :=
          h.queuePush_free hsize hmax hfree item (-1) false anyTime (by simp)
        rw [Fifo.call, if_pos hfree]
        exact ⟨q', by rw [Queue.call, halQueuePushToBack, hq']; rfl, hholds⟩
      · have hq' := h.queuePush_full (by omega) item.1 (-1) anyTime
        rw [Fifo.call, if_neg hfree]
        change q.call (.pushToBack item) = .error .blocked
        rw [Queue.call, halQueuePushToBack, hq']
        rfl
  | tryPushToBack item timeout now =>
      by_cases hfree : items.length < n
      · obtain ⟨q', hq', hholds⟩ :=
          h.queuePush_free hsize hmax hfree item timeout false now (by simp)
        rw [Fifo.call, if_pos hfree]
        exact ⟨q', by rw [Queue.call, halQueueTryPushToBack, hq']; rfl, hholds⟩
      · have hq' := h.queuePush_full (by omega) item.1 timeout now
        rw [Fifo.call, if_neg hfree]
        by_cases htime : 0 ≤ timeout
        · rw [if_pos htime] at hq' ⊢
          exact ⟨q, by rw [Queue.call, halQueueTryPushToBack, hq']; rfl, h⟩
        · rw [if_neg htime] at hq' ⊢
          change q.call (.tryPushToBack item timeout now) = .error .blocked
          rw [Queue.call, halQueueTryPushToBack, hq']
          rfl
  | overrideToBack item =>
      by_cases hfree : items.length < n
      · obtain ⟨q', hq', hholds⟩ :=
          h.queuePush_free hsize hmax hfree item (-1) true anyTime (by simp)
        rw [Fifo.call, if_pos hfree]
        exact ⟨q', by rw [Queue.call, halQueueOverrideToBack, hq']; rfl, hholds⟩
      · obtain ⟨q', hq', hholds⟩ :=
          h.queuePush_replace hsize hn (by omega) item (-1) anyTime
        rw [Fifo.call, if_neg hfree]
        exact ⟨q', by rw [Queue.call, halQueueOverrideToBack, hq']; rfl, hholds⟩
  | receive timeout now =>
      cases items with
      | cons item rest =>
          obtain ⟨q', hq', hholds⟩ := h.queuePop_cons hsize hmax timeout now
          exact ⟨q', by rw [Queue.call, halQueueReceive, hq']; rfl, hholds⟩
      | nil =>
          have hq' := h.queuePop_nil timeout now
          rw [Fifo.call]
          by_cases htime : 0 ≤ timeout
          · rw [if_pos htime] at hq' ⊢
            exact ⟨q, by rw [Queue.call, halQueueReceive, hq']; rfl, h⟩
          · rw [if_neg htime] at hq' ⊢
            change q.call (.receive timeout now) = .error .blocked
            rw [Queue.call, halQueueReceive, hq']
            rfl
  | reset =>
      obtain ⟨q', hq', hholds⟩ := h.queueReset hmax
      exact ⟨q', by rw [Queue.call, hq']; rfl, hholds⟩

/-- **All calls.** -/
theorem Holds.calls (hsize : 0 < size) (hn : 0 < n) (hmax : n ≤ semValueMax) :
    ∀ (cs : List (Call size)) {q : Queue} {items : List (Item size)}, Holds n size q items →
      match Fifo.calls n items cs with
      | none => q.calls cs = .error .blocked
      | some (items', answers) =>
          ∃ q', q.calls cs = .ok (q', answers) ∧ Holds n size q' items' := by
  intro cs
  induction cs with
  | nil => exact fun h => ⟨_, rfl, h⟩
  | cons c cs ih =>
      intro q items h
      have hcall := h.call hsize hn hmax c
      rw [Fifo.calls]
      cases hstep : Fifo.call n items c with
      | none =>
          rw [hstep] at hcall
          change q.calls (c :: cs) = .error .blocked
          rw [Queue.calls, hcall]
          rfl
      | some r =>
          obtain ⟨items', answer⟩ := r
          rw [hstep] at hcall
          obtain ⟨q', hq', hholds⟩ := hcall
          have hrest := ih hholds
          dsimp only
          cases hall : Fifo.calls n items' cs with
          | none =>
              rw [hall] at hrest
              change q.calls (c :: cs) = .error .blocked
              rw [Queue.calls, hq', ok_bind]
              dsimp only
              rw [hrest]
              rfl
          | some r =>
              rw [hall] at hrest
              obtain ⟨q'', hq'', hholds'⟩ := hrest
              refine ⟨q'', ?_, hholds'⟩
              rw [Queue.calls, hq', ok_bind]
              dsimp only
              rw [hq'']
              rfl

end Calls

/-! ## All queues -/

/-- The number as an `int`. -/
theorem toInt_toInt32 (x : UInt32) :
    x.toInt32.toInt = if x.toNat < 2 ^ 31 then (x.toNat : Int) else x.toNat - 2 ^ 32 := by
  have h := BitVec.toInt_eq_toNat_cond x.toInt32.toBitVec
  have hn : x.toInt32.toBitVec.toNat = x.toNat := rfl
  rw [hn] at h
  rw [← Int32.toInt_toBitVec, h]
  split <;> split <;> omega

section Creation

variable {queueLength itemSize : UInt32}

theorem toNat_pos {x : UInt32} (hx : x ≠ 0) : 0 < x.toNat := by
  rw [Nat.pos_iff_ne_zero]
  intro h
  exact hx (UInt32.toNat_inj.mp h)

theorem holds_create (hlength : queueLength ≠ 0) (hsize : itemSize ≠ 0)
    (hblock : queueLength.toNat * itemSize.toNat < 2 ^ 31) :
    ∃ q, queueCreate queueLength itemSize = .ok q ∧
      Holds queueLength.toNat itemSize.toNat q [] := by
  have hn : queueLength.toNat < 2 ^ 31 :=
    Nat.lt_of_le_of_lt (Nat.le_mul_of_pos_right _ (toNat_pos hsize)) hblock
  have hs : itemSize.toNat < 2 ^ 31 :=
    Nat.lt_of_le_of_lt (Nat.le_mul_of_pos_left _ (toNat_pos hlength)) hblock
  have hproduct : queueLength.toInt32.toInt * itemSize.toInt32.toInt =
      (queueLength.toNat * itemSize.toNat : Nat) := by
    rw [toInt_toInt32, toInt_toInt32, if_pos hn, if_pos hs, Int.natCast_mul]
  have hpush : semInit queueLength = some queueLength.toNat := by
    rw [semInit, semValueMax, if_pos (by omega)]
  refine ⟨
    { itemLength := queueLength.toNat
      itemSize := itemSize.toNat
      semaphore := some 1
      semPop := some 0
      semPush := some queueLength.toNat
      memory := some (List.replicate (queueLength.toNat * itemSize.toNat) 0)
      absEnd := (queueLength.toNat * itemSize.toNat : Nat)
      currentStart := 0
      currentEnd := 0 }, ?_,
    ⟨List.replicate (queueLength.toNat * itemSize.toNat) 0, 0, 0, ?_⟩, rfl, rfl⟩
  · rw [queueCreate, if_neg (by simp [hlength, hsize])]
    simp only [hproduct, hpush]
    rw [if_neg (by omega), if_neg (by omega), Int.toNat_natCast, toInt_toInt32, toInt_toInt32,
      if_pos hn, if_pos hs]
    rfl
  · exact
      { itemLength := rfl
        itemSize := rfl
        absEnd := rfl
        semaphore := rfl
        memory := rfl
        length_bytes := List.length_replicate
        currentStart := by simp
        currentEnd := by simp
        first_le := Nat.zero_le _
        last_le := Nat.zero_le _
        last_mod := rfl
        length_le := Nat.zero_le _
        window := Window.nil }

/-- No item can be put where there is no semaphore or no memory. -/
theorem queuePush_undefined {q : Queue} {item : List UInt8} {now : Timespec} {r : Queue × Bool}
    (h : q.semPush = none ∨ q.memory = none) : queuePush q item (-1) false now ≠ .ok r := by
  intro hr
  rw [queuePush, pushWaiting] at hr
  simp only [Bool.false_eq_true, if_false, if_neg (by decide : ¬ (0 : Int) ≤ -1)] at hr
  obtain ⟨semPush, hwait, hr⟩ := bind_eq_ok.mp hr
  obtain ⟨q', hitem, _⟩ := bind_eq_ok.mp hr
  rw [pushItem] at hitem
  obtain ⟨_, _, hitem⟩ := bind_eq_ok.mp hitem
  obtain ⟨_, hcopy, _⟩ := bind_eq_ok.mp hitem
  rcases h with hnone | hnone
  · rw [hnone] at hwait
    cases hwait
  · dsimp only at hcopy
    rw [hnone] at hcopy
    cases hcopy

/-- A queue whose block is larger than an `int` is undefined at once, or at its first item. -/
theorem create_undefined {q : Queue} (hblock : 2 ^ 31 ≤ queueLength.toNat * itemSize.toNat)
    (hcreate : queueCreate queueLength itemSize = .ok q) : q.semPush = none ∨ q.memory = none := by
  rw [queueCreate] at hcreate
  split at hcreate
  · cases hcreate
  rename_i hzero
  rw [not_or] at hzero
  dsimp only at hcreate
  split at hcreate
  · cases hcreate
  rename_i hproduct
  obtain rfl := Except.ok.inj hcreate
  dsimp only
  rw [toInt_toInt32, toInt_toInt32] at hproduct
  by_cases hn : queueLength.toNat < 2 ^ 31
  · right
    have hs : ¬ itemSize.toNat < 2 ^ 31 := by
      intro hs
      rw [if_pos hn, if_pos hs, ← Int.natCast_mul] at hproduct
      omega
    have hnegative : queueLength.toInt32.toInt * itemSize.toInt32.toInt < 0 := by
      rw [toInt_toInt32, toInt_toInt32, if_pos hn, if_neg hs]
      have hlt := itemSize.toNat_lt
      exact Int.mul_neg_of_pos_of_neg (Int.natCast_pos.mpr (toNat_pos hzero.1)) (by omega)
    rw [if_pos hnegative]
  · left
    rw [semInit, semValueMax, if_neg (by omega)]

theorem not_behavesAsFifo (hblock : 2 ^ 31 ≤ queueLength.toNat * itemSize.toNat) :
    ¬ BehavesAsFifo queueLength itemSize := by
  have hlength : queueLength ≠ 0 := by
    intro heq
    obtain rfl := heq
    simp at hblock
  have hsize : itemSize ≠ 0 := by
    intro heq
    obtain rfl := heq
    simp at hblock
  rintro (hexit | ⟨q, hcreate, hcalls⟩)
  · rw [queueCreate, if_neg (by simp [hlength, hsize])] at hexit
    dsimp only at hexit
    split at hexit <;> cases hexit
  · let item : Item itemSize.toNat := ⟨List.replicate itemSize.toNat 0, List.length_replicate⟩
    have hpush := hcalls [.pushToBack item]
    have hfifo : Fifo.calls queueLength.toNat [] [.pushToBack item] = some ([item], [.done]) := by
      simp [Fifo.calls, Fifo.call, toNat_pos hlength]
    rw [hfifo] at hpush
    obtain ⟨q', _, _, hok, _⟩ := hpush
    rw [Queue.calls, Queue.call, halQueuePushToBack] at hok
    obtain ⟨_, hcall, _⟩ := bind_eq_ok.mp hok
    obtain ⟨_, hhal, _⟩ := bind_eq_ok.mp hcall
    obtain ⟨_, hqueue, _⟩ := bind_eq_ok.mp hhal
    exact queuePush_undefined (create_undefined hblock hcreate) hqueue

theorem behavesAsFifo (hblock : queueLength.toNat * itemSize.toNat < 2 ^ 31) :
    BehavesAsFifo queueLength itemSize := by
  by_cases hzero : queueLength = 0 ∨ itemSize = 0
  · exact Or.inl (by rw [queueCreate, if_pos hzero])
  · rw [not_or] at hzero
    obtain ⟨q, hcreate, hholds⟩ := holds_create hzero.1 hzero.2 hblock
    refine Or.inr ⟨q, hcreate, ?_⟩
    intro cs
    have hn := toNat_pos hzero.1
    have hs := toNat_pos hzero.2
    have hmax : queueLength.toNat ≤ semValueMax := by
      have hle := Nat.le_mul_of_pos_right queueLength.toNat hs
      rw [semValueMax]
      omega
    have hcalls := Holds.calls hs hn hmax cs hholds
    cases hfifo : Fifo.calls queueLength.toNat [] cs with
    | none =>
        rw [hfifo] at hcalls
        exact hcalls
    | some r =>
        rw [hfifo] at hcalls
        obtain ⟨q', hq', hholds'⟩ := hcalls
        have hlen := hholds'.length_le
        refine ⟨q', r.1.length, queueLength.toNat - r.1.length, hq', ?_, hholds'.2.1, hholds'.2.2,
          ?_⟩
        · rw [queueItemsWaiting, hholds'.2.1]
        · omega

end Creation

/-- A queue is a bounded list if and only if its items together have less than `2 ^ 31` bytes. -/
theorem queue_bounded_fifo (queueLength itemSize : UInt32) :
    BehavesAsFifo queueLength itemSize ↔ queueLength.toNat * itemSize.toNat < 2 ^ 31 := by
  constructor
  · intro h
    by_contra hlarge
    exact not_behavesAsFifo (by omega) h
  · exact behavesAsFifo

/-- The number of bytes of 65537 items of 65536 bytes is no `int`. -/
theorem queue_65537 : ¬ BehavesAsFifo 65537 65536 := not_behavesAsFifo (by decide)

end SimpleQueue
