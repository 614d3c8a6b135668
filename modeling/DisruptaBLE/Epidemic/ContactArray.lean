import DisruptaBLE.Epidemic.ContactRuns
import DisruptaBLE.Lib.Outcome

/-!
# The array of contacts

`current_contacts` and `removed_contacts` of `contact_manager.c` as arrays of
`MAX_CONCURRENT_CONTACTS` entries, with every index that the code computes.  An access outside of
an array is a fault.  The callbacks are left out here: they do not change the contacts.

`contact_array_sound` says that the used part of the array holds the contacts that were added and
not removed, as long as no contact is added to 127 others.  The 128th one makes the counter
negative (`contact_count_negative`).
-/

namespace EpidemicRouter

open PtrHeap Outcome

/-! ## Arrays -/

/-- `array[i]`. -/
def readSlot (slots : List Ptr) (i : Int) : Except Fault Ptr :=
  if i < 0 then .error .dangling
  else
    match slots[i.toNat]? with
    | none => .error .dangling
    | some p => .ok p

/-- `array[i] = p`. -/
def writeSlot (slots : List Ptr) (i : Int) (p : Ptr) : Except Fault (List Ptr) :=
  if i < 0 then .error .dangling
  else if slots.length ≤ i.toNat then .error .dangling
  else .ok (slots.set i.toNat p)

/-- The contact manager with its arrays. -/
structure ContactArray where
  contacts : Heap Contact
  /-- `current_contacts` -/
  slots : List Ptr
  /-- `current_contact_count` -/
  count : Int
  /-- `removed_contacts` -/
  removed : List Ptr
  /-- the contacts that were added and not removed, in the order in which they were added -/
  present : List Addr

/-- `contact_manager_init`. -/
def contactArrayInit : ContactArray where
  contacts := Heap.empty
  slots := List.replicate maxConcurrentContacts.toNat none
  count := 0
  removed := List.replicate maxConcurrentContacts.toNat none
  present := []

namespace ContactArray

/-- The search loops, for the indexes below the given one. -/
def findLoop (contacts : Heap Contact) (p : Contact → Bool) (slots : List Ptr) :
    Nat → Except Fault Ptr
  | 0 => .ok none
  | i + 1 => do
      let c ← readSlot slots i
      let k ← contacts.load c
      if p k then pure c else findLoop contacts p slots i

/-- `find_contact_info_by_eid`. -/
def findContactInfoByEid (s : ContactArray) (eid : CStr) : Except Fault Ptr :=
  if eid = eidNone then .ok none
  else findLoop s.contacts (fun k => k.node.eid = eid) s.slots s.count.toNat

/-- `find_contact_info_by_cla_addr`. -/
def findContactInfoByClaAddr (s : ContactArray) (claAddr : CStr) : Except Fault Ptr :=
  findLoop s.contacts (fun k => k.node.claAddr = claAddr) s.slots s.count.toNat

/-- A new contact in the entry behind the last one, which is cleared first. -/
def addContact (env : CmEnv) (s : ContactArray) (node : Node) : Except Fault ContactArray :=
  if s.count < maxConcurrentContacts then do
    let slots ← writeSlot s.slots s.count none
    match env.contactMem s.contacts with
    | none => pure { s with slots }
    | some c =>
        let slots ← writeSlot slots s.count (some c)
        pure { s with
          contacts := s.contacts.set c ⟨node, env.now, false⟩
          slots := slots
          count := int8 (s.count + 1)
          present := s.present ++ [c] }
  else .ok s

/-- A known contact is seen again: "we also swap the node". -/
def swapNode (env : CmEnv) (s : ContactArray) (c : Ptr) (node : Node) :
    Except Fault ContactArray := do
  let contacts ← s.contacts.modify c fun k => { k with node, toTime := max k.toTime env.now }
  pure { s with contacts }

/-- `handle_discovered_neighbor`. -/
def handleDiscoveredNeighbor (env : CmEnv) (s : ContactArray) (node : Node) :
    Except Fault ContactArray := do
  match ← findContactInfoByEid s node.eid with
  | some c => swapNode env s (some c) node
  | none =>
      match ← findContactInfoByClaAddr s node.claAddr with
      | some c => swapNode env s (some c) node
      | none => addContact env s node

/-- `handle_missing_cla_address`. -/
def handleMissingClaAddress (env : CmEnv) (s : ContactArray) (claAddr : CStr) :
    Except Fault ContactArray :=
  if env.nodeMem then do
    assertC env.textMem
    handleDiscoveredNeighbor env s ⟨eidNone, claAddr⟩
  else .ok s

/-- The search of a contact by its address, which creates a missing one. -/
def findOrAdd (env : CmEnv) (s : ContactArray) (claAddr : CStr) :
    Except Fault (ContactArray × Ptr) := do
  match ← findContactInfoByClaAddr s claAddr with
  | some c => pure (s, some c)
  | none =>
      let s ← handleMissingClaAddress env s claAddr
      let c ← findContactInfoByClaAddr s claAddr
      pure (s, c)

/-- Set the active flag. -/
def setActive (s : ContactArray) (c : Ptr) (active : Bool) : Except Fault ContactArray := do
  let contacts ← s.contacts.modify c fun k => { k with active }
  pure { s with contacts }

/-- `handle_conn_up` and `handle_conn_down`. -/
def handleConn (env : CmEnv) (s : ContactArray) (claAddr : CStr) (active : Bool) :
    Except Fault ContactArray := do
  match ← findOrAdd env s claAddr with
  | (s, none) => pure s
  | (s, some c) => setActive s (some c) active

/-- `handle_conn_up`. -/
def handleConnUp (env : CmEnv) (s : ContactArray) (claAddr : CStr) : Except Fault ContactArray :=
  handleConn env s claAddr true

/-- `handle_conn_down`. -/
def handleConnDown (env : CmEnv) (s : ContactArray) (claAddr : CStr) :
    Except Fault ContactArray :=
  handleConn env s claAddr false

/-- The first loop of `remove_expired_contacts`, for the indexes below the given one. -/
def refreshLoop (now : Nat) (slots : List Ptr) :
    Nat → Heap Contact → Except Fault (Heap Contact)
  | 0, contacts => .ok contacts
  | i + 1, contacts => do
      let c ← readSlot slots i
      let contacts ← contacts.modify c fun k =>
        if k.active then { k with toTime := max now k.toTime } else k
      refreshLoop now slots i contacts

/-- `for (c = i; c < current_contact_count; c++)`: the entries from `c` on move to the left. -/
def shiftLoop : List Ptr → Int → Nat → Except Fault (List Ptr)
  | slots, _, 0 => .ok slots
  | slots, c, n + 1 => do
      let p ← readSlot slots (c + 1)
      let slots ← writeSlot slots c p
      shiftLoop slots (int8 (c + 1)) n

/-- "If it's not the last element, we have to move mem". -/
def closeGap (slots : List Ptr) (i : Nat) (count : Int) : Except Fault (List Ptr) :=
  if (i : Int) ≠ count - 1 then shiftLoop slots i (count - i).toNat else .ok slots

/-- An entry moves to `list`, which has `count` entries already. -/
def removeAt (s : ContactArray) (i : Nat) (count : Int) (c : Addr) : Except Fault ContactArray := do
  assertC (i ≤ maxConcurrentContacts)
  let s ← setActive s (some c) false
  let removed ← writeSlot s.removed count (some c)
  let slots ← closeGap s.slots i s.count
  pure { s with slots, removed, count := int8 (s.count - 1), present := s.present.erase c }

/-- The second loop of `remove_expired_contacts`, for the indexes below the given one, after
`removed` contacts; returns the number of the removed ones. -/
def removeLoop (env : CmEnv) : Nat → Int → ContactArray → Except Fault (ContactArray × Int)
  | 0, removed, s => .ok (s, removed)
  | i + 1, removed, s => do
      match ← readSlot s.slots i with
      | none => .error .nullDeref
      | some c =>
          let k ← s.contacts.load (some c)
          if k.toTime ≤ env.now + contactTimeoutS then do
            let s ← removeAt s i removed c
            removeLoop env i (int8 (removed + 1)) s
          else removeLoop env i removed s

/-- `remove_expired_contacts`. -/
def removeExpiredContacts (env : CmEnv) (s : ContactArray) :
    Except Fault (ContactArray × Int) := do
  let contacts ← refreshLoop env.now s.slots s.count.toNat s.contacts
  removeLoop env s.count.toNat 0 { s with contacts }

/-- The loop of `remove_and_free_expired_contacts`, from an index on. -/
def freeLoop : Nat → Nat → ContactArray → Except Fault ContactArray
  | 0, _, s => .ok s
  | n + 1, i, s => do
      let c ← readSlot s.removed i
      let _ ← s.contacts.load c
      let contacts ← s.contacts.release c
      let removed ← writeSlot s.removed i none
      freeLoop n (i + 1) { s with contacts, removed }

/-- `remove_and_free_expired_contacts`. -/
def removeAndFreeExpiredContacts (env : CmEnv) (s : ContactArray) : Except Fault ContactArray := do
  let (s, removed) ← removeExpiredContacts env s
  freeLoop removed.toNat 0 s

/-- One event. -/
def step (env : CmEnv) (s : ContactArray) : CmOp → Except Fault ContactArray
  | .discovered node => handleDiscoveredNeighbor env s node
  | .connUp claAddr => handleConnUp env s claAddr
  | .connDown claAddr => handleConnDown env s claAddr
  | .expire => removeAndFreeExpiredContacts env s

/-- The states that events lead to, each of which satisfies `Q`. -/
inductive Reachable (Q : ContactArray → CmOp → Prop) : ContactArray → Prop where
  | init : Reachable Q contactArrayInit
  | step {s s' : ContactArray} {env : CmEnv} {op : CmOp} :
      Reachable Q s → Q s op → step env s op = .ok s' → Reachable Q s'

/-! ## The property -/

/-- A contact with some property. -/
def Has (s : ContactArray) (p : Contact → Bool) (c : Addr) : Prop :=
  ∃ k, s.contacts.cells c = some k ∧ p k = true

/-- **The property.**  The counter has a value between zero and the size of the array; the used
part of the array holds the contacts that were added and not removed, each once; the searches see
all of them; and the next event does not leave the arrays: its only fault is the assertion that
there is memory for the address of a new node. -/
structure Sound (s : ContactArray) : Prop where
  range : 0 ≤ s.count ∧ s.count ≤ maxConcurrentContacts
  entries : s.slots.take s.count.toNat = s.present.map some
  once : s.present.Nodup
  eidSeen : ∀ eid, eid ≠ eidNone → ∀ c ∈ s.present, s.Has (fun k => k.node.eid = eid) c →
    ∃ c' ∈ s.present, findContactInfoByEid s eid = .ok (some c') ∧
      s.Has (fun k => k.node.eid = eid) c'
  claAddrSeen : ∀ claAddr, ∀ c ∈ s.present, s.Has (fun k => k.node.claAddr = claAddr) c →
    ∃ c' ∈ s.present, findContactInfoByClaAddr s claAddr = .ok (some c') ∧
      s.Has (fun k => k.node.claAddr = claAddr) c'
  bounds : ∀ env op f, step env s op = .error f → f = .assertFailed

/-- **The condition** on an event: there are fewer than 127 contacts when one is added. -/
def Few (s : ContactArray) : CmOp → Prop
  | .discovered node => findContactInfoByEid s node.eid = .ok none →
      findContactInfoByClaAddr s node.claAddr = .ok none → s.count < 127
  | .connUp claAddr => findContactInfoByClaAddr s claAddr = .ok none → s.count < 127
  | .connDown claAddr => findContactInfoByClaAddr s claAddr = .ok none → s.count < 127
  | .expire => True

/-! ## Accesses and loops -/

theorem readSlot_eq {slots : List Ptr} {i : Nat} {p : Ptr} (h : slots[i]? = some p) :
    readSlot slots i = .ok p := by
  simp [readSlot, h]

theorem writeSlot_eq {slots : List Ptr} {i : Nat} (h : i < slots.length) (p : Ptr) :
    writeSlot slots i p = .ok (slots.set i p) := by
  rw [writeSlot, if_neg (by omega), Int.toNat_natCast, if_neg (by omega)]

/-- What the moving loop leaves. -/
theorem shiftLoop_eq {slots : List Ptr} {i n : Nat} (hsize : i + n < slots.length)
    (hsmall : i + n ≤ 127) :
    shiftLoop slots i n =
      .ok (slots.take i ++ (slots.drop (i + 1)).take n ++ slots.drop (i + n)) := by
  induction n generalizing slots i with
  | zero => simp [shiftLoop]
  | succ n ih =>
      have hnext : i + 1 < slots.length := by omega
      have hread : readSlot slots ((i : Int) + 1) = .ok slots[i + 1] :=
        readSlot_eq (i := i + 1) (List.getElem?_eq_getElem hnext)
      have hindex : int8 ((i : Int) + 1) = ((i + 1 : Nat) : Int) :=
        int8_of_small (by omega) (by omega)
      have htake : (slots.set i slots[i + 1]).take (i + 1) = slots.take i ++ [slots[i + 1]] := by
        rw [List.take_add_one, List.take_set_of_le (Nat.le_refl _),
          List.getElem?_set_self (by omega)]
        rfl
      have hrest : (slots.drop (i + 1)).take (n + 1) =
          slots[i + 1] :: (slots.drop (i + 1 + 1)).take n := by
        rw [List.drop_eq_getElem_cons hnext, List.take_succ_cons]
      rw [shiftLoop, hread, ok_bind, writeSlot_eq (by omega), ok_bind, hindex,
        ih (by rw [List.length_set]; omega) (by omega), htake, hrest,
        List.drop_set_of_lt (by omega), List.drop_set_of_lt (by omega)]
      simp [Nat.add_assoc, Nat.add_comm 1 n]

/-- The invariant. -/
structure Inv (s : ContactArray) : Prop where
  size : s.slots.length = maxConcurrentContacts.toNat
  sizeRemoved : s.removed.length = maxConcurrentContacts.toNat
  count : s.count = s.present.length
  small : s.present.length ≤ 127
  entries : s.slots.take s.present.length = s.present.map some
  once : s.present.Nodup
  live : ∀ c ∈ s.present, ∃ k, s.contacts.cells c = some k

variable {s s' : ContactArray} {env : CmEnv} {p : Contact → Bool} {c : Addr}

theorem Inv.length_slots (h : s.Inv) : s.slots.length = 257 := h.size

theorem Inv.length_removed (h : s.Inv) : s.removed.length = 257 := h.sizeRemoved

theorem Inv.slot (h : s.Inv) {i : Nat} (hi : s.present[i]? = some c) :
    s.slots[i]? = some (some c) := by
  have hlt := (List.getElem?_eq_some_iff.mp hi).1
  rw [← List.getElem?_take_of_lt hlt, h.entries, List.getElem?_map, hi]
  rfl

/-- What a search returns. -/
def Found (s : ContactArray) (p : Contact → Bool) : Ptr → Prop
  | none => ∀ c ∈ s.present, ¬ s.Has p c
  | some c => c ∈ s.present ∧ s.Has p c

/-- The search loops look at every contact. -/
theorem Inv.findLoop (h : s.Inv) {i : Nat} (hi : i ≤ s.present.length) :
    ∃ r, findLoop s.contacts p s.slots i = .ok r ∧
      (∀ c, r = some c → c ∈ s.present ∧ s.Has p c) ∧
      (r = none → ∀ c ∈ s.present.take i, ¬ s.Has p c) := by
  induction i with
  | zero => exact ⟨none, rfl, by simp, by simp⟩
  | succ i ih =>
      have hget := List.getElem?_eq_getElem (show i < s.present.length by omega)
      generalize s.present[i] = x at hget
      have hx := List.mem_of_getElem? hget
      obtain ⟨k, hk⟩ := h.live x hx
      have hloop : ContactArray.findLoop s.contacts p s.slots (i + 1) =
          if p k then .ok (some x) else ContactArray.findLoop s.contacts p s.slots i := by
        rw [ContactArray.findLoop, readSlot_eq (h.slot hget), ok_bind, Heap.load_cell hk, ok_bind]
        rfl
      by_cases hp : p k = true
      · refine ⟨some x, by rw [hloop, if_pos hp], ?_, by simp⟩
        rintro c ⟨⟩
        exact ⟨hx, k, hk, hp⟩
      · obtain ⟨r, hr, hsome, hnone⟩ := ih (by omega)
        refine ⟨r, by rw [hloop, if_neg hp, hr], hsome, ?_⟩
        intro hn c hc
        rw [List.take_add_one, hget, List.mem_append] at hc
        rcases hc with hc | hc
        · exact hnone hn c hc
        · obtain rfl := List.mem_singleton.mp hc
          rintro ⟨k', hk', hp'⟩
          rw [hk] at hk'
          cases hk'
          exact hp hp'

theorem Inv.find (h : s.Inv) (p : Contact → Bool) :
    ∃ r, ContactArray.findLoop s.contacts p s.slots s.count.toNat = .ok r ∧ s.Found p r := by
  obtain ⟨r, hr, hsome, hnone⟩ := h.findLoop (p := p) (Nat.le_refl s.present.length)
  refine ⟨r, by rw [h.count, Int.toNat_natCast, hr], ?_⟩
  cases r with
  | none =>
      intro c hc
      apply hnone rfl c
      rw [List.take_length]
      exact hc
  | some c => exact hsome c rfl

theorem Inv.findByClaAddr (h : s.Inv) (claAddr : CStr) :
    ∃ r, findContactInfoByClaAddr s claAddr = .ok r ∧
      s.Found (fun k => k.node.claAddr = claAddr) r :=
  h.find _

theorem Inv.findByEid (h : s.Inv) {eid : CStr} (heid : eid ≠ eidNone) :
    ∃ r, findContactInfoByEid s eid = .ok r ∧ s.Found (fun k => k.node.eid = eid) r := by
  obtain ⟨r, hr, hfound⟩ := h.find (fun k => k.node.eid = eid)
  exact ⟨r, by rw [findContactInfoByEid, if_neg heid, hr], hfound⟩

/-! ## Events -/

/-- The contacts change, but none of the present ones is freed. -/
theorem Inv.withContacts (h : s.Inv) {contacts : Heap Contact}
    (hlive : ∀ c ∈ s.present, ∃ k, contacts.cells c = some k) :
    Inv { s with contacts } :=
  ⟨h.size, h.sizeRemoved, h.count, h.small, h.entries, h.once, hlive⟩

/-- A change of one contact. -/
theorem Inv.modify (h : s.Inv) (hc : c ∈ s.present) (f : Contact → Contact) :
    ∃ k, s.contacts.cells c = some k ∧
      s.contacts.modify (some c) f = .ok (s.contacts.set c (f k)) ∧
      Inv { s with contacts := s.contacts.set c (f k) } := by
  obtain ⟨k, hk⟩ := h.live c hc
  refine ⟨k, hk, Heap.modify_cell hk f, h.withContacts ?_⟩
  intro x hx
  by_cases hxc : x = c
  · exact ⟨f k, by simp [hxc]⟩
  · obtain ⟨kx, hkx⟩ := h.live x hx
    exact ⟨kx, by simp [hxc, hkx]⟩

theorem Inv.swapNode (h : s.Inv) (env : CmEnv) (hc : c ∈ s.present) (node : Node) :
    ∃ s', swapNode env s (some c) node = .ok s' ∧ Inv s' := by
  obtain ⟨k, _, hmod, hinv⟩ := h.modify hc fun k =>
    { k with node, toTime := max k.toTime env.now }
  exact ⟨_, by rw [ContactArray.swapNode, hmod, ok_bind]; rfl, hinv⟩

theorem Inv.setActive (h : s.Inv) (hc : c ∈ s.present) (active : Bool) :
    ∃ s', setActive s (some c) active = .ok s' ∧ Inv s' := by
  obtain ⟨k, _, hmod, hinv⟩ := h.modify hc fun k => { k with active }
  exact ⟨_, by rw [ContactArray.setActive, hmod, ok_bind]; rfl, hinv⟩

/-- The entry behind the last one. -/
theorem Inv.writeNext (h : s.Inv) (p : Ptr) :
    writeSlot s.slots s.count p = .ok (s.slots.set s.present.length p) := by
  have hlen := h.length_slots
  have hsmall := h.small
  rw [h.count]
  exact writeSlot_eq (by omega) p

/-- The entry behind the last one is cleared. -/
theorem Inv.cleared (h : s.Inv) : Inv { s with slots := s.slots.set s.present.length none } := by
  refine ⟨by rw [List.length_set]; exact h.size, h.sizeRemoved, h.count, h.small, ?_, h.once,
    h.live⟩
  show (s.slots.set s.present.length none).take s.present.length = _
  rw [List.take_set_of_le (Nat.le_refl _), h.entries]

/-- The entry behind the last one is used. -/
theorem Inv.appended (h : s.Inv) (hfree : s.contacts.cells c = none) (k : Contact)
    (hlt : s.count < 127) :
    Inv { s with
      contacts := s.contacts.set c k
      slots := s.slots.set s.present.length (some c)
      count := int8 (s.count + 1)
      present := s.present ++ [c] } := by
  have hlen := h.length_slots
  have hcount := h.count
  have hnew : ∀ x ∈ s.present, x ≠ c := by
    rintro x hx rfl
    obtain ⟨k, hk⟩ := h.live x hx
    rw [hfree] at hk
    cases hk
  have hlength : (s.present ++ [c]).length = s.present.length + 1 := by simp
  refine ⟨?_, h.sizeRemoved, ?_, ?_, ?_, ?_, ?_⟩
  · rw [List.length_set]
    exact h.size
  · rw [int8_of_small (by omega) (by omega), hlength, hcount]
    rfl
  · rw [hlength]
    omega
  · rw [hlength, List.take_add_one, List.take_set_of_le (Nat.le_refl _), h.entries,
      List.getElem?_set_self (by omega), List.map_append]
    rfl
  · rw [List.nodup_append]
    refine ⟨h.once, List.nodup_singleton c, ?_⟩
    intro x hx y hy
    obtain rfl := List.mem_singleton.mp hy
    exact hnew x hx
  · intro x hx
    rcases List.mem_append.mp hx with hx | hx
    · obtain ⟨k, hk⟩ := h.live x hx
      exact ⟨k, by simp [hnew x hx, hk]⟩
    · obtain rfl := List.mem_singleton.mp hx
      exact ⟨_, Heap.cells_set_self _ _ _⟩

/-- What becomes of a state when a contact may have been added. -/
def Grown (s s' : ContactArray) : Prop :=
  (s.count < 127 → Inv s') ∧ (Inv s' ∨ s'.count = -128)

theorem Inv.grown (h : s'.Inv) : Grown s s' := ⟨fun _ => h, Or.inl h⟩

/-- What a new contact writes. -/
theorem Inv.addContact_eq (h : s.Inv) (env : CmEnv) (node : Node)
    (hmem : env.contactMem s.contacts = some c) :
    addContact env s node = .ok { s with
      contacts := s.contacts.set c ⟨node, env.now, false⟩
      slots := (s.slots.set s.present.length none).set s.present.length (some c)
      count := int8 (s.count + 1)
      present := s.present ++ [c] } := by
  have hsmall := h.small
  have hcount := h.count
  have hroom : s.count < maxConcurrentContacts := by
    show s.count < 257
    omega
  have hwrite := h.cleared.writeNext (some c)
  dsimp only at hwrite
  rw [ContactArray.addContact, if_pos hroom, h.writeNext, ok_bind, hmem]
  dsimp only
  rw [hwrite, ok_bind]
  rfl

/-- **A new contact.**  It fits behind 127 others, but it makes the counter negative there. -/
theorem Inv.addContact (h : s.Inv) (env : CmEnv) (node : Node) :
    ∃ s', addContact env s node = .ok s' ∧ Grown s s' := by
  have hsmall := h.small
  have hcount := h.count
  cases hmem : env.contactMem s.contacts with
  | none =>
      have hroom : s.count < maxConcurrentContacts := by
        show s.count < 257
        omega
      refine ⟨_, ?_, h.cleared.grown⟩
      rw [ContactArray.addContact, if_pos hroom, h.writeNext, ok_bind, hmem]
      rfl
  | some c =>
      have hgrown := fun hlt => h.cleared.appended (env.contactMem_free _ _ hmem)
        ⟨node, env.now, false⟩ hlt
      refine ⟨_, h.addContact_eq env node hmem, hgrown, ?_⟩
      by_cases hlt : s.count < 127
      · exact Or.inl (hgrown hlt)
      · obtain hfull : s.count = 127 := by omega
        right
        dsimp only
        rw [hfull]
        rfl

/-- The EID of a node is looked up. -/
theorem Inv.lookupEid (h : s.Inv) (eid : CStr) :
    ∃ r, findContactInfoByEid s eid = .ok r ∧ ∀ c, r = some c → c ∈ s.present := by
  by_cases heid : eid = eidNone
  · exact ⟨none, by rw [findContactInfoByEid, if_pos heid], by simp⟩
  · obtain ⟨r, hr, hfound⟩ := h.findByEid heid
    refine ⟨r, hr, ?_⟩
    rintro c rfl
    exact hfound.1

/-- **A neighbour is discovered.** -/
theorem Inv.handleDiscoveredNeighbor (h : s.Inv) (env : CmEnv) (node : Node) :
    ∃ s', handleDiscoveredNeighbor env s node = .ok s' ∧ (Inv s' ∨ s'.count = -128) ∧
      (Few s (.discovered node) → Inv s') := by
  obtain ⟨r, hr, hmem⟩ := h.lookupEid node.eid
  rw [ContactArray.handleDiscoveredNeighbor, hr, ok_bind]
  cases r with
  | some c =>
      obtain ⟨s', hs', hinv⟩ := h.swapNode env (hmem c rfl) node
      exact ⟨s', hs', Or.inl hinv, fun _ => hinv⟩
  | none =>
      obtain ⟨r', hr', hfound⟩ := h.findByClaAddr node.claAddr
      dsimp only
      rw [hr', ok_bind]
      cases r' with
      | some c =>
          obtain ⟨s', hs', hinv⟩ := h.swapNode env hfound.1 node
          exact ⟨s', hs', Or.inl hinv, fun _ => hinv⟩
      | none =>
          obtain ⟨s', hs', hfew, hgrown⟩ := h.addContact env node
          exact ⟨s', hs', hgrown, fun hQ => hfew (hQ hr hr')⟩

/-- A search without contacts to look at. -/
theorem findByClaAddr_of_negative (h : s.count = -128) (claAddr : CStr) :
    findContactInfoByClaAddr s claAddr = .ok none := by
  rw [findContactInfoByClaAddr, h]
  rfl

/-- **A connection event.** -/
theorem Inv.handleConn (h : s.Inv) (claAddr : CStr) (active : Bool) :
    Ends (· = .assertFailed) (handleConn env s claAddr active) fun s' =>
      (findContactInfoByClaAddr s claAddr = .ok none → s.count < 127) → Inv s' := by
  obtain ⟨r, hr, hfound⟩ := h.findByClaAddr claAddr
  rw [ContactArray.handleConn, findOrAdd, hr, ok_bind]
  cases r with
  | some c =>
      obtain ⟨s', hs', hinv⟩ := h.setActive hfound.1 active
      refine ends_of_eq rfl ?_
      dsimp only
      rw [hs']
      exact fun _ => hinv
  | none =>
      dsimp only
      rw [handleMissingClaAddress]
      split
      · cases htext : env.textMem with
        | false => exact rfl
        | true =>
            obtain ⟨s', hs', hgrown, hfew⟩ :=
              h.handleDiscoveredNeighbor env ⟨eidNone, claAddr⟩
            rw [assertC_true, ok_bind, hs', ok_bind]
            rcases hgrown with hinv | hneg
            · obtain ⟨r', hr', hfound'⟩ := hinv.findByClaAddr claAddr
              rw [hr', ok_bind]
              cases r' with
              | none => exact fun _ => hinv
              | some c =>
                  obtain ⟨s'', hs'', hinv''⟩ := hinv.setActive hfound'.1 active
                  refine ends_of_eq rfl ?_
                  dsimp only
                  rw [hs'']
                  exact fun _ => hinv''
            · rw [findByClaAddr_of_negative hneg, ok_bind]
              exact fun hQ => hfew fun _ _ => hQ rfl
      · rw [ok_bind, hr, ok_bind]
        exact fun _ => h

/-! ## Expiry -/

/-- The active contacts are kept alive. -/
theorem Inv.refreshLoop (h : s.Inv) (now : Nat) {i : Nat} (hi : i ≤ s.present.length) :
    ∃ contacts, refreshLoop now s.slots i s.contacts = .ok contacts ∧
      Inv { s with contacts } := by
  induction i generalizing s with
  | zero => exact ⟨s.contacts, rfl, h⟩
  | succ i ih =>
      have hget := List.getElem?_eq_getElem (show i < s.present.length by omega)
      generalize s.present[i] = x at hget
      obtain ⟨k, _, hmod, hinv⟩ := h.modify (List.mem_of_getElem? hget) fun k =>
        if k.active then { k with toTime := max now k.toTime } else k
      obtain ⟨contacts, hloop, hinv'⟩ := ih hinv (by dsimp only; omega)
      refine ⟨contacts, ?_, hinv'⟩
      rw [ContactArray.refreshLoop, readSlot_eq (h.slot hget), ok_bind, hmod, ok_bind]
      exact hloop

/-- Some contacts were moved to `removed_contacts` and are not freed yet. -/
structure Removing (s : ContactArray) (gone : List Addr) : Prop extends Inv s where
  moved : s.removed.take gone.length = gone.map some
  goneOnce : gone.Nodup
  goneLive : ∀ c ∈ gone, c ∉ s.present ∧ ∃ k, s.contacts.cells c = some k
  goneSmall : gone.length + s.present.length ≤ 127

/-- The used part of the array after the gap is closed. -/
theorem Inv.closeGap (h : s.Inv) {i : Nat} (hlt : i < s.present.length) :
    ∃ slots, closeGap s.slots i s.count = .ok slots ∧ slots.length = s.slots.length ∧
      slots.take (s.present.length - 1) = (s.present.eraseIdx i).map some := by
  have hsize := h.length_slots
  have hcount := h.count
  have hsmall := h.small
  have hcut : s.slots.take i ++ (s.slots.drop (i + 1)).take (s.present.length - 1 - i) =
      (s.present.eraseIdx i).map some := by
    rw [List.eraseIdx_eq_take_drop_succ, List.map_append, List.map_take, List.map_drop,
      ← h.entries, List.take_take, Nat.min_eq_left (by omega), List.drop_take]
    congr 2
    omega
  unfold ContactArray.closeGap
  split
  · have hn : (s.count - i).toNat = s.present.length - i := by omega
    rw [hn, shiftLoop_eq (by omega) (by omega)]
    refine ⟨_, rfl, ?_, ?_⟩
    · simp only [List.length_append, List.length_take, List.length_drop]
      omega
    · rw [← hcut, List.append_assoc, List.take_append, List.take_take,
        Nat.min_eq_right (by omega), List.length_take_of_le (by omega),
        List.take_append_of_le_length
          (by simp only [List.length_take, List.length_drop]; omega),
        List.take_take, Nat.min_eq_left (by omega)]
  · refine ⟨_, rfl, rfl, ?_⟩
    have hlast : i = s.present.length - 1 := by omega
    rw [← hcut, ← hlast, Nat.sub_self, List.take_zero, List.append_nil]

/-- **One contact is removed.** -/
theorem Removing.removeAt {gone : List Addr} (h : Removing s gone) {i : Nat}
    (hi : s.present[i]? = some c) :
    ∃ s', removeAt s i gone.length c = .ok s' ∧ Removing s' (gone ++ [c]) ∧
      s'.present = s.present.eraseIdx i := by
  obtain ⟨hlt, hget⟩ := List.getElem?_eq_some_iff.mp hi
  have hmem := List.mem_of_getElem? hi
  have hsizeRemoved := h.length_removed
  have hcount := h.count
  have hsmall := h.goneSmall
  obtain ⟨k, hk, hmod, hinv⟩ := h.modify hmem fun k => { k with active := false }
  obtain ⟨slots, hslots, hlen, hused⟩ := h.closeGap hlt
  have herase : s.present.erase c = s.present.eraseIdx i := by
    rw [← hget]
    exact h.once.erase_getElem i hlt
  have hlength : (s.present.eraseIdx i).length = s.present.length - 1 :=
    List.length_eraseIdx_of_lt hlt
  have hbound : ((i : Int) ≤ maxConcurrentContacts : Bool) = true := by
    rw [decide_eq_true_eq]
    show (i : Int) ≤ 257
    omega
  refine ⟨{ s with
    contacts := s.contacts.set c { k with active := false }
    slots := slots
    removed := s.removed.set gone.length (some c)
    count := int8 (s.count - 1)
    present := s.present.eraseIdx i }, ?_, ?_, rfl⟩
  · rw [ContactArray.removeAt, assertC_of hbound, ok_bind, ContactArray.setActive, hmod, ok_bind]
    show (writeSlot s.removed gone.length (some c) >>= _) = _
    rw [writeSlot_eq (by omega), ok_bind]
    show (ContactArray.closeGap s.slots i s.count >>= _) = _
    rw [hslots, ok_bind, herase]
    rfl
  · have hsub : ∀ x ∈ s.present.eraseIdx i, x ∈ s.present := fun x => List.mem_of_mem_eraseIdx
    have hout : c ∉ s.present.eraseIdx i := by
      rw [← herase]
      exact h.once.not_mem_erase
    have hgone : c ∉ gone := fun hc => (h.goneLive c hc).1 hmem
    refine ⟨⟨hlen.trans h.size, List.length_set.trans h.sizeRemoved, ?_, ?_, ?_,
      h.once.eraseIdx i, fun x hx => hinv.live x (hsub x hx)⟩, ?_, ?_, ?_, ?_⟩
    · show int8 (s.count - 1) = _
      rw [int8_of_small (by omega) (by omega), hlength, hcount]
      omega
    · rw [hlength]
      omega
    · rw [hlength]
      exact hused
    · rw [List.length_append, List.length_singleton, List.take_add_one,
        List.take_set_of_le (Nat.le_refl _), h.moved, List.getElem?_set_self (by omega),
        List.map_append]
      rfl
    · rw [List.nodup_append]
      refine ⟨h.goneOnce, List.nodup_singleton c, ?_⟩
      rintro x hx y hy rfl
      obtain rfl := List.mem_singleton.mp hy
      exact hgone hx
    · intro x hx
      rcases List.mem_append.mp hx with hx | hx
      · obtain ⟨hnot, kx, hkx⟩ := h.goneLive x hx
        have hxc : x ≠ c := fun hxc => hgone (hxc ▸ hx)
        exact ⟨fun hin => hnot (hsub x hin), kx, by simp [hxc, hkx]⟩
      · obtain rfl := List.mem_singleton.mp hx
        exact ⟨hout, _, Heap.cells_set_self _ _ _⟩
    · rw [List.length_append, List.length_singleton, hlength]
      omega

/-- The loop that removes contacts. -/
theorem Removing.removeLoop {gone : List Addr} (h : Removing s gone) (env : CmEnv) {i : Nat}
    (hi : i ≤ s.present.length) :
    ∃ s' gone', removeLoop env i gone.length s = .ok (s', (gone'.length : Int)) ∧
      Removing s' gone' := by
  induction i generalizing s gone with
  | zero => exact ⟨s, gone, rfl, h⟩
  | succ i ih =>
      have hget := List.getElem?_eq_getElem (show i < s.present.length by omega)
      generalize s.present[i] = c at hget
      obtain ⟨k, hk⟩ := h.live c (List.mem_of_getElem? hget)
      have hsmall := h.goneSmall
      rw [ContactArray.removeLoop, readSlot_eq (h.slot hget), ok_bind]
      dsimp only
      rw [Heap.load_cell hk, ok_bind]
      split
      · obtain ⟨s₁, hremove, h₁, hpresent⟩ := h.removeAt hget
        have hnext : int8 ((gone.length : Int) + 1) = ((gone ++ [c]).length : Int) := by
          rw [int8_of_small (by omega) (by omega), List.length_append, List.length_singleton]
          rfl
        rw [hremove, ok_bind, hnext]
        apply ih h₁
        rw [hpresent, List.length_eraseIdx_of_lt (by omega)]
        omega
      · exact ih h (by omega)

/-- The removed contacts from an index on are freed. -/
theorem Inv.freeLoop (h : s.Inv) {rest : List Addr} {i : Nat}
    (hmoved : (s.removed.drop i).take rest.length = rest.map some) (honce : rest.Nodup)
    (hlive : ∀ c ∈ rest, c ∉ s.present ∧ ∃ k, s.contacts.cells c = some k) :
    ∃ s', freeLoop rest.length i s = .ok s' ∧ Inv s' := by
  induction rest generalizing s i with
  | nil => exact ⟨s, rfl, h⟩
  | cons c rest ih =>
      obtain ⟨hnot, k, hk⟩ := hlive c List.mem_cons_self
      have hslot : s.removed[i]? = some (some c) := by
        have hhead := congrArg (·[0]?) hmoved
        simpa using hhead
      have hlt := (List.getElem?_eq_some_iff.mp hslot).1
      have htail : (s.removed.drop (i + 1)).take rest.length = rest.map some := by
        have hcons := hmoved
        rw [List.drop_eq_getElem_cons hlt, List.length_cons, List.take_succ_cons,
          List.map_cons] at hcons
        exact (List.cons.inj hcons).2
      have hnext : Inv { s with
          contacts := s.contacts.erase c
          removed := s.removed.set i none } := by
        refine ⟨h.size, List.length_set.trans h.sizeRemoved, h.count, h.small, h.entries,
          h.once, ?_⟩
        intro x hx
        obtain ⟨kx, hkx⟩ := h.live x hx
        have hxc : x ≠ c := fun hxc => hnot (hxc ▸ hx)
        exact ⟨kx, by simp [hxc, hkx]⟩
      rw [List.length_cons, ContactArray.freeLoop, readSlot_eq hslot, ok_bind, Heap.load_cell hk,
        ok_bind, Heap.release_cell hk, ok_bind, writeSlot_eq hlt, ok_bind]
      apply ih hnext
      · rw [List.drop_set_of_lt (by omega)]
        exact htail
      · exact (List.nodup_cons.mp honce).2
      · intro x hx
        obtain ⟨hnotx, kx, hkx⟩ := hlive x (List.mem_cons_of_mem _ hx)
        have hxc : x ≠ c := by
          rintro rfl
          exact (List.nodup_cons.mp honce).1 hx
        exact ⟨hnotx, kx, by simp [hxc, hkx]⟩

/-- **Expiry.** -/
theorem Inv.removeAndFreeExpiredContacts (h : s.Inv) (env : CmEnv) :
    ∃ s', removeAndFreeExpiredContacts env s = .ok s' ∧ Inv s' := by
  have hcount : s.count.toNat = s.present.length := by rw [h.count, Int.toNat_natCast]
  obtain ⟨contacts, hrefresh, h₁⟩ := h.refreshLoop env.now (Nat.le_refl _)
  have hnone : Removing { s with contacts } [] := by
    refine ⟨h₁, rfl, List.nodup_nil, by simp, ?_⟩
    have hsmall := h.small
    simpa using hsmall
  obtain ⟨s₂, gone, hloop, h₂⟩ := hnone.removeLoop env (Nat.le_refl _)
  obtain ⟨s₃, hfree, h₃⟩ := h₂.toInv.freeLoop (i := 0) h₂.moved h₂.goneOnce h₂.goneLive
  refine ⟨s₃, ?_, h₃⟩
  rw [ContactArray.removeAndFreeExpiredContacts, removeExpiredContacts, hcount, hrefresh, ok_bind]
  rw [List.length_nil, Int.natCast_zero] at hloop
  rw [hloop, ok_bind]
  exact hfree

/-! ## Runs -/

/-- **One event.** -/
theorem Inv.step (h : s.Inv) (op : CmOp) :
    Ends (· = .assertFailed) (step env s op) fun s' => Few s op → Inv s' := by
  cases op with
  | discovered node =>
      obtain ⟨s', hs', _, hfew⟩ := h.handleDiscoveredNeighbor env node
      rw [ContactArray.step, hs']
      exact hfew
  | connUp claAddr => exact h.handleConn claAddr true
  | connDown claAddr => exact h.handleConn claAddr false
  | expire =>
      obtain ⟨s', hs', hinv⟩ := h.removeAndFreeExpiredContacts env
      rw [ContactArray.step, hs']
      exact fun _ => hinv

theorem inv_init : contactArrayInit.Inv :=
  ⟨List.length_replicate, List.length_replicate, rfl, Nat.zero_le _, rfl, List.nodup_nil,
    fun c hc => by cases hc⟩

/-- The invariant of every run whose events satisfy the condition. -/
theorem Reachable.inv (h : Reachable Few s) : s.Inv := by
  induction h with
  | init => exact inv_init
  | step _ hfew hstep ih => exact (ih.step _).of_ok hstep hfew

theorem Found.seen {q : Contact → Bool} {r : Ptr} (h : s.Found q r) (hc : c ∈ s.present)
    (hhas : s.Has q c) : ∃ c' ∈ s.present, r = some c' ∧ s.Has q c' := by
  cases r with
  | none => exact absurd hhas (h c hc)
  | some c' => exact ⟨c', h.1, rfl, h.2⟩

/-- The invariant gives the property. -/
theorem Inv.sound (h : s.Inv) : s.Sound where
  range := by
    have hcount := h.count
    have hsmall := h.small
    show 0 ≤ s.count ∧ s.count ≤ 257
    omega
  entries := by
    rw [h.count, Int.toNat_natCast]
    exact h.entries
  once := h.once
  eidSeen := by
    intro eid heid c hc hhas
    obtain ⟨r, hr, hfound⟩ := h.findByEid heid
    obtain ⟨c', hc', rfl, hhas'⟩ := hfound.seen hc hhas
    exact ⟨c', hc', hr, hhas'⟩
  claAddrSeen := by
    intro claAddr c hc hhas
    obtain ⟨r, hr, hfound⟩ := h.findByClaAddr claAddr
    obtain ⟨c', hc', rfl, hhas'⟩ := hfound.seen hc hhas
    exact ⟨c', hc', hr, hhas'⟩
  bounds := fun _ op _ hf => (h.step op).of_error hf

/-- **The array of contacts.**  In every run in which no contact is added to 127 others, the
array, its counter and the searches are as they should be in every state. -/
theorem contact_array_sound {s : ContactArray} (h : Reachable Few s) : s.Sound := h.inv.sound

/-! ## Many contacts -/

/-- A neighbour for every number. -/
def neighbour (n : Nat) : Node := ⟨List.replicate (n + 1) 'a', List.replicate (n + 1) 'a'⟩

/-- Only neighbours with smaller numbers are present. -/
def Below (s : ContactArray) (n : Nat) : Prop :=
  ∀ c ∈ s.present, ∀ k, s.contacts.cells c = some k →
    k.node.eid.length ≤ n ∧ k.node.claAddr.length ≤ n

/-- A neighbour that is not known gets a new contact. -/
theorem Inv.discover (h : s.Inv) {n : Nat} (hbelow : Below s n) :
    ContactArray.step demoCmEnv s (.discovered (neighbour n)) =
      ContactArray.addContact demoCmEnv s (neighbour n) := by
  have hne : (neighbour n).eid ≠ eidNone := by
    intro heq
    have hhead : 'a' = 'd' := (List.cons.inj heq).1
    exact absurd hhead (by decide)
  obtain ⟨r, hr, hfound⟩ := h.findByEid hne
  have hnone : r = none := by
    cases r with
    | none => rfl
    | some c =>
        obtain ⟨hc, k, hk, hp⟩ := hfound
        have hle := (hbelow c hc k hk).1
        rw [of_decide_eq_true hp] at hle
        simp only [neighbour, List.length_replicate] at hle
        omega
  obtain ⟨r', hr', hfound'⟩ := h.findByClaAddr (neighbour n).claAddr
  have hnone' : r' = none := by
    cases r' with
    | none => rfl
    | some c =>
        obtain ⟨hc, k, hk, hp⟩ := hfound'
        have hle := (hbelow c hc k hk).2
        rw [of_decide_eq_true hp] at hle
        simp only [neighbour, List.length_replicate] at hle
        omega
  rw [ContactArray.step, ContactArray.handleDiscoveredNeighbor, hr, ok_bind, hnone]
  dsimp only
  rw [hr', ok_bind, hnone']

/-- One neighbour after the other is discovered. -/
theorem reachable_neighbours {n : Nat} (hn : n ≤ 127) :
    ∃ s, Reachable Few s ∧ s.Inv ∧ s.present.length = n ∧ Below s n := by
  induction n with
  | zero => exact ⟨_, .init, inv_init, rfl, fun c hc => by cases hc⟩
  | succ n ih =>
      obtain ⟨s, hreach, hinv, hlen, hbelow⟩ := ih (by omega)
      have hcount := hinv.count
      have hadd := hinv.addContact_eq demoCmEnv (c := s.contacts.bound) (neighbour n) rfl
      have hstep := (hinv.discover hbelow).trans hadd
      have hfew : Few s (.discovered (neighbour n)) := fun _ _ => by omega
      refine ⟨_, hreach.step hfew hstep, (hinv.step _).of_ok hstep hfew, ?_, ?_⟩
      · rw [List.length_append, hlen]
        rfl
      · intro c hc k hk
        by_cases hcb : c = s.contacts.bound
        · rw [hcb, Heap.cells_set_self] at hk
          cases hk
          simp [neighbour]
        · rw [Heap.cells_set_ne _ hcb] at hk
          rcases List.mem_append.mp hc with hc | hc
          · have hle := hbelow c hc k hk
            omega
          · exact absurd (List.mem_singleton.mp hc) hcb

/-- The largest number of contacts. -/
theorem contact_array_sound_many :
    ∃ s, Reachable Few s ∧ s.present.length = 127 ∧ s.Sound := by
  obtain ⟨s, hreach, _, hlen, _⟩ := reachable_neighbours (Nat.le_refl 127)
  exact ⟨s, hreach, hlen, contact_array_sound hreach⟩

theorem Reachable.mono {Q Q' : ContactArray → CmOp → Prop} (h : Reachable Q s)
    (hQ : ∀ s op, Q s op → Q' s op) : Reachable Q' s := by
  induction h with
  | init => exact .init
  | step _ hq hstep ih => exact ih.step (hQ _ _ hq) hstep

/-- **The counter overflows.**  With 128 neighbours it is negative. -/
theorem contact_count_negative : ¬ ∀ s, Reachable (fun _ _ => True) s → s.Sound := by
  intro hsound
  obtain ⟨s, hreach, hinv, hlen, hbelow⟩ := reachable_neighbours (Nat.le_refl 127)
  have hcount := hinv.count
  have hadd := hinv.addContact_eq demoCmEnv (c := s.contacts.bound) (neighbour 127) rfl
  have hstep := (hinv.discover hbelow).trans hadd
  have hnext : Reachable (fun _ _ => True) _ :=
    (hreach.mono fun _ _ _ => trivial).step trivial hstep
  have hrange := (hsound _ hnext).range.1
  have hfull : s.count = 127 := by omega
  dsimp only at hrange
  rw [hfull] at hrange
  exact absurd hrange (by decide)

end ContactArray

end EpidemicRouter
