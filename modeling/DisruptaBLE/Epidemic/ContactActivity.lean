import DisruptaBLE.Epidemic.ContactArray

/-!
# Activity of contacts

A contact is active while its connection is up.  `handle_conn_up` and `handle_conn_down` find a
contact by its CLA address, but `handle_discovered_neighbor` finds it by its EID first and then
replaces its node, and with it the address.

Beside the run, `ConnLog` keeps the last connection event of every address, and the address
through which a contact was activated.  `activity_told` says that the active contacts are those
whose address is connected, as long as discovery does not move a contact away from an address that
is connected, or to one, and an address that comes up belongs to one contact.
`activity_lost_on_move` is a run in which a neighbour changes its address.
-/

namespace EpidemicRouter

namespace ContactArray

open PtrHeap Outcome

/-- What was seen of the connections. -/
structure ConnLog where
  /-- the last connection event of an address: up or down -/
  last : CStr → Option Bool
  /-- the address through which a contact was activated -/
  via : Addr → Option CStr

/-- The address and the activity of a contact. -/
def tag (s : ContactArray) (c : Addr) : Option (CStr × Bool) :=
  (s.contacts.cells c).map fun k => (k.node.claAddr, k.active)

/-- The contact is active. -/
def Active (s : ContactArray) (c : Addr) : Prop := ∃ claAddr, s.tag c = some (claAddr, true)

instance (s : ContactArray) (c : Addr) : Decidable (s.Active c) :=
  decidable_of_iff ((s.tag c).map Prod.snd = some true) (by simp [Active])

/-- The contact has this address. -/
def At (s : ContactArray) (claAddr : CStr) (c : Addr) : Prop :=
  ∃ active, s.tag c = some (claAddr, active)

/-- The log after an event. -/
def ConnLog.record (g : ConnLog) (s s' : ContactArray) : CmOp → ConnLog
  | .connUp claAddr =>
      { last := fun a => if a = claAddr then some true else g.last a
        via := fun c => if ¬ s.Active c ∧ s'.Active c then some claAddr else g.via c }
  | .connDown claAddr => { g with last := fun a => if a = claAddr then some false else g.last a }
  | _ => g

/-- The runs with their logs; every event satisfies `Q`. -/
inductive Tracked (Q : ContactArray → ConnLog → CmEnv → CmOp → Prop) :
    ContactArray → ConnLog → Prop where
  | init : Tracked Q contactArrayInit ⟨fun _ => none, fun _ => none⟩
  | step {s s' : ContactArray} {g : ConnLog} {env : CmEnv} {op : CmOp} :
      Tracked Q s g → Q s g env op → step env s op = .ok s' → Tracked Q s' (g.record s s' op)

/-- **The property.**  No contact that was activated through an address that is not up is still
active, and for every address that is up there is exactly one contact, which is active. -/
structure ActivityTold (s : ContactArray) (g : ConnLog) : Prop where
  quiet : ∀ claAddr, g.last claAddr ≠ some true →
    ∀ c ∈ s.present, g.via c = some claAddr → ¬ s.Active c
  connected : ∀ claAddr, g.last claAddr = some true →
    ∃ c ∈ s.present, s.At claAddr c ∧ s.Active c ∧ ∀ c' ∈ s.present, s.At claAddr c' → c' = c

/-- The events that the property is about: no expiry, and fewer than 128 contacts. -/
def Counted (s : ContactArray) (op : CmOp) : Prop := op ≠ .expire ∧ Few s op

/-- **The condition** on an event.  A neighbour whose EID is known under another address leaves no
address that is up, and comes to none.  An address that comes up belongs to at most one contact,
and if it belongs to none there is memory for a new contact. -/
def Settled (s : ContactArray) (g : ConnLog) (env : CmEnv) : CmOp → Prop
  | .discovered node => ∀ c claAddr active, findContactInfoByEid s node.eid = .ok (some c) →
      s.tag c = some (claAddr, active) → claAddr ≠ node.claAddr →
      g.last claAddr ≠ some true ∧ g.last node.claAddr ≠ some true
  | .connUp claAddr =>
      (∀ c ∈ s.present, ∀ c' ∈ s.present, s.At claAddr c → s.At claAddr c' → c' = c) ∧
      ((∀ c ∈ s.present, ¬ s.At claAddr c) →
        env.nodeMem = true ∧ (env.contactMem s.contacts).isSome)
  | _ => True

/-! ## What events do to addresses and activity -/

variable {s s' : ContactArray} {g : ConnLog} {env : CmEnv} {c : Addr}

/-- One contact gets a tag, and the others keep theirs. -/
def Retagged (s s' : ContactArray) (c : Addr) (t : CStr × Bool) : Prop :=
  s'.tag c = some t ∧ ∀ x, x ≠ c → s'.tag x = s.tag x

theorem tag_of {k : Contact} (h : s.contacts.cells c = some k) :
    s.tag c = some (k.node.claAddr, k.active) := by
  rw [tag, h]
  rfl

theorem retagged_set (s : ContactArray) (c : Addr) (k : Contact) :
    Retagged s { s with contacts := s.contacts.set c k } c (k.node.claAddr, k.active) := by
  refine ⟨tag_of (Heap.cells_set_self _ _ _), ?_⟩
  intro x hx
  rw [tag, tag, Heap.cells_set_ne _ hx]

theorem Retagged.at_of_ne {t : CStr × Bool} (h : Retagged s s' c t) {x : Addr} (hx : x ≠ c)
    (claAddr : CStr) : s'.At claAddr x ↔ s.At claAddr x := by
  unfold At
  rw [h.2 x hx]

theorem Retagged.at_self {t : CStr × Bool} (h : Retagged s s' c t) (claAddr : CStr) :
    s'.At claAddr c ↔ t.1 = claAddr := by
  unfold At
  rw [h.1]
  constructor
  · rintro ⟨active, ha⟩
    cases ha
    rfl
  · rintro rfl
    exact ⟨t.2, rfl⟩

theorem has_claAddr_iff (claAddr : CStr) :
    s.Has (fun k => k.node.claAddr = claAddr) c ↔ s.At claAddr c := by
  constructor
  · rintro ⟨k, hk, hp⟩
    exact ⟨k.active, by rw [tag_of hk, of_decide_eq_true hp]⟩
  · rintro ⟨active, ha⟩
    obtain ⟨k, hk, hpair⟩ := Option.map_eq_some_iff.mp ha
    exact ⟨k, hk, decide_eq_true (Prod.mk.inj hpair).1⟩

/-- A new contact. -/
structure Added (s s' : ContactArray) (c : Addr) (t : CStr × Bool) : Prop where
  retagged : Retagged s s' c t
  present : s'.present = s.present ++ [c]
  fresh : c ∉ s.present
  free : s.tag c = none

theorem Added.ne {t : CStr × Bool} (h : Added s s' c t) : ∀ x ∈ s.present, x ≠ c := by
  rintro x hx rfl
  exact h.fresh hx

theorem Added.cases {t : CStr × Bool} (h : Added s s' c t) :
    ∀ x ∈ s'.present, x ∈ s.present ∨ x = c := by
  intro x hx
  rw [h.present, List.mem_append, List.mem_singleton] at hx
  exact hx

theorem Added.kept {t : CStr × Bool} (h : Added s s' c t) : ∀ x ∈ s.present, x ∈ s'.present := by
  intro x hx
  rw [h.present]
  exact List.mem_append_left _ hx

/-- What `handle_discovered_neighbor` does. -/
inductive Discovered (env : CmEnv) (node : Node) (s s' : ContactArray) : Prop where
  /-- a contact with the EID of the node -/
  | byEid {c : Addr} {claAddr : CStr} {active : Bool} (hc : c ∈ s.present)
      (hfind : findContactInfoByEid s node.eid = .ok (some c))
      (htag : s.tag c = some (claAddr, active)) (hpresent : s'.present = s.present)
      (hretag : Retagged s s' c (node.claAddr, active))
  /-- a contact with the address of the node -/
  | byClaAddr {c : Addr} (hc : c ∈ s.present) (hat : s.At node.claAddr c)
      (hpresent : s'.present = s.present) (hsame : ∀ c, s'.tag c = s.tag c)
  | noMemory (hmem : env.contactMem s.contacts = none) (hpresent : s'.present = s.present)
      (hsame : ∀ c, s'.tag c = s.tag c)
  | added {c : Addr} (hnone : ∀ c ∈ s.present, ¬ s.At node.claAddr c)
      (hadded : Added s s' c (node.claAddr, false))

/-- The contact `c` gets another node. -/
theorem swapNode_tag {node : Node} {k : Contact} (hk : s.contacts.cells c = some k)
    (hrun : swapNode env s (some c) node = .ok s') :
    s'.present = s.present ∧ Retagged s s' c (node.claAddr, k.active) := by
  rw [swapNode, Heap.modify_cell hk, ok_bind] at hrun
  cases hrun
  exact ⟨rfl, retagged_set s c { k with node, toTime := max k.toTime env.now }⟩

theorem discovered_of_run (h : s.Inv) {node : Node}
    (hrun : handleDiscoveredNeighbor env s node = .ok s') : Discovered env node s s' := by
  obtain ⟨r, hr, hmem⟩ := h.lookupEid node.eid
  rw [handleDiscoveredNeighbor, hr, ok_bind] at hrun
  cases r with
  | some c =>
      obtain ⟨k, hk⟩ := h.live c (hmem c rfl)
      obtain ⟨hpresent, hretag⟩ := swapNode_tag hk hrun
      exact .byEid (hmem c rfl) hr (tag_of hk) hpresent hretag
  | none =>
      obtain ⟨r', hr', hfound⟩ := h.findByClaAddr node.claAddr
      dsimp only at hrun
      rw [hr', ok_bind] at hrun
      cases r' with
      | some c =>
          obtain ⟨hc, hhas⟩ := hfound
          obtain ⟨k, hk⟩ := h.live c hc
          obtain ⟨hpresent, hretag⟩ := swapNode_tag hk hrun
          refine .byClaAddr hc ((has_claAddr_iff node.claAddr).mp hhas) hpresent ?_
          -- the address stays the same
          obtain ⟨active, hat⟩ := (has_claAddr_iff node.claAddr).mp hhas
          rw [tag_of hk] at hat
          obtain ⟨haddr, _⟩ := Prod.mk.inj (Option.some.inj hat)
          intro x
          by_cases hx : x = c
          · rw [hx, hretag.1, tag_of hk, haddr]
          · exact hretag.2 x hx
      | none =>
          dsimp only at hrun
          cases hmem : env.contactMem s.contacts with
          | none =>
              have hroom : s.count < maxConcurrentContacts := by
                have hcount := h.count
                have hsmall := h.small
                show s.count < 257
                omega
              rw [addContact, if_pos hroom, h.writeNext, ok_bind, hmem] at hrun
              cases hrun
              exact .noMemory hmem rfl fun _ => rfl
          | some c =>
              rw [h.addContact_eq env node hmem] at hrun
              cases hrun
              have hfree := env.contactMem_free _ _ hmem
              refine .added (c := c) ?_ ⟨retagged_set s c ⟨node, env.now, false⟩, rfl, ?_, ?_⟩
              · intro x hx hat
                exact hfound x hx ((has_claAddr_iff node.claAddr).mpr hat)
              · intro hc
                obtain ⟨k, hk⟩ := h.live c hc
                rw [hfree] at hk
                cases hk
              · rw [tag, hfree]
                rfl

/-- What a connection event does. -/
inductive Connected (env : CmEnv) (claAddr : CStr) (active : Bool) (s s' : ContactArray) :
    Prop where
  | found {c : Addr} (hc : c ∈ s.present) (hat : s.At claAddr c)
      (hpresent : s'.present = s.present) (hretag : Retagged s s' c (claAddr, active))
  | noMemory (hnone : ∀ c ∈ s.present, ¬ s.At claAddr c)
      (hmem : env.nodeMem = true → env.contactMem s.contacts = none)
      (hpresent : s'.present = s.present) (hsame : ∀ c, s'.tag c = s.tag c)
  | added {c : Addr} (hnone : ∀ c ∈ s.present, ¬ s.At claAddr c)
      (hadded : Added s s' c (claAddr, active))

/-- The flag of a contact is set. -/
theorem setActive_tag {active : Bool} {k : Contact} (hk : s.contacts.cells c = some k)
    (hrun : setActive s (some c) active = .ok s') :
    s'.present = s.present ∧ Retagged s s' c (k.node.claAddr, active) := by
  rw [setActive, Heap.modify_cell hk, ok_bind] at hrun
  cases hrun
  exact ⟨rfl, retagged_set s c { k with active }⟩

theorem Retagged.trans {s'' : ContactArray} {t t' : CStr × Bool} (h : Retagged s s' c t)
    (h' : Retagged s' s'' c t') : Retagged s s'' c t' :=
  ⟨h'.1, fun x hx => (h'.2 x hx).trans (h.2 x hx)⟩

/-- The contact that a search by address returns gets the flag. -/
theorem setActive_at (h : s.Inv) {claAddr : CStr} {active : Bool} (hc : c ∈ s.present)
    (hat : s.At claAddr c) (hrun : setActive s (some c) active = .ok s') :
    s'.present = s.present ∧ Retagged s s' c (claAddr, active) := by
  obtain ⟨k, hk⟩ := h.live c hc
  obtain ⟨hpresent, hretag⟩ := setActive_tag hk hrun
  obtain ⟨_, ha⟩ := hat
  rw [tag_of hk] at ha
  obtain ⟨haddr, _⟩ := Prod.mk.inj (Option.some.inj ha)
  rw [haddr] at hretag
  exact ⟨hpresent, hretag⟩

/-- The contact for a missing address is created, searched again and gets the flag. -/
theorem connected_of_missing (h : s.Inv) {s₁ : ContactArray} {claAddr : CStr} {active : Bool}
    {r : Ptr} (hnone : ∀ c ∈ s.present, ¬ s.At claAddr c)
    (hfew : Few s (.discovered ⟨eidNone, claAddr⟩))
    (hdisc : handleDiscoveredNeighbor env s ⟨eidNone, claAddr⟩ = .ok s₁)
    (hr : findContactInfoByClaAddr s₁ claAddr = .ok r)
    (hkept : r = none → s' = s₁)
    (hset : ∀ c, r = some c → setActive s₁ (some c) active = .ok s') :
    Connected env claAddr active s s' := by
  obtain ⟨s₁', hs₁, _, hinv⟩ := h.handleDiscoveredNeighbor env ⟨eidNone, claAddr⟩
  obtain rfl := Except.ok.inj (hdisc.symm.trans hs₁)
  obtain ⟨r', hr', hfound⟩ := (hinv hfew).findByClaAddr claAddr
  obtain rfl := Except.ok.inj (hr.symm.trans hr')
  cases discovered_of_run h hdisc with
  | byEid _ hfind => cases hfind
  | byClaAddr hc hat => exact absurd hat (hnone _ hc)
  | noMemory hmem hpresent hsame =>
      cases r with
      | none =>
          obtain rfl := hkept rfl
          exact .noMemory hnone (fun _ => hmem) hpresent hsame
      | some c =>
          obtain ⟨active', hat⟩ := (has_claAddr_iff claAddr).mp hfound.2
          rw [hsame c] at hat
          exact absurd ⟨active', hat⟩ (hnone c (hpresent ▸ hfound.1))
  | @added c _ hadded =>
      have hself : s₁.At claAddr c := (hadded.retagged.at_self claAddr).mpr rfl
      have hin : c ∈ s₁.present := by
        rw [hadded.present]
        exact List.mem_append_right _ (List.mem_singleton_self c)
      cases r with
      | none => exact absurd ((has_claAddr_iff claAddr).mpr hself) (hfound c hin)
      | some x =>
          obtain ⟨hx, hhas⟩ := hfound
          have hat := (has_claAddr_iff claAddr).mp hhas
          -- no other contact has this address
          obtain rfl : x = c := by
            by_contra hne
            rw [hadded.present] at hx
            rcases List.mem_append.mp hx with hx | hx
            · exact hnone x hx ((hadded.retagged.at_of_ne hne claAddr).mp hat)
            · exact hne (List.mem_singleton.mp hx)
          obtain ⟨hpresent, hretag⟩ := setActive_at (hinv hfew) hx hat (hset x rfl)
          exact .added hnone
            ⟨hadded.retagged.trans hretag, hpresent.trans hadded.present, hadded.fresh, hadded.free⟩

theorem connected_of_run (h : s.Inv) {claAddr : CStr} {active : Bool}
    (hfew : findContactInfoByClaAddr s claAddr = .ok none → s.count < 127)
    (hrun : handleConn env s claAddr active = .ok s') : Connected env claAddr active s s' := by
  obtain ⟨r, hr, hfound⟩ := h.findByClaAddr claAddr
  rw [handleConn, findOrAdd, hr, ok_bind] at hrun
  cases r with
  | some c =>
      obtain ⟨hc, hhas⟩ := hfound
      have hat := (has_claAddr_iff claAddr).mp hhas
      obtain ⟨hpresent, hretag⟩ := setActive_at h hc hat hrun
      exact .found hc hat hpresent hretag
  | none =>
      have hnone : ∀ c ∈ s.present, ¬ s.At claAddr c := by
        intro x hx hat
        exact hfound x hx ((has_claAddr_iff claAddr).mpr hat)
      obtain ⟨⟨s₁, r₁⟩, hadd, hrest⟩ := bind_eq_ok.mp hrun
      obtain ⟨s₂, hmissing, hsearch⟩ := bind_eq_ok.mp hadd
      obtain ⟨r₂, hr₂, hpair⟩ := bind_eq_ok.mp hsearch
      obtain ⟨rfl, rfl⟩ := Prod.mk.inj (Except.ok.inj hpair)
      unfold handleMissingClaAddress at hmissing
      split at hmissing
      · next hnode =>
        obtain ⟨_, _, hdisc⟩ := bind_eq_ok.mp hmissing
        refine connected_of_missing h hnone (fun _ _ => hfew hr) hdisc hr₂ ?_ ?_
        · rintro rfl
          exact (Except.ok.inj hrest).symm
        · rintro c rfl
          exact hrest
      · next hnode =>
        obtain rfl := Except.ok.inj hmissing
        obtain rfl := Except.ok.inj (hr₂.symm.trans hr)
        cases hrest
        exact .noMemory hnone (fun h => absurd h hnode) rfl fun _ => rfl

/-! ## Runs -/

/-- The invariant: an active contact was activated through the address that it has, which is up;
and an address that is up has one contact, which is active. -/
structure ActivityInv (s : ContactArray) (g : ConnLog) : Prop where
  inv : s.Inv
  active : ∀ c ∈ s.present, ∀ claAddr, s.tag c = some (claAddr, true) →
    g.last claAddr = some true ∧ g.via c = some claAddr
  connected : ∀ claAddr, g.last claAddr = some true →
    ∃ c ∈ s.present, s.tag c = some (claAddr, true) ∧
      ∀ c' ∈ s.present, s.At claAddr c' → c' = c

/-- Nothing changes for the contacts that are present. -/
theorem ActivityInv.same (h : ActivityInv s g) (hinv : s'.Inv) (hpresent : s'.present = s.present)
    (hsame : ∀ c, s'.tag c = s.tag c) : ActivityInv s' g := by
  refine ⟨hinv, ?_, ?_⟩
  · intro c hc claAddr htag
    exact h.active c (hpresent ▸ hc) claAddr (hsame c ▸ htag)
  · intro claAddr hup
    obtain ⟨c, hc, htag, hone⟩ := h.connected claAddr hup
    refine ⟨c, hpresent ▸ hc, (hsame c).trans htag, ?_⟩
    intro c' hc' hat
    unfold At at hat
    rw [hsame c'] at hat
    exact hone c' (hpresent ▸ hc') hat

/-- A contact whose address is not up gets another address that is not up. -/
theorem ActivityInv.moved (h : ActivityInv s g) (hinv : s'.Inv) {old new : CStr} {active : Bool}
    (hc : c ∈ s.present) (htag : s.tag c = some (old, active))
    (hpresent : s'.present = s.present) (hretag : Retagged s s' c (new, active))
    (hold : g.last old ≠ some true) (hnew : g.last new ≠ some true) : ActivityInv s' g := by
  have hoff : active = false := by
    cases active with
    | false => rfl
    | true => exact absurd (h.active c hc old htag).1 hold
  refine ⟨hinv, ?_, ?_⟩
  · intro x hx claAddr hxtag
    by_cases hxc : x = c
    · rw [hxc, hretag.1, hoff] at hxtag
      cases hxtag
    · rw [hretag.2 x hxc] at hxtag
      exact h.active x (hpresent ▸ hx) claAddr hxtag
  · intro claAddr hup
    obtain ⟨x, hx, hxtag, hone⟩ := h.connected claAddr hup
    have hxc : x ≠ c := by
      rintro rfl
      rw [htag, hoff] at hxtag
      cases hxtag
    refine ⟨x, hpresent ▸ hx, (hretag.2 x hxc).trans hxtag, ?_⟩
    intro y hy hat
    by_cases hyc : y = c
    · rw [hyc, hretag.at_self] at hat
      exact absurd (show g.last new = some true by rw [show new = claAddr from hat]; exact hup) hnew
    · exact hone y (hpresent ▸ hy) ((hretag.at_of_ne hyc claAddr).mp hat)

/-- A new contact with an address that no other contact has. -/
theorem ActivityInv.added (h : ActivityInv s g) (hinv : s'.Inv) {new : CStr}
    (hnone : ∀ c ∈ s.present, ¬ s.At new c) (hadded : Added s s' c (new, false)) :
    ActivityInv s' g := by
  have hother := hadded.ne
  have hcases := hadded.cases
  refine ⟨hinv, ?_, ?_⟩
  · intro x hx claAddr hxtag
    rcases hcases x hx with hx | rfl
    · rw [hadded.retagged.2 x (hother x hx)] at hxtag
      exact h.active x hx claAddr hxtag
    · rw [hadded.retagged.1] at hxtag
      cases hxtag
  · intro claAddr hup
    obtain ⟨x, hx, hxtag, hone⟩ := h.connected claAddr hup
    refine ⟨x, ?_, (hadded.retagged.2 x (hother x hx)).trans hxtag, ?_⟩
    · rw [hadded.present]
      exact List.mem_append_left _ hx
    · intro y hy hat
      rcases hcases y hy with hy | rfl
      · exact hone y hy ((hadded.retagged.at_of_ne (hother y hy) claAddr).mp hat)
      · rw [hadded.retagged.at_self] at hat
        have haddr : new = claAddr := hat
        exact absurd ⟨true, haddr ▸ hxtag⟩ (hnone x hx)

/-- **A neighbour is discovered.** -/
theorem ActivityInv.discovered (h : ActivityInv s g) (hinv : s'.Inv) {node : Node}
    (hsettled : Settled s g env (.discovered node)) (hdisc : Discovered env node s s') :
    ActivityInv s' g := by
  cases hdisc with
  | @byEid c claAddr active hc hfind htag hpresent hretag =>
      by_cases hsame : claAddr = node.claAddr
      · apply h.same hinv hpresent
        intro x
        by_cases hx : x = c
        · rw [hx, hretag.1, htag, hsame]
        · exact hretag.2 x hx
      · obtain ⟨hold, hnew⟩ := hsettled c claAddr active hfind htag hsame
        exact h.moved hinv hc htag hpresent hretag hold hnew
  | byClaAddr _ _ hpresent hsame => exact h.same hinv hpresent hsame
  | noMemory _ hpresent hsame => exact h.same hinv hpresent hsame
  | added hnone hadded => exact h.added hinv hnone hadded

/-- The contact `c` has the address that comes up, and it is the only one. -/
theorem ActivityInv.up (h : ActivityInv s g) (hinv : s'.Inv) {claAddr : CStr}
    (hc : c ∈ s'.present) (hretag : Retagged s s' c (claAddr, true))
    (hothers : ∀ x ∈ s'.present, x ≠ c → x ∈ s.present ∧ ¬ s.At claAddr x)
    (hkept : ∀ x ∈ s.present, x ∈ s'.present)
    (hself : s.Active c → c ∈ s.present ∧ s.At claAddr c) :
    ActivityInv s' (g.record s s' (.connUp claAddr)) := by
  have hactive : s'.Active c := ⟨claAddr, hretag.1⟩
  refine ⟨hinv, ?_, ?_⟩
  · intro x hx a hxtag
    by_cases hxc : x = c
    · rw [hxc, hretag.1] at hxtag
      cases hxtag
      rw [hxc]
      refine ⟨if_pos rfl, ?_⟩
      by_cases hwas : s.Active c
      · -- it was active before, through the same address
        obtain ⟨hin, hat⟩ := hself hwas
        obtain ⟨b, hb⟩ := hwas
        obtain ⟨flag, hflag⟩ := hat
        rw [hb] at hflag
        obtain ⟨rfl, _⟩ := Prod.mk.inj (Option.some.inj hflag)
        exact (if_neg (fun hn => hn.1 ⟨b, hb⟩)).trans (h.active c hin b hb).2
      · exact if_pos ⟨hwas, hactive⟩
    · obtain ⟨hin, hnot⟩ := hothers x hx hxc
      rw [hretag.2 x hxc] at hxtag
      have hne : a ≠ claAddr := by
        rintro rfl
        exact hnot ⟨true, hxtag⟩
      obtain ⟨hlast, hvia⟩ := h.active x hin a hxtag
      exact ⟨(if_neg hne).trans hlast, (if_neg (fun hn => hn.1 ⟨a, hxtag⟩)).trans hvia⟩
  · intro a hup
    by_cases ha : a = claAddr
    · rw [ha]
      refine ⟨c, hc, hretag.1, ?_⟩
      intro x hx hat
      by_contra hxc
      exact (hothers x hx hxc).2 ((hretag.at_of_ne hxc claAddr).mp hat)
    · have hup' : g.last a = some true := (if_neg ha).symm.trans hup
      obtain ⟨x, hx, hxtag, hone⟩ := h.connected a hup'
      have hxc : x ≠ c := by
        rintro rfl
        have hwas : s.Active x := ⟨a, hxtag⟩
        obtain ⟨_, flag, hflag⟩ := hself hwas
        rw [hxtag] at hflag
        exact ha (Prod.mk.inj (Option.some.inj hflag)).1
      refine ⟨x, hkept x hx, (hretag.2 x hxc).trans hxtag, ?_⟩
      intro y hy hat
      by_cases hyc : y = c
      · rw [hyc, hretag.at_self] at hat
        exact absurd hat.symm ha
      · exact hone y (hothers y hy hyc).1 ((hretag.at_of_ne hyc a).mp hat)

/-- **A connection comes up.** -/
theorem ActivityInv.connUp (h : ActivityInv s g) (hinv : s'.Inv) {claAddr : CStr}
    (hsettled : Settled s g env (.connUp claAddr)) (hconn : Connected env claAddr true s s') :
    ActivityInv s' (g.record s s' (.connUp claAddr)) := by
  obtain ⟨hone, hserved⟩ := hsettled
  cases hconn with
  | @found c hc hat hpresent hretag =>
      refine h.up hinv (hpresent ▸ hc) hretag ?_ (fun x hx => hpresent ▸ hx) fun _ => ⟨hc, hat⟩
      intro x hx hxc
      have hin : x ∈ s.present := hpresent ▸ hx
      exact ⟨hin, fun hatx => hxc (hone c hc x hin hat hatx)⟩
  | noMemory hnone hmem =>
      obtain ⟨hnode, hcontact⟩ := hserved hnone
      rw [hmem hnode] at hcontact
      cases hcontact
  | @added c hnone hadded =>
      refine h.up hinv ?_ hadded.retagged ?_ hadded.kept ?_
      · rw [hadded.present]
        exact List.mem_append_right _ (List.mem_singleton_self c)
      · intro x hx hxc
        rcases hadded.cases x hx with hin | rfl
        · exact ⟨hin, hnone x hin⟩
        · exact absurd rfl hxc
      · rintro ⟨a, ha⟩
        rw [hadded.free] at ha
        cases ha

/-- No contact with the address that goes down is active any more. -/
theorem ActivityInv.down (h : ActivityInv s g) (hinv : s'.Inv) {claAddr : CStr}
    (hcases : ∀ x ∈ s'.present, (x ∈ s.present ∧ s'.tag x = s.tag x) ∨
      s'.tag x = some (claAddr, false))
    (hkept : ∀ x ∈ s.present, ¬ s.At claAddr x → x ∈ s'.present ∧ s'.tag x = s.tag x)
    (hquiet : ∀ x ∈ s'.present, s'.tag x ≠ some (claAddr, true)) :
    ActivityInv s' (g.record s s' (.connDown claAddr)) := by
  refine ⟨hinv, ?_, ?_⟩
  · intro x hx a hxtag
    have hne : a ≠ claAddr := by
      rintro rfl
      exact hquiet x hx hxtag
    rcases hcases x hx with ⟨hin, hsame⟩ | hoff
    · obtain ⟨hlast, hvia⟩ := h.active x hin a (hsame ▸ hxtag)
      exact ⟨(if_neg hne).trans hlast, hvia⟩
    · rw [hoff] at hxtag
      cases hxtag
  · intro a hup
    have hne : a ≠ claAddr := by
      rintro rfl
      rw [ConnLog.record] at hup
      dsimp only at hup
      rw [if_pos rfl] at hup
      cases hup
    obtain ⟨x, hx, hxtag, hone⟩ := h.connected a ((if_neg hne).symm.trans hup)
    have hnot : ¬ s.At claAddr x := by
      rintro ⟨flag, hflag⟩
      rw [hxtag] at hflag
      exact hne (Prod.mk.inj (Option.some.inj hflag)).1
    obtain ⟨hin, hsame⟩ := hkept x hx hnot
    refine ⟨x, hin, hsame.trans hxtag, ?_⟩
    rintro y hy ⟨flag, hflag⟩
    rcases hcases y hy with ⟨hiny, hsamey⟩ | hoff
    · exact hone y hiny ⟨flag, hsamey ▸ hflag⟩
    · rw [hoff] at hflag
      exact absurd (Prod.mk.inj (Option.some.inj hflag)).1.symm hne

/-- **A connection goes down.** -/
theorem ActivityInv.connDown (h : ActivityInv s g) (hinv : s'.Inv) {claAddr : CStr}
    (hconn : Connected env claAddr false s s') :
    ActivityInv s' (g.record s s' (.connDown claAddr)) := by
  cases hconn with
  | @found c hc hat hpresent hretag =>
      refine h.down hinv ?_ ?_ ?_
      · intro x hx
        by_cases hxc : x = c
        · exact Or.inr (hxc ▸ hretag.1)
        · exact Or.inl ⟨hpresent ▸ hx, hretag.2 x hxc⟩
      · intro x hx hnot
        have hxc : x ≠ c := by
          rintro rfl
          exact hnot hat
        exact ⟨hpresent ▸ hx, hretag.2 x hxc⟩
      · intro x hx hxtag
        by_cases hxc : x = c
        · rw [hxc, hretag.1] at hxtag
          cases hxtag
        · rw [hretag.2 x hxc] at hxtag
          have hin : x ∈ s.present := hpresent ▸ hx
          -- the address was up and had one contact only
          obtain ⟨y, _, _, hone⟩ := h.connected claAddr (h.active x hin claAddr hxtag).1
          exact hxc ((hone x hin ⟨true, hxtag⟩).trans (hone c hc hat).symm)
  | noMemory hnone _ hpresent hsame =>
      refine h.down hinv (fun x hx => Or.inl ⟨hpresent ▸ hx, hsame x⟩)
        (fun x hx _ => ⟨hpresent ▸ hx, hsame x⟩) ?_
      intro x hx hxtag
      exact hnone x (hpresent ▸ hx) ⟨true, hsame x ▸ hxtag⟩
  | @added c hnone hadded =>
      refine h.down hinv ?_ ?_ ?_
      · intro x hx
        rcases hadded.cases x hx with hin | rfl
        · exact Or.inl ⟨hin, hadded.retagged.2 x (hadded.ne x hin)⟩
        · exact Or.inr hadded.retagged.1
      · intro x hx _
        exact ⟨hadded.kept x hx, hadded.retagged.2 x (hadded.ne x hx)⟩
      · intro x hx hxtag
        rcases hadded.cases x hx with hin | rfl
        · rw [hadded.retagged.2 x (hadded.ne x hin)] at hxtag
          exact hnone x hin ⟨true, hxtag⟩
        · rw [hadded.retagged.1] at hxtag
          cases hxtag

/-- **One event.** -/
theorem ActivityInv.step (h : ActivityInv s g) {op : CmOp} (hcounted : Counted s op)
    (hsettled : Settled s g env op) (hrun : ContactArray.step env s op = .ok s') :
    ActivityInv s' (g.record s s' op) := by
  have hinv : s'.Inv := (h.inv.step op).of_ok hrun hcounted.2
  cases op with
  | discovered node => exact h.discovered hinv hsettled (discovered_of_run h.inv hrun)
  | connUp claAddr => exact h.connUp hinv hsettled (connected_of_run h.inv hcounted.2 hrun)
  | connDown claAddr => exact h.connDown hinv (connected_of_run h.inv hcounted.2 hrun)
  | expire => exact absurd rfl hcounted.1

/-- The condition of the runs. -/
def CountedSettled (s : ContactArray) (g : ConnLog) (env : CmEnv) (op : CmOp) : Prop :=
  Counted s op ∧ Settled s g env op

theorem Tracked.inv (h : Tracked CountedSettled s g) : ActivityInv s g := by
  induction h with
  | init => exact ⟨inv_init, fun c hc => (by cases hc), fun claAddr hup => by cases hup⟩
  | step _ hQ hrun ih => exact ih.step hQ.1 hQ.2 hrun

/-- **Active contacts are connected ones.**  In every run whose events satisfy the condition, the
activity of the contacts follows the connection events of their addresses. -/
theorem activity_told {s : ContactArray} {g : ConnLog} (h : Tracked CountedSettled s g) :
    ActivityTold s g where
  quiet := by
    rintro claAddr hdown c hc hvia ⟨a, hactive⟩
    obtain ⟨hup, hvia'⟩ := h.inv.active c hc a hactive
    rw [hvia] at hvia'
    cases hvia'
    exact hdown hup
  connected := by
    intro claAddr hup
    obtain ⟨c, hc, htag, hone⟩ := h.inv.connected claAddr hup
    exact ⟨c, hc, ⟨true, htag⟩, ⟨claAddr, htag⟩, hone⟩

theorem Tracked.next {Q : ContactArray → ConnLog → CmEnv → CmOp → Prop} (h : Tracked Q s g)
    (op : CmOp) (hQ : Q s g demoCmEnv op) (hrun : ContactArray.step demoCmEnv s op = .ok s') :
    Tracked Q s' (g.record s s' op) :=
  h.step hQ hrun

set_option maxRecDepth 4000 in
/-- A neighbour is discovered, its connection comes up and goes down again. -/
theorem activity_told_down : ∃ s g, Tracked CountedSettled s g ∧
    g.last "mac:a".toList = some false ∧ ActivityTold s g := by
  have hrun : ∃ s g, Tracked CountedSettled s g ∧ g.last "mac:a".toList = some false := by
    have hfound := (Tracked.init (Q := CountedSettled)).next
      (.discovered ⟨"dtn://a".toList, "mac:a".toList⟩)
      ⟨⟨by simp, fun _ _ => by decide⟩, fun _ _ _ hfind => by cases hfind⟩ rfl
    have hup := hfound.next (.connUp "mac:a".toList)
      ⟨⟨by simp, fun hnone => by cases hnone⟩, fun c hc c' hc' _ _ =>
        (List.mem_singleton.mp hc').trans (List.mem_singleton.mp hc).symm,
        fun _ => ⟨rfl, rfl⟩⟩ rfl
    exact ⟨_, _, hup.next (.connDown "mac:a".toList)
      ⟨⟨by simp, fun hnone => by cases hnone⟩, trivial⟩ rfl, rfl⟩
  obtain ⟨s, g, hreach, hlast⟩ := hrun
  exact ⟨s, g, hreach, hlast, activity_told hreach⟩

set_option maxRecDepth 4000 in
/-- **A contact stays active without a connection.**  A connected neighbour is discovered under
another address, and then its connection goes down: the event finds no contact with that address,
and the contact stays active. -/
theorem activity_lost_on_move :
    ¬ ∀ s g, Tracked (fun s _ _ op => Counted s op) s g → ActivityTold s g := by
  intro htold
  have hrun : ∃ s g, Tracked (fun s _ _ op => Counted s op) s g ∧
      g.last "mac:a".toList = some false ∧ g.via 0 = some "mac:a".toList ∧ 0 ∈ s.present ∧
      s.Active 0 := by
    have hup := ((Tracked.init (Q := fun s _ _ op => Counted s op)).next
      (.discovered ⟨"dtn://a".toList, "mac:a".toList⟩) ⟨by simp, fun _ _ => by decide⟩ rfl).next
      (.connUp "mac:a".toList) ⟨by simp, fun hnone => by cases hnone⟩ rfl
    have hdown := (hup.next (.discovered ⟨"dtn://a".toList, "mac:b".toList⟩)
      ⟨by simp, fun hnone => by cases hnone⟩ rfl).next
      (.connDown "mac:a".toList) ⟨by simp, fun _ => by decide⟩ rfl
    exact ⟨_, _, hdown, rfl, rfl, List.mem_cons_self, "mac:b".toList, rfl⟩
  obtain ⟨s, g, hreach, hlast, hvia, hmem, hactive⟩ := hrun
  exact (htold s g hreach).quiet "mac:a".toList (by rw [hlast]; decide) 0 hmem hvia hactive

end ContactArray

end EpidemicRouter
