import DisruptaBLE.Epidemic.Router

/-!
# The bundle list of the router

The list `bundle_info_list`, the cursors of the router contacts into it, and
what each part of the router does to them.

`ListInv` says that the list is a chain in memory whose tail is its last entry
and whose summary vector entries differ; `CursorInv` that the cursors of every
router contact are `NULL` or entries of the list.
-/

namespace EpidemicRouter

open PtrHeap

/-- A cursor is `NULL` or an entry of the list. -/
def Refers (l : List Addr) (p : Ptr) : Prop := ∀ a, p = some a → a ∈ l

/-- The bundle list is the chain `l`. -/
structure ListInv (s : Router) (l : List Addr) : Prop where
  chain : IsSeg s.infos BundleInfo.next s.head l none
  tail : s.tail = l.getLast?
  distinct : l.Pairwise fun a b => ∀ e f,
    s.infos.cells a = some e → s.infos.cells b = some f → e.svEntry ≠ f.svEntry

/-- Every router contact is in memory and its cursors refer to the list. -/
def CursorInv (s : Router) (l : List Addr) : Prop :=
  ∀ c ∈ s.routerContacts, ∃ rc, s.contacts.cells c = some rc ∧
    Refers l rc.currentBundle ∧ Refers l rc.nextBundleCandidate

theorem Refers.none (l : List Addr) : Refers l none := by
  intro a ha
  cases ha

theorem Refers.mono {l m : List Addr} {p : Ptr} (h : Refers l p) (hsub : ∀ a ∈ l, a ∈ m) :
    Refers m p :=
  fun a ha => hsub a (h a ha)

theorem refers_of_isSeg {infos : Heap BundleInfo} {p : Ptr} {l : List Addr}
    (h : IsSeg infos BundleInfo.next p l none) : Refers l p := by
  intro a ha
  cases l with
  | nil =>
      obtain rfl : p = Option.none := h
      cases ha
  | cons b l =>
      obtain rfl : p = some b := h.1
      cases ha
      exact List.mem_cons_self

/-- The part of a list from one of its entries on. -/
theorem isSeg_from {infos : Heap BundleInfo} {p q : Ptr} {l : List Addr}
    (h : IsSeg infos BundleInfo.next p l none) (hq : Refers l q) :
    ∃ m, IsSeg infos BundleInfo.next q m none ∧ ∀ a ∈ m, a ∈ l := by
  cases q with
  | none => exact ⟨[], rfl, by simp⟩
  | some a =>
      obtain ⟨l₁, l₂, rfl⟩ := List.append_of_mem (hq a rfl)
      obtain ⟨r, _, hr, v, hv, hrest⟩ := IsSeg.append.mp h
      exact ⟨a :: l₂, ⟨rfl, v, hv, hrest⟩, fun b hb => List.mem_append_right _ hb⟩

/-! ## Walks over the list -/

/-- The walk that builds a summary vector. -/
theorem collectSv_ok {infos : Heap BundleInfo} {p : BundleInfo → Bool} {q : Ptr}
    {l : List Addr} {fuel : Nat} (h : IsSeg infos BundleInfo.next q l none)
    (hfuel : l.length < fuel) : ∃ svs, collectSv infos p fuel q = .ok svs := by
  induction l generalizing q fuel with
  | nil =>
      obtain rfl : q = none := h
      obtain ⟨fuel, rfl⟩ : ∃ k, fuel = k + 1 := ⟨fuel - 1, by omega⟩
      exact ⟨[], rfl⟩
  | cons a l ih =>
      obtain ⟨rfl, e, he, hrest⟩ := h
      obtain ⟨fuel, rfl⟩ : ∃ k, fuel = k + 1 := ⟨fuel - 1, by omega⟩
      obtain ⟨svs, hsvs⟩ := ih hrest (by simpa using hfuel)
      refine ⟨if p e then e.svEntry :: svs else svs, ?_⟩
      simp [collectSv, Heap.load_cell he, hsvs, pure, Except.pure]

/-- An offer only reads. -/
theorem sendOfferSv_ok {s : Router} {l : List Addr} (h : ListInv s l) (env : Env)
    (rc : RouterContact) : ∃ out, sendOfferSv s env rc = .ok out ∧
      ∀ o ∈ out, ∀ p rb, o ≠ .scheduled p rb := by
  unfold sendOfferSv
  split
  · have hfuel : l.length < s.infos.bound + 1 := Nat.lt_succ_of_le h.chain.length_le
    obtain ⟨known, hknown⟩ := collectSv_ok (p := fun _ => true) h.chain hfuel
    obtain ⟨offer, hoffer⟩ :=
      collectSv_ok (p := bundleShouldBeOffered env.now (env.eid rc.contact)) h.chain hfuel
    refine ⟨[.offerSv (env.eid rc.contact) offer known], ?_, by simp⟩
    simp [hknown, hoffer, pure, Except.pure]
  · exact ⟨[], rfl, by simp⟩

/-- The search of a duplicate finds one exactly if there is one. -/
theorem hasDuplicate_spec {infos : Heap BundleInfo} (sv : SvEntry) {q : Ptr} {l : List Addr}
    {fuel : Nat} (h : IsSeg infos BundleInfo.next q l none) (hfuel : l.length < fuel) :
    ∃ b, hasDuplicate infos sv fuel q = .ok b ∧
      (b = false → ∀ a ∈ l, ∀ e, infos.cells a = some e → e.svEntry ≠ sv) := by
  induction l generalizing q fuel with
  | nil =>
      obtain rfl : q = none := h
      obtain ⟨fuel, rfl⟩ : ∃ k, fuel = k + 1 := ⟨fuel - 1, by omega⟩
      exact ⟨false, rfl, by simp⟩
  | cons a l ih =>
      obtain ⟨rfl, e, he, hrest⟩ := h
      obtain ⟨fuel, rfl⟩ : ∃ k, fuel = k + 1 := ⟨fuel - 1, by omega⟩
      by_cases hsv : sv = e.svEntry
      · refine ⟨true, ?_, by simp⟩
        simp [hasDuplicate, Heap.load_cell he, hsv, pure, Except.pure]
      · obtain ⟨b, hb, hfree⟩ := ih hrest (by simpa using hfuel)
        refine ⟨b, ?_, ?_⟩
        · simp [hasDuplicate, Heap.load_cell he, hsv, hb]
        · intro hfalse x hx f hf
          rcases List.mem_cons.mp hx with rfl | hx
          · obtain rfl : e = f := Option.some.inj (he.symm.trans hf)
            exact fun h => hsv h.symm
          · exact hfree hfalse x hx f hf

/-- The search of a candidate ends at `NULL` or at an entry that may be sent. -/
theorem findCandidate_spec {infos : Heap BundleInfo} {now : Nat} {eid : CStr}
    {sv : List SvEntry} {q : Ptr} {l : List Addr} {fuel : Nat}
    (h : IsSeg infos BundleInfo.next q l none) (hfuel : l.length < fuel) :
    findCandidate infos now eid sv fuel q = .ok none ∨
      ∃ a ∈ l, ∃ e, infos.cells a = some e ∧
        findCandidate infos now eid sv fuel q = .ok (some a) ∧
        bundleShouldBeOffered now eid e = true ∧ sv.contains e.svEntry = true ∧
        Refers l e.next := by
  induction l generalizing q fuel with
  | nil =>
      obtain rfl : q = none := h
      obtain ⟨fuel, rfl⟩ : ∃ k, fuel = k + 1 := ⟨fuel - 1, by omega⟩
      exact Or.inl rfl
  | cons a l ih =>
      obtain ⟨rfl, e, he, hrest⟩ := h
      obtain ⟨fuel, rfl⟩ : ∃ k, fuel = k + 1 := ⟨fuel - 1, by omega⟩
      by_cases hgood : bundleShouldBeOffered now eid e = true ∧ sv.contains e.svEntry = true
      · refine Or.inr ⟨a, List.mem_cons_self, e, he, ?_, hgood.1, hgood.2,
          (refers_of_isSeg hrest).mono fun b hb => List.mem_cons_of_mem _ hb⟩
        simp only [findCandidate, Heap.load_cell he, ok_bind, hgood.1, hgood.2]
        rfl
      · have hbad : (bundleShouldBeOffered now eid e && sv.contains e.svEntry) = false := by
          rw [← Bool.not_eq_true, Bool.and_eq_true]
          exact hgood
        have hstep : findCandidate infos now eid sv (fuel + 1) (some a) =
            findCandidate infos now eid sv fuel e.next := by
          simp only [findCandidate, Heap.load_cell he, ok_bind, hbad]
          rfl
        rw [hstep]
        rcases ih hrest (by simpa using hfuel) with hnone | ⟨b, hb, f, hf, hrun, hoff, hsv, hnext⟩
        · exact Or.inl hnone
        · exact Or.inr ⟨b, List.mem_cons_of_mem _ hb, f, hf, hrun, hoff, hsv,
            hnext.mono fun x hx => List.mem_cons_of_mem _ hx⟩

/-! ## Sending -/

/-- The router with another value in the memory of one router contact. -/
def Router.setContact (s : Router) (c : Addr) (rc : RouterContact) : Router :=
  { s with contacts := s.contacts.set c rc }

/-- **What `send_bundles_to_contact` can do** for a router contact `rc` at `c`: nothing,
move the cursor, or schedule the entry that the search found. -/
inductive SendResult (s : Router) (env : Env) (l : List Addr) (c : Addr) (rc : RouterContact) :
    Router → List Output → Prop where
  | idle : rc.requestSv = none ∨ rc.currentBundle.isSome → SendResult s env l c rc s []
  | moved {p : Ptr} : rc.currentBundle = none → Refers l p →
      SendResult s env l c rc (s.setContact c { rc with nextBundleCandidate := p }) []
  | sent {sv : List SvEntry} {a : Addr} {e : BundleInfo} :
      rc.requestSv = some sv → rc.currentBundle = none → a ∈ l →
      s.infos.cells a = some e → Refers l e.next → env.sendOk c = true →
      findCandidate s.infos env.now (env.eid rc.contact) sv (s.infos.bound + 1)
        rc.nextBundleCandidate = .ok (some a) →
      bundleShouldBeOffered env.now (env.eid rc.contact) e = true →
      SendResult s env l c rc
        (s.setContact c { rc with currentBundle := some a, nextBundleCandidate := e.next })
        [.scheduled (some a) (routedBundle (env.eid rc.contact) e)]

theorem sendBundlesToContact_spec {s : Router} (env : Env) {l : List Addr} {c : Addr}
    {rc : RouterContact} (hl : ListInv s l) (hc : s.contacts.cells c = some rc)
    (hnext : Refers l rc.nextBundleCandidate) :
    ∃ s' out, sendBundlesToContact s env c = .ok (s', out) ∧
      SendResult s env l c rc s' out := by
  unfold sendBundlesToContact
  rw [Heap.load_cell hc, ok_bind]
  cases hsv : rc.requestSv with
  | none => exact ⟨s, [], rfl, .idle (Or.inl hsv)⟩
  | some sv =>
      cases hcur : rc.currentBundle with
      | some a => exact ⟨s, [], rfl, .idle (Or.inr (by simp [hcur]))⟩
      | none =>
          obtain ⟨m, hm, hsub⟩ := isSeg_from hl.chain hnext
          have hfuel : m.length < s.infos.bound + 1 := Nat.lt_succ_of_le hm.length_le
          rcases @findCandidate_spec s.infos env.now (env.eid rc.contact) sv _ m _ hm hfuel
            with hrun | ⟨a, ha, e, he, hrun, hoff, _, hnext'⟩
          · refine ⟨_, _, ?_, .moved hcur (Refers.none l)⟩
            simp [hrun, Heap.modify_cell hc, Router.setContact, pure, Except.pure]
          · by_cases hok : env.sendOk c = true
            · refine ⟨_, _, ?_, .sent hsv hcur (hsub a ha) he (hnext'.mono hsub) hok hrun hoff⟩
              simp [hrun, Heap.load_cell he, hok, Heap.modify_cell hc, Router.setContact, pure,
                Except.pure]
            · have hrefers : Refers l (some a) := by
                intro b hb
                cases hb
                exact hsub a ha
              refine ⟨_, _, ?_, .moved (p := some a) hcur hrefers⟩
              simp [hrun, Heap.load_cell he, hok, Heap.modify_cell hc, Router.setContact, pure,
                Except.pure]

/-! ## Expiry -/

theorem inTransmission_spec {contacts : Heap RouterContact} {a : Addr} {cs : List Addr}
    (hlive : ∀ c ∈ cs, ∃ rc, contacts.cells c = some rc) :
    ∃ b, inTransmission contacts a cs = .ok b ∧
      (b = false → ∀ c ∈ cs, ∀ rc, contacts.cells c = some rc → rc.currentBundle ≠ some a) := by
  induction cs with
  | nil => exact ⟨false, rfl, by simp⟩
  | cons c cs ih =>
      obtain ⟨rc, hrc⟩ := hlive c List.mem_cons_self
      obtain ⟨b, hb, hfree⟩ := ih fun x hx => hlive x (List.mem_cons_of_mem _ hx)
      by_cases hcur : rc.currentBundle = some a
      · refine ⟨true, ?_, by simp⟩
        simp [inTransmission, Heap.load_cell hrc, hcur, pure, Except.pure]
      · refine ⟨b, by simp [inTransmission, Heap.load_cell hrc, hcur, hb], ?_⟩
        intro hfalse x hx rc' hrc'
        rcases List.mem_cons.mp hx with rfl | hx
        · obtain rfl : rc = rc' := Option.some.inj (hrc.symm.trans hrc')
          exact hcur
        · exact hfree hfalse x hx rc' hrc'

/-- The cursors after the removal of `a`: those on `a` stand on its successor. -/
theorem advanceCursors_spec {contacts : Heap RouterContact} {a : Addr} {next : Ptr}
    {cs : List Addr} (hlive : ∀ c ∈ cs, ∃ rc, contacts.cells c = some rc)
    (hne : next ≠ some a) :
    ∃ contacts', advanceCursors a next contacts cs = .ok contacts' ∧
      ∀ c rc, contacts.cells c = some rc → ∃ p,
        contacts'.cells c = some { rc with nextBundleCandidate := p } ∧
        (p = rc.nextBundleCandidate ∨ p = next) ∧ (c ∈ cs → p ≠ some a) := by
  induction cs generalizing contacts with
  | nil => exact ⟨contacts, rfl, fun c rc hrc => ⟨rc.nextBundleCandidate, hrc, Or.inl rfl, by simp⟩⟩
  | cons d cs ih =>
      obtain ⟨rd, hrd⟩ := hlive d List.mem_cons_self
      let adv : RouterContact → RouterContact := fun rc =>
        if rc.nextBundleCandidate = some a then { rc with nextBundleCandidate := next } else rc
      have hadv : ∀ rc, ∃ p, adv rc = { rc with nextBundleCandidate := p } ∧
          (p = rc.nextBundleCandidate ∨ p = next) ∧ p ≠ some a := by
        intro rc
        by_cases h : rc.nextBundleCandidate = some a
        · exact ⟨next, by simp [adv, h], Or.inr rfl, hne⟩
        · exact ⟨rc.nextBundleCandidate, by simp [adv, h], Or.inl rfl, h⟩
      have hlive' : ∀ c ∈ cs, ∃ rc, (contacts.set d (adv rd)).cells c = some rc := by
        intro c hc
        by_cases hcd : c = d
        · exact ⟨adv rd, by simp [hcd]⟩
        · obtain ⟨rc, hrc⟩ := hlive c (List.mem_cons_of_mem _ hc)
          exact ⟨rc, by simp [hcd, hrc]⟩
      obtain ⟨contacts', hrun, hspec⟩ := ih hlive'
      refine ⟨contacts', ?_, ?_⟩
      · rw [advanceCursors, Heap.modify_cell hrd, ok_bind]
        exact hrun
      · intro c rc hrc
        by_cases hcd : c = d
        · subst hcd
          obtain rfl : rd = rc := Option.some.inj (hrd.symm.trans hrc)
          obtain ⟨p, hp, hor, hpa⟩ := hadv rd
          obtain ⟨q, hq, hor', _⟩ := hspec c (adv rd) (by simp)
          rw [hp] at hq hor'
          refine ⟨q, hq, ?_, fun _ => ?_⟩
          · rcases hor' with rfl | rfl
            · exact hor
            · exact Or.inr rfl
          · rcases hor' with rfl | rfl
            · exact hpa
            · exact hne
        · obtain ⟨q, hq, hor, hqa⟩ := hspec c rc (by simp [hcd, hrc])
          refine ⟨q, hq, hor, fun hmem => hqa ?_⟩
          exact (List.mem_cons.mp hmem).resolve_left hcd

/-- What the expiry does: some expired entries that no contact is sending are
gone, and of the others and of the contacts only links and cursors changed. -/
structure Expired (now : Nat) (s s' : Router) (l l' : List Addr) : Prop where
  sub : l'.Sublist l
  kept : ∀ a ∈ l', ∀ e, s.infos.cells a = some e →
    ∃ n, s'.infos.cells a = some { e with next := n }
  removed : ∀ a ∈ l, a ∉ l' → (∀ e, s.infos.cells a = some e → e.expTime < now) ∧
    ∀ c ∈ s.routerContacts, ∀ rc, s.contacts.cells c = some rc → rc.currentBundle ≠ some a
  contacts : ∀ c rc, s.contacts.cells c = some rc →
    ∃ p, s'.contacts.cells c = some { rc with nextBundleCandidate := p }
  arr : s'.routerContacts = s.routerContacts
  htab : s'.htab = s.htab

theorem Expired.refl (now : Nat) (s : Router) (l : List Addr) : Expired now s s l l where
  sub := List.Sublist.refl l
  kept _ _ e he := ⟨e.next, he⟩
  removed _ ha hna := absurd ha hna
  contacts _ rc hrc := ⟨rc.nextBundleCandidate, hrc⟩
  arr := rfl
  htab := rfl

theorem Expired.trans {now : Nat} {s₁ s₂ s₃ : Router} {l₁ l₂ l₃ : List Addr}
    (h₁ : Expired now s₁ s₂ l₁ l₂) (h₂ : Expired now s₂ s₃ l₂ l₃) :
    Expired now s₁ s₃ l₁ l₃ := by
  refine ⟨h₂.sub.trans h₁.sub, ?_, ?_, ?_, h₂.arr.trans h₁.arr, h₂.htab.trans h₁.htab⟩
  · intro a ha e he
    obtain ⟨n, hn⟩ := h₁.kept a (h₂.sub.subset ha) e he
    obtain ⟨m, hm⟩ := h₂.kept a ha _ hn
    exact ⟨m, hm⟩
  · intro a ha hna
    by_cases hmid : a ∈ l₂
    · obtain ⟨hexp, hfree⟩ := h₂.removed a hmid hna
      constructor
      · intro e he
        obtain ⟨n, hn⟩ := h₁.kept a hmid e he
        have hlt := hexp _ hn
        exact hlt
      · intro c hc rc hrc
        obtain ⟨p, hp⟩ := h₁.contacts c rc hrc
        have hne := hfree c (h₁.arr ▸ hc) _ hp
        exact hne
    · exact h₁.removed a ha hmid
  · intro c rc hrc
    obtain ⟨p, hp⟩ := h₁.contacts c rc hrc
    obtain ⟨q, hq⟩ := h₂.contacts c _ hp
    exact ⟨q, hq⟩

/-- The entry before a removed one is linked to the one after it. -/
theorem unlink_spec {s : Router} {pre : List Addr} {a : Addr} (next : Ptr)
    (hpre : IsSeg s.infos BundleInfo.next s.head pre (some a)) (hnd : pre.Nodup)
    (ha : a ∉ pre) :
    ∃ infos head, unlink s a pre.getLast? next = .ok { s with infos, head } ∧
      IsSeg infos BundleInfo.next head pre next ∧
      (∀ b, b ∉ pre → infos.cells b = s.infos.cells b) ∧
      ∀ b e, s.infos.cells b = some e → ∃ n, infos.cells b = some { e with next := n } := by
  cases hlast : pre.getLast? with
  | none =>
      obtain rfl : pre = [] := by simpa using hlast
      have hhead : s.head = some a := hpre
      refine ⟨s.infos, next, ?_, rfl, fun _ _ => rfl, fun b e he => ⟨e.next, he⟩⟩
      simp [unlink, hhead]
  | some z =>
      obtain ⟨pre', rfl⟩ : ∃ m, pre = m ++ [z] := List.getLast?_eq_some_iff.mp hlast
      obtain ⟨ez, hez⟩ := hpre.live (a := z) (by simp)
      have hz : z ∉ pre' := by
        rw [List.nodup_append] at hnd
        exact fun h => hnd.2.2 z h z (by simp) rfl
      have hhead : s.head ≠ some a := by
        intro h
        cases pre' with
        | nil =>
            have hfirst : s.head = some z := hpre.1
            rw [h] at hfirst
            cases hfirst
            exact ha (by simp)
        | cons y pre' =>
            have hfirst : s.head = some y := hpre.1
            rw [h] at hfirst
            cases hfirst
            exact ha (by simp)
      refine ⟨s.infos.set z { ez with next := next }, s.head, ?_, hpre.redirect hz rfl, ?_, ?_⟩
      · simp [unlink, hhead, Heap.modify_cell hez, pure, Except.pure]
      · intro b hb
        have hbz : b ≠ z := fun h => hb (by simp [h])
        simp [hbz]
      · intro b e he
        by_cases hbz : b = z
        · subst hbz
          obtain rfl : ez = e := Option.some.inj (hez.symm.trans he)
          exact ⟨next, by simp⟩
        · exact ⟨e.next, by simp [hbz, he]⟩

/-- The tail after a removal. -/
theorem tail_after_removal {pre post : List Addr} {a : Addr} (hapost : a ∉ post) :
    (if (pre ++ a :: post).getLast? = some a then pre.getLast?
      else (pre ++ a :: post).getLast?) = (pre ++ post).getLast? := by
  cases post with
  | nil => simp
  | cons b post =>
      have hne : (b :: post).getLast? ≠ some a := fun h =>
        hapost (List.mem_of_getLast? h)
      obtain ⟨z, hz⟩ : ∃ z, (b :: post).getLast? = some z := ⟨_, List.getLast?_cons⟩
      have hsplit : (pre ++ a :: b :: post).getLast? = some z := by
        simp [List.getLast?_append, List.getLast?_cons_cons, hz]
      rw [hz] at hne
      rw [hsplit, if_neg hne, List.getLast?_append, hz]
      rfl

/-- One removal: the state that a round of the loop hands to the next one. -/
theorem expire_round {s : Router} {now : Nat} {pre post : List Addr} {a : Addr}
    {e : BundleInfo} (he : s.infos.cells a = some e) (hexp : e.expTime < now)
    (hpre : IsSeg s.infos BundleInfo.next s.head pre (some a))
    (hpost : IsSeg s.infos BundleInfo.next e.next post none)
    (htail : s.tail = (pre ++ a :: post).getLast?)
    (hcur : CursorInv s (pre ++ a :: post))
    (hfree : ∀ c ∈ s.routerContacts, ∀ rc, s.contacts.cells c = some rc →
      rc.currentBundle ≠ some a) :
    ∃ infos head contacts infos', unlink s a pre.getLast? e.next = .ok { s with infos, head } ∧
      advanceCursors a e.next s.contacts s.routerContacts.reverse = .ok contacts ∧
      infos.release (some a) = .ok infos' ∧
      IsSeg infos' BundleInfo.next head pre e.next ∧
      IsSeg infos' BundleInfo.next e.next post none ∧
      ∀ s', s' = { s with
          infos := infos', head, contacts
          tail := (if s.tail = some a then pre.getLast? else s.tail) } →
        s'.tail = (pre ++ post).getLast? ∧ CursorInv s' (pre ++ post) ∧
        Expired now s s' (pre ++ a :: post) (pre ++ post) := by
  have hall : IsSeg s.infos BundleInfo.next s.head (pre ++ a :: post) none :=
    IsSeg.append.mpr ⟨some a, hpre, rfl, e, he, hpost⟩
  have hnd := hall.nodup
  rw [List.nodup_middle, List.nodup_cons, List.nodup_append] at hnd
  obtain ⟨hanot, hndpre, _, hdisj⟩ := hnd
  have hapre : a ∉ pre := fun h => hanot (List.mem_append_left _ h)
  have hapost : a ∉ post := fun h => hanot (List.mem_append_right _ h)
  obtain ⟨infos, head, hunlink, hpre₁, hsame₁, hdata₁⟩ :=
    unlink_spec e.next hpre hndpre hapre
  have hlive : ∀ c ∈ s.routerContacts.reverse, ∃ rc, s.contacts.cells c = some rc := by
    intro c hc
    obtain ⟨rc, hrc, _⟩ := hcur c (List.mem_reverse.mp hc)
    exact ⟨rc, hrc⟩
  have hne : e.next ≠ some a := fun h => hapost (refers_of_isSeg hpost a h)
  obtain ⟨contacts, hadv, hcontacts⟩ := advanceCursors_spec hlive hne
  have hrel : infos.release (some a) = .ok (infos.erase a) :=
    Heap.release_cell ((hsame₁ a hapre).trans he)
  refine ⟨infos, head, contacts, infos.erase a, hunlink, hadv, hrel, ?_, ?_, ?_⟩
  · apply hpre₁.frame_eq
    intro b hb
    have hba : b ≠ a := fun h => hapre (h ▸ hb)
    simp [hba]
  · apply hpost.frame_eq
    intro b hb
    have hba : b ≠ a := fun h => hapost (h ▸ hb)
    have hbpre : b ∉ pre := fun h => hdisj b h b hb rfl
    simp [hba, hsame₁ b hbpre]
  · intro s' hs'
    subst hs'
    refine ⟨?_, ?_, ?_, ?_, ?_, ?_, rfl, rfl⟩
    · simp only [htail]
      exact tail_after_removal hapost
    · intro c hc
      obtain ⟨rc, hrc, hcurrent, hcand⟩ := hcur c hc
      obtain ⟨p, hp, hor, hpa⟩ := hcontacts c rc hrc
      have hmem : ∀ b, b ∈ pre ++ a :: post → b ≠ a → b ∈ pre ++ post := by
        intro b hb hba
        simp only [List.mem_append, List.mem_cons] at hb ⊢
        tauto
      refine ⟨_, hp, ?_, ?_⟩
      · intro b hb
        exact hmem b (hcurrent b hb) fun h => hfree c hc rc hrc (h ▸ hb)
      · intro b hb
        have hb : p = some b := hb
        rcases hor with rfl | rfl
        · exact hmem b (hcand b hb) fun h => hpa (List.mem_reverse.mpr hc) (h ▸ hb)
        · exact List.mem_append_right _ (refers_of_isSeg hpost b hb)
    · exact (List.sublist_cons_self a post).append_left pre
    · intro b hb f hf
      have hba : b ≠ a := fun h => hanot (h ▸ hb)
      obtain ⟨n, hn⟩ := hdata₁ b f hf
      exact ⟨n, by simp [hba, hn]⟩
    · intro b hb hnb
      obtain rfl : b = a := by
        by_contra hba
        apply hnb
        simp only [List.mem_append, List.mem_cons] at hb ⊢
        tauto
      refine ⟨fun f hf => ?_, hfree⟩
      obtain rfl : e = f := Option.some.inj (he.symm.trans hf)
      exact hexp
    · intro c rc hrc
      obtain ⟨p, hp, _⟩ := hcontacts c rc hrc
      exact ⟨p, hp⟩

/-- **The expiry loop.**  `pre` are the entries that it has passed and kept, `post`
those before it. -/
theorem expireLoop_spec {now : Nat} {fuel : Nat} {s : Router} {pre post : List Addr} {p : Ptr}
    (hfuel : post.length < fuel)
    (hpre : IsSeg s.infos BundleInfo.next s.head pre p)
    (hpost : IsSeg s.infos BundleInfo.next p post none)
    (htail : s.tail = (pre ++ post).getLast?) (hcur : CursorInv s (pre ++ post)) :
    ∃ s' out l', expireLoop now fuel s p pre.getLast? = .ok (s', out) ∧
      IsSeg s'.infos BundleInfo.next s'.head l' none ∧ s'.tail = l'.getLast? ∧
      CursorInv s' l' ∧ Expired now s s' (pre ++ post) l' ∧
      ∀ o ∈ out, ∀ p rb, o ≠ .scheduled p rb := by
  induction post generalizing fuel s pre p with
  | nil =>
      obtain rfl : p = none := hpost
      obtain ⟨fuel, rfl⟩ : ∃ k, fuel = k + 1 := ⟨fuel - 1, by omega⟩
      rw [List.append_nil] at htail hcur ⊢
      exact ⟨s, [], pre, rfl, hpre, htail, hcur, Expired.refl now s pre, by simp⟩
  | cons a post ih =>
      obtain ⟨rfl, e, he, hrest⟩ := hpost
      obtain ⟨fuel, rfl⟩ : ∃ k, fuel = k + 1 := ⟨fuel - 1, by omega⟩
      have hfuel' : post.length < fuel := by simpa using hfuel
      have hlive : ∀ c ∈ s.routerContacts.reverse, ∃ rc, s.contacts.cells c = some rc := by
        intro c hc
        obtain ⟨rc, hrc, _⟩ := hcur c (List.mem_reverse.mp hc)
        exact ⟨rc, hrc⟩
      obtain ⟨busy, hbusy, hfree⟩ := inTransmission_spec (a := a) hlive
      by_cases hdel : e.expTime < now ∧ busy = false
      · obtain ⟨hexp, rfl⟩ := hdel
        obtain ⟨infos, head, contacts, infos', hunlink, hadv, hrel, hpre', hpost', hnew⟩ :=
          expire_round he hexp hpre hrest htail hcur
            fun c hc => hfree rfl c (List.mem_reverse.mpr hc)
        obtain ⟨htail', hcur', hexpired⟩ := hnew _ rfl
        obtain ⟨s', out, l', hrun, hl', ht', hc', hexp', hout⟩ :=
          ih hfuel' hpre' hpost' htail' hcur'
        refine ⟨s', .inform e.id .bundleExpired .lifetimeExpired :: out, l', ?_, hl', ht', hc',
          hexpired.trans hexp', ?_⟩
        · have hdec : expires s now a e = .ok true := by
            simp [expires, hexp, hbusy, pure, Except.pure]
          simp only [expireLoop, Heap.load_cell he, ok_bind, hdec, if_true, hunlink, hadv, hrel]
          rw [hrun]
          rfl
        · intro o ho
          rcases List.mem_cons.mp ho with rfl | ho
          · simp
          · exact hout o ho
      · have hsplit : pre ++ a :: post = (pre ++ [a]) ++ post := by simp
        have hlast : (pre ++ [a]).getLast? = some a := by simp
        have hpre' : IsSeg s.infos BundleInfo.next s.head (pre ++ [a]) e.next :=
          IsSeg.append.mpr ⟨some a, hpre, rfl, e, he, rfl⟩
        rw [hsplit] at htail hcur ⊢
        obtain ⟨s', out, l', hrun, hrest'⟩ := ih hfuel' hpre' hrest htail hcur
        refine ⟨s', out, l', ?_, hrest'⟩
        have hdec : expires s now a e = .ok false := by
          by_cases hexp : e.expTime < now
          · have htrue : busy = true := by
              rw [← Bool.not_eq_false]
              exact fun h => hdel ⟨hexp, h⟩
            simp [expires, hexp, hbusy, htrue, pure, Except.pure]
          · simp [expires, hexp]
        rw [hlast] at hrun
        simp only [expireLoop, Heap.load_cell he, ok_bind, hdec]
        exact hrun

theorem ListInv.expired {now : Nat} {s s' : Router} {l l' : List Addr} (hl : ListInv s l)
    (hexp : Expired now s s' l l')
    (hchain : IsSeg s'.infos BundleInfo.next s'.head l' none) (htail : s'.tail = l'.getLast?) :
    ListInv s' l' := by
  refine ⟨hchain, htail, ?_⟩
  apply (hl.distinct.sublist hexp.sub).imp_of_mem
  intro a b ha hb hne e f he hf
  obtain ⟨e₀, he₀⟩ := hl.chain.live (hexp.sub.subset ha)
  obtain ⟨f₀, hf₀⟩ := hl.chain.live (hexp.sub.subset hb)
  obtain ⟨n, hn⟩ := hexp.kept a ha e₀ he₀
  obtain ⟨m, hm⟩ := hexp.kept b hb f₀ hf₀
  obtain rfl : _ = e := Option.some.inj (hn.symm.trans he)
  obtain rfl : _ = f := Option.some.inj (hm.symm.trans hf)
  exact hne e₀ f₀ he₀ hf₀

/-- **`update_bundle_info_list`** removes expired entries that no contact is
sending, and keeps the list and the cursors in order. -/
theorem updateBundleInfoList_spec {s : Router} (now : Nat) {l : List Addr} (hl : ListInv s l)
    (hcur : CursorInv s l) :
    ∃ s' out l', updateBundleInfoList s now = .ok (s', out) ∧ ListInv s' l' ∧ CursorInv s' l' ∧
      Expired now s s' l l' ∧ ∀ o ∈ out, ∀ p rb, o ≠ .scheduled p rb := by
  unfold updateBundleInfoList
  split
  · exact ⟨s, [], l, rfl, hl, hcur, Expired.refl now s l, by simp⟩
  · obtain ⟨s', out, l', hrun, hchain, htail, hcur', hexp, hout⟩ :=
      @expireLoop_spec now (s.infos.bound + 1) { s with nextBundleUpdate := now + 1 } [] l s.head
        (Nat.lt_succ_of_le hl.chain.length_le) rfl hl.chain hl.tail hcur
    have hexp' : Expired now s s' l l' :=
      ⟨hexp.sub, hexp.kept, hexp.removed, hexp.contacts, hexp.arr, hexp.htab⟩
    exact ⟨s', out, l', hrun, hl.expired hexp' hchain htail, hcur', hexp', hout⟩

/-! ## Appending -/

/-- **The append** at the end of `route_epidemic_bundle`: neither assertion fails. -/
theorem appendInfo_spec {s : Router} {l : List Addr} (hl : ListInv s l) {a : Addr}
    (ha : s.infos.cells a = none) (info : BundleInfo) (hnext : info.next = none)
    (hnew : ∀ b ∈ l, ∀ e, s.infos.cells b = some e → e.svEntry ≠ info.svEntry) :
    ∃ s', appendInfo s a info = .ok s' ∧ ListInv s' (l ++ [a]) ∧
      s'.infos.cells a = some info ∧
      (∀ b ∈ l, ∀ e, s.infos.cells b = some e →
        ∃ n, s'.infos.cells b = some { e with next := n }) ∧
      s'.contacts = s.contacts ∧ s'.routerContacts = s.routerContacts ∧ s'.htab = s.htab := by
  have hal : a ∉ l := by
    intro hmem
    obtain ⟨e, he⟩ := hl.chain.live hmem
    rw [ha] at he
    cases he
  have hpw : ∀ {s' : Router}, (∀ b ∈ l, ∀ e, s.infos.cells b = some e →
        ∃ n, s'.infos.cells b = some { e with next := n }) →
      s'.infos.cells a = some info →
      (l ++ [a]).Pairwise fun b c => ∀ e f,
        s'.infos.cells b = some e → s'.infos.cells c = some f → e.svEntry ≠ f.svEntry := by
    intro s' hkept hinfo
    rw [List.pairwise_append]
    refine ⟨?_, List.pairwise_singleton _ _, ?_⟩
    · apply hl.distinct.imp_of_mem
      intro b c hb hc hne e f he hf
      obtain ⟨e₀, he₀⟩ := hl.chain.live hb
      obtain ⟨f₀, hf₀⟩ := hl.chain.live hc
      obtain ⟨n, hn⟩ := hkept b hb e₀ he₀
      obtain ⟨m, hm⟩ := hkept c hc f₀ hf₀
      obtain rfl : _ = e := Option.some.inj (hn.symm.trans he)
      obtain rfl : _ = f := Option.some.inj (hm.symm.trans hf)
      exact hne e₀ f₀ he₀ hf₀
    · intro b hb c hc e f he hf
      obtain rfl : c = a := by simpa using hc
      obtain rfl : info = f := Option.some.inj (hinfo.symm.trans hf)
      obtain ⟨e₀, he₀⟩ := hl.chain.live hb
      obtain ⟨n, hn⟩ := hkept b hb e₀ he₀
      obtain rfl : _ = e := Option.some.inj (hn.symm.trans he)
      exact hnew b hb e₀ he₀
  cases htail : s.tail with
  | none =>
      have hlast := hl.tail
      rw [htail] at hlast
      obtain rfl : l = [] := by simpa using hlast.symm
      have hhead : s.head = none := hl.chain
      let s' : Router :=
        { s with infos := s.infos.set a info, tail := some a, head := some a }
      have hinfo : s'.infos.cells a = some info := by simp [s']
      refine ⟨s', ?_, ⟨⟨rfl, info, hinfo, hnext⟩, rfl, hpw (by simp) hinfo⟩, hinfo,
        by simp, rfl, rfl, rfl⟩
      simp [appendInfo, htail, hhead, pure, Except.pure, s']
  | some z =>
      have hlast := hl.tail
      rw [htail] at hlast
      obtain ⟨m, rfl⟩ : ∃ m, l = m ++ [z] := List.getLast?_eq_some_iff.mp hlast.symm
      obtain ⟨r, hm, rfl, ez, hez, hend⟩ := IsSeg.append.mp hl.chain
      have hzm : z ∉ m := by
        have hnd := hl.chain.nodup
        rw [List.nodup_append] at hnd
        exact fun h => hnd.2.2 z h z (by simp) rfl
      have hza : z ≠ a := fun h => hal (by simp [h])
      let infos := (s.infos.set a info).set z { ez with next := some a }
      let s' : Router := { s with infos, tail := some a }
      have hinfo : s'.infos.cells a = some info := by simp [s', infos, hza.symm]
      have hkept : ∀ b ∈ m ++ [z], ∀ e, s.infos.cells b = some e →
          ∃ n, s'.infos.cells b = some { e with next := n } := by
        intro b hb e he
        by_cases hbz : b = z
        · subst hbz
          obtain rfl : ez = e := Option.some.inj (hez.symm.trans he)
          exact ⟨some a, by simp [s', infos]⟩
        · have hba : b ≠ a := fun h => hal (h ▸ hb)
          exact ⟨e.next, by simp [s', infos, hbz, hba, he]⟩
      have hchain : IsSeg infos BundleInfo.next s.head (m ++ [z]) (some a) := by
        have hset : IsSeg (s.infos.set a info) BundleInfo.next s.head (m ++ [z]) none := by
          apply hl.chain.frame_eq
          intro b hb
          have hba : b ≠ a := fun h => hal (h ▸ hb)
          simp [hba]
        exact hset.redirect hzm rfl
      refine ⟨s', ?_, ⟨?_, by simp [s'], hpw hkept hinfo⟩, hinfo, hkept, rfl, rfl, rfl⟩
      · have hend' : ez.next = none := hend
        have hezs : (s.infos.set a info).cells z = some ez := by simp [hza, hez]
        simp [appendInfo, htail, Heap.load_cell hezs, hend', Heap.modify_cell hezs, pure,
          Except.pure, s', infos]
      · exact IsSeg.append.mpr ⟨some a, hchain, rfl, info, hinfo, hnext⟩

/-! ## Charging -/

/-- An entry after the comparison of two requests: one transmission less if it
was requested before and is not any more. -/
def BundleInfo.charge (old new : List SvEntry) (e : BundleInfo) : BundleInfo :=
  if old.contains e.svEntry && !new.contains e.svEntry && 0 < e.numPendingTransmissions then
    { e with numPendingTransmissions := e.numPendingTransmissions - 1 }
  else e

/-- Charging changes at most the number of pending transmissions. -/
theorem BundleInfo.charge_eq (old new : List SvEntry) (e : BundleInfo) :
    ∃ n, e.charge old new = { e with numPendingTransmissions := n } := by
  unfold charge
  split
  · exact ⟨_, rfl⟩
  · exact ⟨e.numPendingTransmissions, rfl⟩

theorem chargeLoop_spec {old new : List SvEntry} {fuel : Nat} {infos : Heap BundleInfo}
    {q : Ptr} {l : List Addr} (h : IsSeg infos BundleInfo.next q l none)
    (hfuel : l.length < fuel) :
    ∃ infos', chargeLoop old new fuel infos q = .ok infos' ∧
      ∀ a, infos'.cells a =
        if a ∈ l then (infos.cells a).map (BundleInfo.charge old new) else infos.cells a := by
  induction l generalizing q fuel infos with
  | nil =>
      obtain rfl : q = none := h
      obtain ⟨fuel, rfl⟩ : ∃ k, fuel = k + 1 := ⟨fuel - 1, by omega⟩
      exact ⟨infos, rfl, by simp⟩
  | cons b l ih =>
      have hnd := h.nodup
      obtain ⟨rfl, e, he, hrest⟩ := h
      obtain ⟨fuel, rfl⟩ : ∃ k, fuel = k + 1 := ⟨fuel - 1, by omega⟩
      obtain ⟨hbl, _⟩ := List.nodup_cons.mp hnd
      have hrest' : IsSeg (infos.set b (e.charge old new)) BundleInfo.next e.next l none := by
        apply hrest.frame_eq
        intro a ha
        have hab : a ≠ b := fun h => hbl (h ▸ ha)
        simp [hab]
      obtain ⟨infos', hrun, hcells⟩ := ih hrest' (by simpa using hfuel)
      refine ⟨infos', ?_, ?_⟩
      · rw [chargeLoop, Heap.load_cell he, ok_bind, Heap.modify_cell he, ok_bind]
        exact hrun
      · intro a
        rw [hcells a]
        by_cases hab : a = b
        · subst hab
          simp [hbl, he]
        · simp [hab]

/-- The comparison with the previous request, if there was one. -/
def chargedBy (old : Option (List SvEntry)) (new : List SvEntry) (e : BundleInfo) : BundleInfo :=
  match old with
  | none => e
  | some old => e.charge old new

theorem chargedBy_eq (old : Option (List SvEntry)) (new : List SvEntry) (e : BundleInfo) :
    ∃ n, chargedBy old new e = { e with numPendingTransmissions := n } := by
  cases old with
  | none => exact ⟨e.numPendingTransmissions, rfl⟩
  | some old => exact e.charge_eq old new

theorem chargeBundles_spec {s : Router} {l : List Addr} (hl : ListInv s l)
    (old : Option (List SvEntry)) (new : List SvEntry) :
    ∃ infos, chargeBundles s old new = .ok infos ∧
      ∀ a, infos.cells a =
        if a ∈ l then (s.infos.cells a).map (chargedBy old new) else s.infos.cells a := by
  cases old with
  | none => exact ⟨s.infos, rfl, fun a => by simp [show chargedBy none new = id from rfl]⟩
  | some old =>
      obtain ⟨infos, hrun, hcells⟩ :=
        @chargeLoop_spec old new _ _ _ _ hl.chain (Nat.lt_succ_of_le hl.chain.length_le)
      exact ⟨infos, hrun, hcells⟩

/-- The list invariant only depends on links and hashes. -/
theorem ListInv.frame {s s' : Router} {l : List Addr} (hl : ListInv s l)
    (hhead : s'.head = s.head) (htail : s'.tail = s.tail)
    (hsame : ∀ a ∈ l, ∀ e, s.infos.cells a = some e →
      ∃ e', s'.infos.cells a = some e' ∧ e'.next = e.next ∧ e'.svEntry = e.svEntry) :
    ListInv s' l := by
  refine ⟨?_, htail.trans hl.tail, ?_⟩
  · rw [hhead]
    apply hl.chain.frame
    intro a ha e he
    obtain ⟨e', he', hnext, _⟩ := hsame a ha e he
    exact ⟨e', he', hnext⟩
  · apply hl.distinct.imp_of_mem
    intro a b ha hb hne e f he hf
    obtain ⟨e₀, he₀⟩ := hl.chain.live ha
    obtain ⟨f₀, hf₀⟩ := hl.chain.live hb
    obtain ⟨e', he', _, hsv⟩ := hsame a ha e₀ he₀
    obtain ⟨f', hf', _, hsv'⟩ := hsame b hb f₀ hf₀
    obtain rfl : e' = e := Option.some.inj (he'.symm.trans he)
    obtain rfl : f' = f := Option.some.inj (hf'.symm.trans hf)
    rw [hsv, hsv']
    exact hne e₀ f₀ he₀ hf₀

end EpidemicRouter
