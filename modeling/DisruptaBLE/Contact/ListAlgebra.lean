import DisruptaBLE.Contact.Verification
import DisruptaBLE.Lib.IncreasingLists

/-!
# The algebra of contact lists

What `contact_list_union` and `contact_list_difference` return when every request for memory is
served: the union is the join of the two lists by from-time, with the contacts of `a` merged with
those of `b` that have the same times, and the difference is a part of `a` in its order.
-/

namespace RoutingTable

open PtrHeap Outcome IncreasingLists
open EpidemicRouter (CStr)

/-! ## Lists of EIDs -/

/-- Equal pointers point to the same characters. -/
def OneString (l : List Eid) : Prop := ∀ x ∈ l, ∀ y ∈ l, x.ptr = y.ptr → x.str = y.str

/-- `endpoint_list_union`, with all requests served. -/
def eidUnion (a b : List Eid) : List Eid := (endpointListUnion (fun _ => true) 0 a b).1

/-- What is added does not depend on the number of the request. -/
theorem endpointListUnion_served (k : Nat) (a b : List Eid) :
    (endpointListUnion (fun _ => true) k a b).1 = eidUnion a b := by
  unfold eidUnion
  generalize 0 = k'
  induction b generalizing k k' a with
  | nil => rfl
  | cons e b ih =>
      by_cases h : containsEid a e = true
      · simpa only [endpointListUnion, endpointListAdd, if_pos h] using ih k a k'
      · simpa only [endpointListUnion, endpointListAdd, if_neg h] using ih _ _ _

theorem eidUnion_cons (a b : List Eid) (e : Eid) :
    eidUnion a (e :: b) = eidUnion (if containsEid a e then a else insertEid a e) b := by
  by_cases h : containsEid a e = true
  · simp only [eidUnion, endpointListUnion, endpointListAdd, if_pos h]
  · simp only [endpointListUnion, endpointListAdd, if_neg h, if_pos, eidUnion]
    exact endpointListUnion_served _ _ _

theorem containsEid_iff {a : List Eid} {e : Eid} (h : ∀ x ∈ a, x.ptr = e.ptr → x.str = e.str) :
    containsEid a e = true ↔ e.str ∈ strings a := by
  simp only [containsEid, List.any_eq_true, Bool.or_eq_true, decide_eq_true_eq, strings,
    List.mem_map]
  constructor
  · rintro ⟨x, hx, hptr | hstr⟩
    · exact ⟨x, hx, h x hx hptr⟩
    · exact ⟨x, hx, hstr⟩
  · rintro ⟨x, hx, hstr⟩
    exact ⟨x, hx, .inr hstr⟩

theorem mem_insertEid {l : List Eid} {e x : Eid} : x ∈ insertEid l e ↔ x = e ∨ x ∈ l := by
  have hsplit : l.takeWhile (fun x => x.ptr ≤ e.ptr) ++ l.dropWhile (fun x => x.ptr ≤ e.ptr) = l :=
    List.takeWhile_append_dropWhile
  unfold insertEid
  nth_rewrite 3 [← hsplit]
  simp only [List.mem_append, List.mem_cons]
  tauto

/-- The union has the EIDs of `a`, and those of `b` that are not in `a`. -/
theorem strings_eidUnion {a b : List Eid} (hone : OneString (a ++ b)) (hb : (strings b).Nodup) :
    (strings (eidUnion a b)).Perm (strings a ++ (strings b).filter (· ∉ strings a)) := by
  induction b generalizing a with
  | nil => simp [eidUnion, endpointListUnion, strings]
  | cons e b ih =>
      have hcons : strings (e :: b) = e.str :: strings b := rfl
      rw [hcons] at hb ⊢
      obtain ⟨he, hb⟩ := List.nodup_cons.mp hb
      have hcontains : containsEid a e = true ↔ e.str ∈ strings a :=
        containsEid_iff fun x hx => hone x (by simp [hx]) e (by simp)
      rw [eidUnion_cons]
      by_cases hmem : e.str ∈ strings a
      · have hone' : OneString (a ++ b) := fun x hx y hy =>
          hone x (by simp at hx ⊢; tauto) y (by simp at hy ⊢; tauto)
        rw [if_pos (hcontains.2 hmem), List.filter_cons_of_neg (by simpa using hmem)]
        exact ih hone' hb
      · have hone' : OneString (insertEid a e ++ b) := fun x hx y hy =>
          hone x (by simp [mem_insertEid] at hx ⊢; tauto) y (by simp [mem_insertEid] at hy ⊢; tauto)
        have hperm := strings_insertEid a e
        have hfilter : (strings b).filter (· ∉ strings (insertEid a e)) =
            (strings b).filter (· ∉ strings a) := by
          refine List.filter_congr fun t ht => ?_
          have hne : t ≠ e.str := fun h => he (h ▸ ht)
          simp [hperm.mem_iff, hne]
        rw [if_neg (mt hcontains.1 hmem), List.filter_cons_of_pos (by simpa using hmem)]
        have hrest := ih hone' hb
        rw [hfilter] at hrest
        exact (hrest.trans (hperm.append_right _)).trans List.perm_middle.symm

theorem endpointListRemove_eq_filter {a : List Eid} {e : Eid} (ha : (strings a).Nodup) :
    endpointListRemove a e = a.filter (·.str ≠ e.str) := by
  unfold endpointListRemove
  induction a with
  | nil => rfl
  | cons x a ih =>
      obtain ⟨hx, ha⟩ := List.nodup_cons.mp ha
      by_cases h : x.str = e.str
      · have hrest : a.filter (·.str ≠ e.str) = a := by
          rw [List.filter_eq_self]
          intro y hy
          have hne : y.str ≠ e.str := fun hye =>
            hx (List.mem_map.mpr ⟨y, hy, hye.trans h.symm⟩)
          simpa using hne
        rw [List.eraseP_cons_of_pos (by simpa using h), List.filter_cons_of_neg (by simpa using h),
          hrest]
      · rw [List.eraseP_cons_of_neg (by simpa using h), List.filter_cons_of_pos (by simpa using h),
          ih ha]

/-- The difference has the EIDs of `a` that are not in `b`. -/
theorem endpointListDifference_eq_filter {a b : List Eid} (ha : (strings a).Nodup) :
    endpointListDifference a b = a.filter (·.str ∉ strings b) := by
  unfold endpointListDifference
  induction b generalizing a with
  | nil => simp [strings]
  | cons e b ih =>
      have hrest : (strings (endpointListRemove a e)).Nodup := by
        rw [endpointListRemove_eq_filter ha]
        exact ha.sublist (List.filter_sublist.map _)
      rw [List.foldl_cons, ih hrest, endpointListRemove_eq_filter ha, List.filter_filter]
      refine List.filter_congr fun x _ => ?_
      have hcons : strings (e :: b) = e.str :: strings b := rfl
      simp [hcons, Bool.and_comm]

/-! ## One sweep of the union -/

section

variable {s : Table} {f : Addr → Contact} {a b : List Addr} {cur : Addr} {c : Contact}

/-- Whether two contacts have the same times. -/
def sameTimes (c d : Contact) : Bool := d.fromTime = c.fromTime && d.toTime = c.toTime

/-- `merge_contacts`, on the contacts, with all requests served. -/
def merged (c d : Contact) : Contact :=
  let c := { c with contactEndpoints := eidUnion c.contactEndpoints d.contactEndpoints }
  if c.bitrate ≠ d.bitrate then recalculateContactCapacity { c with bitrate := d.bitrate } else c

/-- The contact of `b` with the times of `c`. -/
def partner (f : Addr → Contact) (b : List Addr) (c : Contact) : Option Addr :=
  b.find? fun y => sameTimes c (f y)

/-- The contact after the union with `b`. -/
def joined (f : Addr → Contact) (b : List Addr) (c : Contact) : Contact :=
  (partner f b c).elim c fun y => merged c (f y)

/-- Whether the union with `b` changes the bitrate. -/
def rateChanged (f : Addr → Contact) (b : List Addr) (c : Contact) : Bool :=
  (partner f b c).any fun y => c.bitrate ≠ (f y).bitrate

@[simp] theorem merged_fromTime (c d : Contact) : (merged c d).fromTime = c.fromTime := by
  unfold merged
  dsimp only
  split <;> rfl

/-- The from-time, as the key of a list of contacts. -/
def start (f : Addr → Contact) (x : Addr) : Nat := (f x).fromTime.toNat

theorem partner_eq_none (h : ∀ y ∈ b, start f y ≠ c.fromTime.toNat) : partner f b c = none := by
  rw [partner, List.find?_eq_none]
  intro y hy htimes
  simp only [sameTimes, Bool.and_eq_true, decide_eq_true_eq] at htimes
  exact h y hy (congrArg UInt64.toNat htimes.1)

@[simp] theorem joined_fromTime (c : Contact) : (joined f b c).fromTime = c.fromTime := by
  unfold joined
  cases partner f b c with
  | none => rfl
  | some y => exact merged_fromTime c (f y)

theorem mergeContacts_eq {old new : Addr} {o n : Contact} (ho : s.contacts.cells old = some o)
    (hn : s.contacts.cells new = some n) :
    ∃ k, mergeContacts (fun _ => true) s old new = .ok (decide (o.bitrate ≠ n.bitrate),
      { s with contacts := s.contacts.set old (merged o n), requests := k }) := by
  have hunion := endpointListUnion_served s.requests o.contactEndpoints n.contactEndpoints
  refine ⟨(endpointListUnion (fun _ => true) s.requests o.contactEndpoints
    n.contactEndpoints).2, ?_⟩
  unfold mergeContacts merged
  rw [Heap.load_cell ho, ok_bind, Heap.load_cell hn, ok_bind]
  by_cases h : o.bitrate = n.bitrate
  · simp [h, hunion, pure, Except.pure]
  · simp [h, hunion, pure, Except.pure]

theorem freeContact_eq {d : Contact} (hd : s.contacts.cells cur = some d)
    (hact : d.active = false) :
    freeContact s cur = .ok { s with contacts := s.contacts.erase cur } := by
  unfold freeContact
  rw [Heap.load_cell hd, ok_bind, hact]
  rfl

/-- Nothing of `b` belongs to an entry that is earlier than all of `b`. -/
theorem unionBefore_behind (modified : List Addr) (hc : s.contacts.cells cur = some c)
    (hb : ∀ y ∈ b, s.contacts.cells y = some (f y))
    (hlt : ∀ y ∈ b, c.fromTime.toNat < start f y) :
    unionBefore (fun _ => true) cur modified s b = .ok ([], b, modified, s) := by
  match b with
  | [] => rfl
  | y :: b =>
      have hy := hlt y List.mem_cons_self
      have hnlt : ¬ (f y).fromTime < c.fromTime := fun h => absurd h (Nat.lt_asymm hy)
      have hne : (f y).fromTime ≠ c.fromTime := fun h => hy.ne (congrArg UInt64.toNat h.symm)
      unfold unionBefore
      rw [Heap.load_cell hc, ok_bind, Heap.load_cell (hb y List.mem_cons_self), ok_bind,
        if_neg hnlt, if_neg hne]
      rfl

/-- What the inner loop of the union does to the heap: the entry is joined with `b`, and what has
another time stays. -/
structure SweptAt (f : Addr → Contact) (b : List Addr) (cur : Addr) (c : Contact)
    (s s' : Table) : Prop where
  self : s'.contacts.cells cur = some (joined f b c)
  other : ∀ x, x ≠ cur → (x ∈ b → start f x ≠ c.fromTime.toNat) →
    s'.contacts.cells x = s.contacts.cells x

/-- The inner loop of the union, at an entry whose time is that of the head of `b`. -/
theorem unionBefore_meets {can : Addr} (modified : List Addr)
    (hc : s.contacts.cells cur = some c)
    (hb : ∀ y ∈ can :: b, s.contacts.cells y = some (f y)) (hcur : cur ∉ can :: b)
    (hinc : Increasing (start f) (can :: b)) (hact : (f can).active = false)
    (hcan : (f can).fromTime = c.fromTime) :
    ∃ s', unionBefore (fun _ => true) cur modified s (can :: b) = .ok ([], b,
      (if rateChanged f (can :: b) c then cur :: modified else modified), s') ∧
      SweptAt f (can :: b) cur c s s' := by
  obtain ⟨hlt, -⟩ := increasing_cons.1 hinc
  obtain ⟨hne, hcurb⟩ : cur ≠ can ∧ cur ∉ b := by simpa using hcur
  have hcan' := hb can List.mem_cons_self
  have hstart : start f can = c.fromTime.toNat := congrArg UInt64.toNat hcan
  have hbehind : ∀ y ∈ b, c.fromTime.toNat < start f y := fun y hy => hstart ▸ hlt y hy
  have hnlt : ¬ (f can).fromTime < c.fromTime := fun h => absurd h (hcan ▸ Nat.lt_irrefl _)
  -- behind the head of `b` there is nothing for the entry, also when it has been joined
  have hsweep : ∀ (s₁ : Table) (modified₁ : List Addr),
      s₁.contacts.cells cur = some (joined f (can :: b) c) →
      (∀ x, x ≠ cur → s₁.contacts.cells x = s.contacts.cells x) →
      ∃ s', (do let s ← freeContact s₁ can
                unionBefore (fun _ => true) cur modified₁ s b) = .ok ([], b, modified₁, s') ∧
        SweptAt f (can :: b) cur c s s' := by
    intro s₁ modified₁ hself hother
    refine ⟨{ s₁ with contacts := s₁.contacts.erase can }, ?_, ?_, fun x hx hstay => ?_⟩
    · rw [freeContact_eq ((hother can hne.symm).trans hcan') hact, ok_bind]
      refine unionBefore_behind (f := f) modified₁ (c := joined f (can :: b) c) ?_ (fun y hy => ?_)
        fun y hy => ?_
      · exact (Heap.cells_erase_ne _ hne).trans hself
      · have hyc : y ≠ cur := fun h => hcurb (h ▸ hy)
        have hyn : y ≠ can := by
          rintro rfl
          exact (hlt y hy).ne rfl
        rw [Heap.cells_erase_ne _ hyn, hother y hyc]
        exact hb y (List.mem_cons_of_mem can hy)
      · exact (joined_fromTime (f := f) (b := can :: b) c).symm ▸ hbehind y hy
    · exact (Heap.cells_erase_ne _ hne).trans hself
    · have hxn : x ≠ can := by
        rintro rfl
        exact hstay List.mem_cons_self hstart
      exact (Heap.cells_erase_ne _ hxn).trans (hother x hx)
  unfold unionBefore
  rw [Heap.load_cell hc, ok_bind, Heap.load_cell hcan', ok_bind, if_neg hnlt, if_pos hcan]
  by_cases hto : (f can).toTime = c.toTime
  · have hpartner : partner f (can :: b) c = some can :=
      List.find?_cons_of_pos (by simp [sameTimes, hcan, hto])
    obtain ⟨k, hmerge⟩ := mergeContacts_eq hc hcan'
    have hjoined : joined f (can :: b) c = merged c (f can) := by rw [joined, hpartner]; rfl
    have hchanged : rateChanged f (can :: b) c = decide (c.bitrate ≠ (f can).bitrate) := by
      rw [rateChanged, hpartner]; rfl
    rw [if_pos hto, hmerge, ok_bind, hchanged]
    have hself := Heap.cells_set_self s.contacts cur (merged c (f can))
    rw [← hjoined] at hself ⊢
    by_cases hrate : c.bitrate = (f can).bitrate
    · simp only [hrate, ne_eq, not_true, decide_false]
      exact hsweep _ modified hself fun x hx => Heap.cells_set_ne _ hx _
    · simp only [hrate, ne_eq, not_false_eq_true, decide_true]
      exact hsweep _ (cur :: modified) hself fun x hx => Heap.cells_set_ne _ hx _
  · have hpartner : partner f (can :: b) c = none := by
      rw [partner, List.find?_cons_of_neg (by simp [sameTimes, hto])]
      exact partner_eq_none fun y hy => (hbehind y hy).ne'
    have hjoined : joined f (can :: b) c = c := by rw [joined, hpartner]; rfl
    have hchanged : rateChanged f (can :: b) c = false := by rw [rateChanged, hpartner]; rfl
    rw [if_neg hto, hchanged]
    exact hsweep s modified (hjoined.symm ▸ hc) fun _ _ => rfl

/-- **The inner loop of the union**: what is earlier than the entry goes before it, and what is
later stays in `b`. -/
theorem unionBefore_eq (modified : List Addr) (hc : s.contacts.cells cur = some c)
    (hb : ∀ y ∈ b, s.contacts.cells y = some (f y)) (hcur : cur ∉ b)
    (hinc : Increasing (start f) b) (hact : ∀ y ∈ b, (f y).active = false) :
    ∃ s', unionBefore (fun _ => true) cur modified s b =
      .ok (b.filter (start f · < c.fromTime.toNat), b.filter (c.fromTime.toNat < start f ·),
        (if rateChanged f b c then cur :: modified else modified), s') ∧
      SweptAt f b cur c s s' := by
  induction b with
  | nil => exact ⟨s, rfl, hc, fun _ _ _ => rfl⟩
  | cons can b ih =>
      have hrest := (increasing_cons.1 hinc).2
      rcases lt_trichotomy (start f can) c.fromTime.toNat with hlt | heq | hgt
      · -- inserted before the entry
        have hother : sameTimes c (f can) = false := by
          have hne : (f can).fromTime ≠ c.fromTime := fun h => hlt.ne (congrArg UInt64.toNat h)
          simp [sameTimes, hne]
        have hpartner : partner f (can :: b) c = partner f b c :=
          List.find?_cons_of_neg (by simp [hother])
        obtain ⟨s', hloop, hself, hstay⟩ := ih (fun y hy => hb y (List.mem_cons_of_mem can hy))
          (fun h => hcur (List.mem_cons_of_mem can h)) hrest
          fun y hy => hact y (List.mem_cons_of_mem can hy)
        have hchanged : rateChanged f (can :: b) c = rateChanged f b c := by
          rw [rateChanged, hpartner]; rfl
        have hlt' : (f can).fromTime < c.fromTime := hlt
        refine ⟨s', ?_, ?_, fun x hx hxb => hstay x hx fun h => hxb (List.mem_cons_of_mem can h)⟩
        · unfold unionBefore
          rw [Heap.load_cell hc, ok_bind, Heap.load_cell (hb can List.mem_cons_self), ok_bind,
            if_pos hlt', hloop, ok_bind, hchanged,
            List.filter_cons_of_pos (by simpa using hlt),
            List.filter_cons_of_neg (by simpa using hlt.le)]
          rfl
        · rw [joined, hpartner]
          exact hself
      · -- the entry has a contact of `b` with its from-time
        have hfrom : (f can).fromTime = c.fromTime := UInt64.toNat_inj.mp heq
        obtain ⟨s', hloop, hswept⟩ := unionBefore_meets modified hc hb hcur hinc
          (hact can List.mem_cons_self) hfrom
        refine ⟨s', ?_, hswept⟩
        rw [hloop, hinc.filter_lt_of_head heq.ge, hinc.filter_gt_head heq]
      · -- all of `b` is later
        have hlater : ∀ y ∈ can :: b, c.fromTime.toNat < start f y := fun y hy =>
          hinc.lt_of_head hgt hy
        have hpartner : partner f (can :: b) c = none :=
          partner_eq_none fun y hy => (hlater y hy).ne'
        refine ⟨s, ?_, ?_, fun _ _ _ => rfl⟩
        · rw [unionBefore_behind modified hc hb hlater, hinc.filter_lt_of_head hgt.le,
            hinc.filter_gt_of_head hgt, rateChanged, hpartner]
          rfl
        · rw [joined, hpartner]
          exact hc

/-- What is later than an entry decides about the entries behind it. -/
theorem partner_later (hlt : c.fromTime.toNat < start f cur) :
    partner f (b.filter (c.fromTime.toNat < start f ·)) (f cur) = partner f b (f cur) := by
  refine find?_filter_gt _ fun y _ hy => ?_
  simp only [sameTimes, Bool.and_eq_true, decide_eq_true_eq] at hy
  rw [start, hy.1]
  exact hlt

/-- **The outer loop of the union** joins the lists by from-time, and each contact of `a` with
its partner. -/
theorem unionLoop_eq (modified : List Addr)
    (ha : ∀ x ∈ a, s.contacts.cells x = some (f x))
    (hb : ∀ y ∈ b, s.contacts.cells y = some (f y)) (hdisj : a.Disjoint b)
    (hinca : Increasing (start f) a) (hincb : Increasing (start f) b)
    (hact : ∀ y ∈ b, (f y).active = false) :
    ∃ s', unionLoop (fun _ => true) modified s a b = .ok (join (start f) a b,
        (a.filter fun x => rateChanged f b (f x)).reverse ++ modified, s') ∧
      (∀ x ∈ a, s'.contacts.cells x = some (joined f b (f x))) ∧
      ∀ x, x ∉ a → (x ∈ b → x ∈ fresh (start f) a b) →
        s'.contacts.cells x = s.contacts.cells x := by
  induction a generalizing s b modified with
  | nil => exact ⟨s, rfl, by simp, fun _ _ _ => rfl⟩
  | cons cur a ih =>
      obtain ⟨hcurb, hdisj⟩ := List.disjoint_cons_left.mp hdisj
      obtain ⟨hlater, hinca⟩ := increasing_cons.1 hinca
      have hcura : cur ∉ a := fun h => (hlater cur h).ne rfl
      obtain ⟨s₁, hfirst, hself, hstay⟩ := unionBefore_eq modified
        (ha cur List.mem_cons_self) hb hcurb hincb hact
      let rest := b.filter (start f cur < start f ·)
      have hmem : ∀ y, y ∈ rest ↔ y ∈ b ∧ start f cur < start f y := by simp [rest]
      have ha₁ : ∀ x ∈ a, s₁.contacts.cells x = some (f x) := by
        intro x hx
        rw [hstay x (fun h => hcura (h ▸ hx)) fun hxb => absurd hxb (hdisj hx)]
        exact ha x (List.mem_cons_of_mem cur hx)
      have hb₁ : ∀ y ∈ rest, s₁.contacts.cells y = some (f y) := by
        intro y hy
        obtain ⟨hyb, hy⟩ := (hmem y).1 hy
        rw [hstay y (fun h => hcurb (h ▸ hyb)) fun _ => hy.ne']
        exact hb y hyb
      obtain ⟨s₂, hloop, hjoined, hkept⟩ := ih (s := s₁) (b := rest)
        (if rateChanged f b (f cur) then cur :: modified else modified) ha₁ hb₁
        (fun x hx hxr => hdisj hx ((hmem x).1 hxr).1) hinca (hincb.filter _)
        fun y hy => hact y ((hmem y).1 hy).1
      have hpartner : ∀ x ∈ a, partner f rest (f x) = partner f b (f x) := fun x hx =>
        partner_later (hlater x hx)
      refine ⟨s₂, ?_, ?_, ?_⟩
      · have hchanged : (a.filter fun x => rateChanged f rest (f x)) =
            a.filter fun x => rateChanged f b (f x) :=
          List.filter_congr fun x hx => by rw [rateChanged, hpartner x hx]; rfl
        have hloop' : unionLoop (fun _ => true) _ s₁ a
            (b.filter ((f cur).fromTime.toNat < start f ·)) = _ := hloop
        unfold unionLoop
        rw [hfirst, ok_bind]
        dsimp only
        rw [hloop', ok_bind, hchanged, List.filter_cons]
        cases rateChanged f b (f cur) with
        | false => rfl
        | true => rw [if_pos rfl, if_pos rfl, List.reverse_cons, List.append_assoc]; rfl
      · intro x hx
        rcases List.mem_cons.mp hx with rfl | hx
        · rw [hkept x hcura fun h => absurd ((hmem x).1 h).1 hcurb]
          exact hself
        · rw [hjoined x hx, joined, hpartner x hx]
          rfl
      · intro x hx hfresh
        have hxa : x ∉ a := fun h => hx (List.mem_cons_of_mem cur h)
        have hxc : x ≠ cur := fun h => hx (h ▸ List.mem_cons_self)
        rw [hkept x hxa fun h => ?_, hstay x hxc fun h => ?_]
        · exact ((mem_fresh.1 (hfresh h)).2 cur List.mem_cons_self).symm
        · have hnew := (mem_fresh.1 (hfresh ((hmem x).1 h).1)).2
          exact mem_fresh.2 ⟨h, fun z hz => hnew z (List.mem_cons_of_mem cur hz)⟩

/-! ## One sweep of the difference -/

/-- Whether the difference with `b` removes the contact. -/
def gone (f : Addr → Contact) (b : List Addr) (c : Contact) : Bool :=
  (partner f b c).any fun y => (f y).contactEndpoints = []

/-- Whether the difference with `b` leaves the contact with fewer EIDs. -/
def reduced (f : Addr → Contact) (b : List Addr) (c : Contact) : Bool :=
  (partner f b c).any fun y => (f y).contactEndpoints ≠ []

/-- The contact after the difference with `b`. -/
def differed (f : Addr → Contact) (b : List Addr) (c : Contact) : Contact :=
  (partner f b c).elim c fun y =>
    { c with
      contactEndpoints := endpointListDifference c.contactEndpoints (f y).contactEndpoints }

/-- **The inner loop of the difference** finds the partner of the entry, and releases all that is
not later. -/
theorem differenceMatch_eq (hc : s.contacts.cells cur = some c)
    (hb : ∀ y ∈ b, s.contacts.cells y = some (f y)) (hcur : cur ∉ b)
    (hinc : Increasing (start f) b) (hact : ∀ y ∈ b, (f y).active = false) :
    ∃ s', differenceMatch cur s b = .ok ((partner f b c).map fun y => (f y).contactEndpoints,
        b.filter (c.fromTime.toNat < start f ·), s') ∧
      ∀ x, (x ∈ b → c.fromTime.toNat < start f x) →
        s'.contacts.cells x = s.contacts.cells x := by
  induction b generalizing s with
  | nil => exact ⟨s, rfl, fun _ _ => rfl⟩
  | cons can b ih =>
      obtain ⟨hlt, hrest⟩ := increasing_cons.1 hinc
      obtain ⟨hne, hcurb⟩ : cur ≠ can ∧ cur ∉ b := by simpa using hcur
      have hcan := hb can List.mem_cons_self
      by_cases hle : start f can ≤ c.fromTime.toNat
      · have hle' : (f can).fromTime ≤ c.fromTime := hle
        let s₁ : Table := { s with contacts := s.contacts.erase can }
        have hfree : freeContact s can = .ok s₁ := freeContact_eq hcan (hact can List.mem_cons_self)
        have herase : ∀ x, x ≠ can → s₁.contacts.cells x = s.contacts.cells x := fun x hx =>
          Heap.cells_erase_ne _ hx
        have hkept : ∀ x, (x ∈ can :: b → c.fromTime.toNat < start f x) → x ≠ can := by
          rintro x hx rfl
          exact hle.not_gt (hx List.mem_cons_self)
        unfold differenceMatch
        rw [Heap.load_cell hc, ok_bind, Heap.load_cell hcan, ok_bind, if_pos hle', hfree, ok_bind]
        by_cases htimes : (f can).fromTime = c.fromTime ∧ (f can).toTime = c.toTime
        · have hpartner : partner f (can :: b) c = some can :=
            List.find?_cons_of_pos (by simp [sameTimes, htimes])
          refine ⟨s₁, ?_, fun x hx => herase x (hkept x hx)⟩
          rw [if_pos htimes, hpartner, hinc.filter_gt_head (congrArg UInt64.toNat htimes.1)]
          rfl
        · have hpartner : partner f (can :: b) c = partner f b c :=
            List.find?_cons_of_neg (by simpa [sameTimes] using htimes)
          have hb₁ : ∀ y ∈ b, s₁.contacts.cells y = some (f y) := by
            intro y hy
            have hyn : y ≠ can := by
              rintro rfl
              exact (hlt y hy).ne rfl
            exact (herase y hyn).trans (hb y (List.mem_cons_of_mem can hy))
          obtain ⟨s', hloop, hstay⟩ := ih ((herase cur hne).trans hc) hb₁ hcurb hrest
            fun y hy => hact y (List.mem_cons_of_mem can hy)
          refine ⟨s', ?_, fun x hx => ?_⟩
          · rw [if_neg htimes, hloop, hpartner,
              List.filter_cons_of_neg (by simpa using hle)]
          · rw [hstay x fun h => hx (List.mem_cons_of_mem can h)]
            exact herase x (hkept x hx)
      · have hgt : c.fromTime.toNat < start f can := Nat.lt_of_not_le hle
        have hle' : ¬ (f can).fromTime ≤ c.fromTime := hle
        have hpartner : partner f (can :: b) c = none :=
          partner_eq_none fun y hy => (hinc.lt_of_head hgt hy).ne'
        refine ⟨s, ?_, fun _ _ => rfl⟩
        unfold differenceMatch
        rw [Heap.load_cell hc, ok_bind, Heap.load_cell hcan, ok_bind, if_neg hle', hpartner,
          hinc.filter_gt_of_head hgt]
        rfl

/-- **The outer loop of the difference** removes the contacts whose partners have no EIDs, and
takes the EIDs of the partners from the others. -/
theorem differenceLoop_eq (modified deleted : List Addr)
    (ha : ∀ x ∈ a, s.contacts.cells x = some (f x))
    (hb : ∀ y ∈ b, s.contacts.cells y = some (f y)) (hdisj : a.Disjoint b)
    (hinca : Increasing (start f) a) (hincb : Increasing (start f) b)
    (hact : ∀ y ∈ b, (f y).active = false) :
    ∃ s', differenceLoop (fun _ => true) modified deleted s a b =
      .ok (a.filter fun x => !gone f b (f x),
        (a.filter fun x => reduced f b (f x)).reverse ++ modified,
        (a.filter fun x => gone f b (f x)).reverse ++ deleted, s') ∧
      (∀ x ∈ a, s'.contacts.cells x = some (differed f b (f x))) ∧
      ∀ x, x ∉ a → x ∉ b → s'.contacts.cells x = s.contacts.cells x := by
  induction a generalizing s b modified deleted with
  | nil => exact ⟨s, rfl, by simp, fun _ _ _ => rfl⟩
  | cons cur a ih =>
      obtain ⟨hcurb, hdisj⟩ := List.disjoint_cons_left.mp hdisj
      obtain ⟨hlater, hinca⟩ := increasing_cons.1 hinca
      have hcura : cur ∉ a := fun h => (hlater cur h).ne rfl
      obtain ⟨s₁, hfirst, hstay⟩ :=
        differenceMatch_eq (ha cur List.mem_cons_self) hb hcurb hincb hact
      let rest := b.filter ((f cur).fromTime.toNat < start f ·)
      have hmem : ∀ y, y ∈ rest ↔ y ∈ b ∧ (f cur).fromTime.toNat < start f y := by simp [rest]
      have hpartner : ∀ x ∈ a, partner f rest (f x) = partner f b (f x) := fun x hx =>
        partner_later (hlater x hx)
      have hgone : ∀ x ∈ a, gone f rest (f x) = gone f b (f x) := fun x hx => by
        rw [gone, hpartner x hx]; rfl
      have hreduced : ∀ x ∈ a, reduced f rest (f x) = reduced f b (f x) := fun x hx => by
        rw [reduced, hpartner x hx]; rfl
      -- the entries behind `cur`, from a state in which `cur` has what the difference leaves
      have hgo : ∀ (s₂ : Table) (modified₂ deleted₂ : List Addr),
          s₂.contacts.cells cur = some (differed f b (f cur)) →
          (∀ x, x ≠ cur → s₂.contacts.cells x = s₁.contacts.cells x) →
          ∃ s', differenceLoop (fun _ => true) modified₂ deleted₂ s₂ a rest =
            .ok (a.filter fun x => !gone f b (f x),
              (a.filter fun x => reduced f b (f x)).reverse ++ modified₂,
              (a.filter fun x => gone f b (f x)).reverse ++ deleted₂, s') ∧
            (∀ x ∈ cur :: a, s'.contacts.cells x = some (differed f b (f x))) ∧
            ∀ x, x ∉ cur :: a → x ∉ b → s'.contacts.cells x = s.contacts.cells x := by
        intro s₂ modified₂ deleted₂ hself hother
        have ha₂ : ∀ x ∈ a, s₂.contacts.cells x = some (f x) := by
          intro x hx
          rw [hother x fun h => hcura (h ▸ hx), hstay x fun h => absurd h (hdisj hx)]
          exact ha x (List.mem_cons_of_mem cur hx)
        have hb₂ : ∀ y ∈ rest, s₂.contacts.cells y = some (f y) := by
          intro y hy
          obtain ⟨hyb, hy⟩ := (hmem y).1 hy
          rw [hother y fun h => hcurb (h ▸ hyb), hstay y fun _ => hy]
          exact hb y hyb
        obtain ⟨s', hloop, hdiffered, hkept⟩ := ih modified₂ deleted₂
          ha₂ hb₂ (fun x hx hxr => hdisj hx ((hmem x).1 hxr).1) hinca (hincb.filter _)
          fun y hy => hact y ((hmem y).1 hy).1
        refine ⟨s', ?_, fun x hx => ?_, fun x hx hxb => ?_⟩
        · rw [hloop, List.filter_congr fun x hx => congrArg (!·) (hgone x hx),
            List.filter_congr hgone, List.filter_congr hreduced]
        · rcases List.mem_cons.mp hx with rfl | hx
          · rw [hkept x hcura fun h => hcurb ((hmem x).1 h).1]
            exact hself
          · rw [hdiffered x hx, differed, hpartner x hx]
            rfl
        · obtain ⟨hxc, hxa⟩ : x ≠ cur ∧ x ∉ a := by simpa using hx
          rw [hkept x hxa fun h => hxb ((hmem x).1 h).1, hother x hxc,
            hstay x fun h => absurd h hxb]
      have hself : s₁.contacts.cells cur = some (f cur) :=
        (hstay cur fun h => absurd h hcurb).trans (ha cur List.mem_cons_self)
      unfold differenceLoop
      rw [hfirst, ok_bind]
      cases hcan : partner f b (f cur) with
      | none =>
          have hdiff : differed f b (f cur) = f cur := by rw [differed, hcan]; rfl
          have hno : gone f b (f cur) = false := by rw [gone, hcan]; rfl
          have hsame : reduced f b (f cur) = false := by rw [reduced, hcan]; rfl
          obtain ⟨s', hloop, hrest⟩ := hgo s₁ modified deleted (by rw [hdiff]; exact hself)
            fun _ _ => rfl
          refine ⟨s', ?_, hrest⟩
          dsimp only [Option.map_none]
          rw [hloop, ok_bind, List.filter_cons_of_pos (by simp [hno]),
            List.filter_cons_of_neg (by simp [hsame]), List.filter_cons_of_neg (by simp [hno])]
          rfl
      | some y =>
          cases heids : (f y).contactEndpoints with
          | nil =>
              have hdiff : differed f b (f cur) = f cur := by
                rw [differed, hcan, Option.elim_some, heids]; rfl
              have hyes : gone f b (f cur) = true := by rw [gone, hcan]; simp [heids]
              have hsame : reduced f b (f cur) = false := by rw [reduced, hcan]; simp [heids]
              obtain ⟨s', hloop, hrest⟩ := hgo s₁ modified (cur :: deleted)
                (by rw [hdiff]; exact hself) fun _ _ => rfl
              refine ⟨s', ?_, hrest⟩
              dsimp only [Option.map_some]
              rw [heids]
              dsimp only
              rw [hloop, List.filter_cons_of_neg (by simp [hyes]),
                List.filter_cons_of_neg (by simp [hsame]), List.filter_cons_of_pos (by simp [hyes]),
                List.reverse_cons, List.append_assoc]
              rfl
          | cons e es =>
              have hno : gone f b (f cur) = false := by rw [gone, hcan]; simp [heids]
              have hfewer : reduced f b (f cur) = true := by rw [reduced, hcan]; simp [heids]
              obtain ⟨s', hloop, hrest⟩ := hgo { s₁ with
                  contacts := s₁.contacts.set cur (differed f b (f cur))
                  requests := s₁.requests + 1 }
                (cur :: modified) deleted (Heap.cells_set_self _ _ _)
                fun x hx => Heap.cells_set_ne _ hx _
              refine ⟨s', ?_, hrest⟩
              dsimp only [Option.map_some]
              have hmodify : s₁.contacts.modify (some cur) (fun c => { c with
                  contactEndpoints := endpointListDifference c.contactEndpoints (e :: es) })
                  = .ok (s₁.contacts.set cur (differed f b (f cur))) := by
                rw [Heap.modify_cell hself, differed, hcan, Option.elim_some, heids]
              rw [heids]
              dsimp only
              rw [hmodify, ok_bind]
              simp only [addToModifiedList, Table.malloc, if_true]
              rw [hloop, ok_bind, List.filter_cons_of_pos (by simp [hno]),
                List.filter_cons_of_pos (by simp [hfewer]), List.filter_cons_of_neg (by simp [hno]),
                List.reverse_cons, List.append_assoc]
              rfl

/-! ## Both functions -/

theorem contactListSorted_eq (ha : ∀ x ∈ a, s.contacts.cells x = some (f x))
    (hinc : Increasing (start f) a) : contactListSorted s a = .ok true := by
  have hload : loadAll s a = .ok (a.map f) := by
    refine loadAll_eq_ok.2 ?_
    rw [List.forall₂_map_right_iff, List.forall₂_same]
    exact ha
  have hsorted : (a.map f).Pairwise fun c d => c.fromTime ≤ d.fromTime := by
    rw [List.pairwise_map]
    exact hinc.imp fun h => Nat.le_of_lt h
  rw [contactListSorted, hload, ok_bind, decide_eq_true hsorted]
  rfl

theorem unionLoop_nil (mem : Nat → Bool) (modified a : List Addr) :
    unionLoop mem modified s a [] = .ok (a, modified, s) := by
  induction a with
  | nil => rfl
  | cons cur a ih =>
      rw [unionLoop, unionBefore, ok_bind]
      dsimp only
      rw [ih]
      rfl

theorem differenceLoop_nil (mem : Nat → Bool) (modified deleted a : List Addr) :
    differenceLoop mem modified deleted s a [] = .ok (a, modified, deleted, s) := by
  induction a with
  | nil => rfl
  | cons cur a ih =>
      rw [differenceLoop, differenceMatch, ok_bind]
      dsimp only
      rw [ih]
      rfl

/-- Two lists of contacts as they stand on the heap: the from-times strictly increase, no list of
EIDs has an EID twice, the lists share no contact, and no contact of `b` is in use. -/
structure GivenLists (s : Table) (f : Addr → Contact) (a b : List Addr) : Prop where
  cells : ∀ x ∈ a ++ b, s.contacts.cells x = some (f x)
  disjoint : a.Disjoint b
  increasing_left : a.Pairwise fun x y => (f x).fromTime < (f y).fromTime
  increasing_right : b.Pairwise fun x y => (f x).fromTime < (f y).fromTime
  once : ∀ x ∈ a ++ b, (strings (f x).contactEndpoints).Nodup
  oneString : ∀ x ∈ a, ∀ y ∈ b, OneString ((f x).contactEndpoints ++ (f y).contactEndpoints)
  inactive : ∀ y ∈ b, (f y).active = false

/-- `c'` is the contact `c` with the bitrate of `d` and the EIDs of both. -/
structure MergedWith (c d c' : Contact) : Prop where
  bitrate : c'.bitrate = d.bitrate
  eids : (strings c'.contactEndpoints).Perm
    (strings c.contactEndpoints ++
      (strings d.contactEndpoints).filter (· ∉ strings c.contactEndpoints))
  rest : c' =
    let c₁ := { c with contactEndpoints := c'.contactEndpoints, bitrate := d.bitrate }
    if c.bitrate = d.bitrate then c₁ else recalculateContactCapacity c₁

/-- The union `l` of `a` and `b`, where `g` gives the contacts afterwards. -/
structure IsUnion (f g : Addr → Contact) (a b l modified : List Addr) (s' : Table) : Prop where
  cells : ∀ x ∈ l, s'.contacts.cells x = some (g x)
  increasing : l.Pairwise fun x y => (g x).fromTime < (g y).fromTime
  members : l.Perm (a ++ b.filter fun y => ∀ x ∈ a, (f x).fromTime ≠ (f y).fromTime)
  merged : ∀ x ∈ a, ∀ y ∈ b, sameTimes (f x) (f y) → MergedWith (f x) (f y) (g x)
  kept : ∀ x ∈ l, (x ∈ a → ∀ y ∈ b, ¬ sameTimes (f x) (f y)) → g x = f x
  modified : modified = (a.filter fun x => (g x).bitrate ≠ (f x).bitrate).reverse

/-- The difference `l` of `a` and `b`, where `g` gives the contacts of `a` afterwards. -/
structure IsDifference (f g : Addr → Contact) (a b l modified deleted : List Addr)
    (s' : Table) : Prop where
  cells : ∀ x ∈ a, s'.contacts.cells x = some (g x)
  list : l = a.filter fun x =>
    ¬ ∃ y ∈ b, sameTimes (f x) (f y) ∧ (f y).contactEndpoints = []
  deleted : deleted = (a.filter fun x =>
    ∃ y ∈ b, sameTimes (f x) (f y) ∧ (f y).contactEndpoints = []).reverse
  modified : modified = (a.filter fun x =>
    ∃ y ∈ b, sameTimes (f x) (f y) ∧ (f y).contactEndpoints ≠ []).reverse
  fewer : ∀ x ∈ a, ∀ y ∈ b, sameTimes (f x) (f y) → g x = { f x with
    contactEndpoints :=
      (f x).contactEndpoints.filter (·.str ∉ strings (f y).contactEndpoints) }
  kept : ∀ x ∈ a, (∀ y ∈ b, ¬ sameTimes (f x) (f y)) → g x = f x

/-- At most one contact of an increasing list has given times. -/
theorem partner_eq_some {y : Addr} (hinc : Increasing (start f) b) (hy : y ∈ b)
    (htimes : sameTimes c (f y)) : partner f b c = some y := by
  have hsome : (partner f b c).isSome := List.find?_isSome.mpr ⟨y, hy, htimes⟩
  obtain ⟨z, hz⟩ := Option.isSome_iff_exists.mp hsome
  have hztimes : sameTimes c (f z) = true :=
    List.find?_some (p := fun y => sameTimes c (f y)) hz
  simp only [sameTimes, Bool.and_eq_true, decide_eq_true_eq] at htimes hztimes
  have hstart : start f z = start f y := congrArg UInt64.toNat (hztimes.1.trans htimes.1.symm)
  rw [hz, hinc.eq_of_key_eq (List.mem_of_find?_eq_some hz) hy hstart]

theorem partner_eq_none_of (h : ∀ y ∈ b, ¬ sameTimes c (f y)) : partner f b c = none :=
  List.find?_eq_none.mpr h

/-- What holds of the partner holds of a contact of `b` with the same times. -/
theorem any_partner (hinc : Increasing (start f) b) (p : Contact → Bool) (c : Contact) :
    (partner f b c).any (fun y => p (f y)) = decide (∃ y ∈ b, sameTimes c (f y) ∧ p (f y)) := by
  by_cases h : ∃ y ∈ b, sameTimes c (f y)
  · obtain ⟨y, hy, htimes⟩ := h
    have honly : (∃ z ∈ b, sameTimes c (f z) ∧ p (f z)) ↔ p (f y) := by
      refine ⟨?_, fun hp => ⟨y, hy, htimes, hp⟩⟩
      rintro ⟨z, hz, hzt, hp⟩
      have hzy := (partner_eq_some hinc hz hzt).symm.trans (partner_eq_some hinc hy htimes)
      exact Option.some.inj hzy ▸ hp
    rw [partner_eq_some hinc hy htimes, Option.any_some, decide_eq_decide.2 honly, Bool.decide_coe]
  · have hno : ∀ y ∈ b, ¬ sameTimes c (f y) := fun y hy ht => h ⟨y, hy, ht⟩
    have hnone : ¬ ∃ y ∈ b, sameTimes c (f y) ∧ p (f y) := fun ⟨y, hy, ht, _⟩ => hno y hy ht
    rw [partner_eq_none_of hno, decide_eq_false hnone]
    rfl

@[simp] theorem merged_bitrate (c d : Contact) : (merged c d).bitrate = d.bitrate := by
  unfold merged
  dsimp only
  split
  · rfl
  · rename_i h
    exact not_not.mp h

theorem merged_mergedWith {d : Contact}
    (hone : OneString (c.contactEndpoints ++ d.contactEndpoints))
    (hd : (strings d.contactEndpoints).Nodup) : MergedWith c d (merged c d) := by
  have heids : (merged c d).contactEndpoints =
      eidUnion c.contactEndpoints d.contactEndpoints := by
    unfold merged
    dsimp only
    split <;> rfl
  refine ⟨merged_bitrate c d, heids ▸ strings_eidUnion hone hd, ?_⟩
  rw [heids]
  unfold merged
  by_cases h : c.bitrate = d.bitrate
  · simp [← h]
  · simp [h]

/-- The bitrate of a contact changes if the joined one has another. -/
theorem rateChanged_eq (c : Contact) :
    rateChanged f b c = decide ((joined f b c).bitrate ≠ c.bitrate) := by
  unfold rateChanged joined
  cases partner f b c with
  | none => simp
  | some y => simp [eq_comm]

/-- **The union.** -/
theorem contactListUnion_eq (h : GivenLists s f a b) :
    ∃ l modified s', contactListUnion (fun _ => true) s a b = .ok (l, modified, s') ∧
      ∃ g, IsUnion f g a b l modified s' := by
  have ha : ∀ x ∈ a, s.contacts.cells x = some (f x) := fun x hx =>
    h.cells x (List.mem_append_left b hx)
  have hb : ∀ y ∈ b, s.contacts.cells y = some (f y) := fun y hy =>
    h.cells y (List.mem_append_right a hy)
  have hinca : Increasing (start f) a := h.increasing_left
  have hincb : Increasing (start f) b := h.increasing_right
  have hloop : contactListUnion (fun _ => true) s a b = unionLoop (fun _ => true) [] s a b := by
    rw [contactListUnion, contactListSorted_eq ha hinca, ok_bind, assertC_true, ok_bind,
      contactListSorted_eq hb hincb, ok_bind, assertC_true, ok_bind]
    split
    · rename_i hnil
      rw [hnil]
      rfl
    · split
      · rename_i hnil
        rw [hnil, unionLoop_nil]
        rfl
      · rfl
  obtain ⟨s', hrun, hjoined, hkept⟩ := unionLoop_eq [] ha hb h.disjoint hinca hincb
    h.inactive
  let g : Addr → Contact := fun x => if x ∈ a then joined f b (f x) else f x
  have hga : ∀ x ∈ a, g x = joined f b (f x) := fun x hx => if_pos hx
  have hgb : ∀ x, x ∉ a → g x = f x := fun x hx => if_neg hx
  have hstart : ∀ x, start g x = start f x := by
    intro x
    by_cases hx : x ∈ a
    · rw [start, hga x hx, joined_fromTime]
      rfl
    · rw [start, hgb x hx]
      rfl
  refine ⟨_, _, s', hloop.trans hrun, g, ?_, ?_, ?_, ?_, ?_, ?_⟩
  · intro x hx
    rcases (mem_join hinca).1 hx with hxa | hxb
    · rw [hjoined x hxa, hga x hxa]
    · have hx := (mem_fresh.1 hxb).1
      have hxa : x ∉ a := fun hxa => h.disjoint hxa hx
      rw [hkept x hxa fun _ => hxb, hb x hx, hgb x hxa]
  · refine (join_increasing hinca hincb).imp fun {x y} hlt => ?_
    have hlt' : start g x < start g y := by rwa [hstart x, hstart y]
    exact hlt'
  · refine (join_perm hinca).trans (.of_eq ?_)
    have hkey : ∀ x y, start f x ≠ start f y ↔ (f x).fromTime ≠ (f y).fromTime := fun x y =>
      not_congr UInt64.toNat_inj
    simp only [fresh, hkey]
  · intro x hx y hy htimes
    rw [hga x hx, joined, partner_eq_some hincb hy htimes]
    exact merged_mergedWith (h.oneString x hx y hy) (h.once y (List.mem_append_right a hy))
  · intro x _ hno
    by_cases hx : x ∈ a
    · rw [hga x hx, joined, partner_eq_none_of (hno hx)]
      rfl
    · exact hgb x hx
  · rw [List.append_nil]
    refine congrArg List.reverse (List.filter_congr fun x hx => ?_)
    rw [rateChanged_eq, hga x hx]

/-- **The difference.** -/
theorem contactListDifference_eq (h : GivenLists s f a b) :
    ∃ l modified deleted s',
      contactListDifference (fun _ => true) s a b = .ok (l, modified, deleted, s') ∧
      ∃ g, IsDifference f g a b l modified deleted s' := by
  have ha : ∀ x ∈ a, s.contacts.cells x = some (f x) := fun x hx =>
    h.cells x (List.mem_append_left b hx)
  have hb : ∀ y ∈ b, s.contacts.cells y = some (f y) := fun y hy =>
    h.cells y (List.mem_append_right a hy)
  have hinca : Increasing (start f) a := h.increasing_left
  have hincb : Increasing (start f) b := h.increasing_right
  have hloop : contactListDifference (fun _ => true) s a b =
      differenceLoop (fun _ => true) [] [] s a b := by
    rw [contactListDifference, contactListSorted_eq ha hinca, ok_bind, assertC_true, ok_bind,
      contactListSorted_eq hb hincb, ok_bind, assertC_true, ok_bind]
    split
    · rename_i hnil
      rcases hnil with hnil | hnil
      · rw [hnil]
        rfl
      · rw [hnil, differenceLoop_nil]
        rfl
    · rfl
  obtain ⟨s', hrun, hdiffered, -⟩ := differenceLoop_eq [] [] ha hb
    h.disjoint hinca hincb h.inactive
  have hgone : ∀ c, gone f b c =
      decide (∃ y ∈ b, sameTimes c (f y) ∧ (f y).contactEndpoints = []) := by
    intro c
    simpa [gone] using any_partner hincb (fun d => d.contactEndpoints = []) c
  have hreduced : ∀ c, reduced f b c =
      decide (∃ y ∈ b, sameTimes c (f y) ∧ (f y).contactEndpoints ≠ []) := by
    intro c
    simpa [reduced] using any_partner hincb (fun d => d.contactEndpoints ≠ []) c
  refine ⟨_, _, _, s', hloop.trans hrun, fun x => differed f b (f x), hdiffered, ?_, ?_, ?_, ?_, ?_⟩
  · exact List.filter_congr fun x _ => by rw [hgone, ← decide_not]
  · rw [List.append_nil]
    exact congrArg List.reverse (List.filter_congr fun x _ => hgone (f x))
  · rw [List.append_nil]
    exact congrArg List.reverse (List.filter_congr fun x _ => hreduced (f x))
  · intro x hx y hy htimes
    rw [differed, partner_eq_some hincb hy htimes, Option.elim_some,
      endpointListDifference_eq_filter (h.once x (List.mem_append_left b hx))]
  · intro x hx hno
    rw [differed, partner_eq_none_of hno]
    rfl

/-- **The algebra of contact lists.** -/
theorem contact_list_algebra {mem : Nat → Bool} (hmem : ∀ k, mem k = true)
    (h : GivenLists s f a b) :
    (∃ l modified s', contactListUnion mem s a b = .ok (l, modified, s') ∧
      ∃ g, IsUnion f g a b l modified s') ∧
    ∃ l modified deleted s', contactListDifference mem s a b = .ok (l, modified, deleted, s') ∧
      ∃ g, IsDifference f g a b l modified deleted s' := by
  obtain rfl : mem = fun _ => true := funext hmem
  exact ⟨contactListUnion_eq h, contactListDifference_eq h⟩

end

/-- A contact over which one EID is reachable. -/
def reaching (e : Eid) (bitrate : UInt32) : Contact :=
  { timed 10 20 with contactEndpoints := [e], bitrate }

/-- Two contacts with the same times. -/
def samePair (x : Addr) : Contact :=
  if x = 0 then reaching ⟨1, "dtn://a".toList⟩ 100 else reaching ⟨2, "dtn://b".toList⟩ 200

/-- The second contact is merged into the first one, or taken from it. -/
theorem contact_list_algebra_pair :
    (∃ l modified s',
      contactListUnion (fun _ => true) (twoContacts (samePair 0) (samePair 1)) [0] [1] =
        .ok (l, modified, s') ∧ ∃ g, IsUnion samePair g [0] [1] l modified s') ∧
    ∃ l modified deleted s',
      contactListDifference (fun _ => true) (twoContacts (samePair 0) (samePair 1)) [0] [1] =
        .ok (l, modified, deleted, s') ∧
      ∃ g, IsDifference samePair g [0] [1] l modified deleted s' :=
  contact_list_algebra (fun _ => rfl) {
    cells := by
      intro x hx
      simp only [List.mem_append, List.mem_singleton] at hx
      rcases hx with rfl | rfl <;> rfl
    disjoint := by simp
    increasing_left := List.pairwise_singleton _ _
    increasing_right := List.pairwise_singleton _ _
    once := by decide
    oneString := by unfold OneString; decide
    inactive := by decide }

end RoutingTable
