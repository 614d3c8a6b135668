import DisruptaBLE.Epidemic.VectorMemory

/-!
# Characteristics of summary vectors

`summary_vector_characteristic_calculate` for every length of the characteristic and of the hashes.
The index into the characteristic starts at 0 for each entry, so that an entry contributes the same
bytes wherever it stands in the vector (`characteristic_append`), and the contributions are
combined with exclusive or.

A node advertises the characteristic of the vector of its bundles (`update_advertises`), which does
not depend on their order.
-/

namespace EpidemicRouter

open PtrHeap
open BundleProcessor (UniqueIdentifier)

/-! ## Definitions -/

/-- `struct summary_vector_entry`, with `SUMMARY_VECTOR_ENTRY_HASH_LENGTH`. -/
def HashEntry (hashLength : Nat) := { hash : List UInt8 // hash.length = hashLength }

/-- `summary_vector_characteristic_calculate`, for every `SUMMARY_VECTOR_ENTRY_HASH_LENGTH` and
`SUMMARY_VECTOR_CHARACTERISTIC_HASH_LENGTH`. -/
def characteristicCalculate (chLength : Nat) {hashLength : Nat}
    (entries : List (HashEntry hashLength)) : List UInt8 :=
  entries.foldl (fun ch e => characteristicAdd chLength ch 0 e.val) (List.replicate chLength 0)

/-- Two characteristics byte by byte. -/
def xorBytes (a b : List UInt8) : List UInt8 := List.zipWith (· ^^^ ·) a b

/-- An entry with the configured length of hashes. -/
def hashEntry (entry : SvEntry) : HashEntry svEntrySize :=
  ⟨entryBytes entry, LittleEndian.length_leBytes _ _⟩

/-- A router whose list has exactly these bundles, in this order. -/
def HoldsBundles (halHash : List UInt8 → List UInt8) (s : Router) (ids : List UniqueIdentifier) :
    Prop :=
  ∃ l, IsSeg s.infos BundleInfo.next s.head l none ∧
    (bundleInfos s.infos l).map BundleInfo.svEntry =
      ids.map (svEntryFromUniqueIdentifier halHash)

/-- An update sets this characteristic for the advertisements. -/
def Advertises (r : Except VectorFault (Vectors × UInt64 × Option (List UInt8)))
    (ch : List UInt8) : Prop :=
  ∃ h t, r = .ok (h, t, some ch)

/-! ## Exclusive or of lists -/

theorem xorBytes_comm (a b : List UInt8) : xorBytes a b = xorBytes b a :=
  List.zipWith_comm_of_comm fun x y => UInt8.xor_comm x y

theorem xorBytes_assoc (a b c : List UInt8) :
    xorBytes (xorBytes a b) c = xorBytes a (xorBytes b c) := by
  induction a generalizing b c with
  | nil => rfl
  | cons x a ih =>
      cases b with
      | nil => rfl
      | cons y b =>
          cases c with
          | nil => rfl
          | cons z c =>
              have htail := ih b c
              exact congrArg₂ List.cons (UInt8.xor_assoc x y z) htail

theorem xorBytes_zeros {a : List UInt8} {n : Nat} (h : a.length = n) :
    xorBytes a (List.replicate n 0) = a := by
  subst h
  induction a with
  | nil => rfl
  | cons x a ih => exact congrArg₂ List.cons UInt8.xor_zero ih

theorem xorBytes_self (a : List UInt8) : xorBytes a a = List.replicate a.length 0 := by
  induction a with
  | nil => rfl
  | cons x a ih => exact congrArg₂ List.cons UInt8.xor_self ih

/-! ## Contributions of entries -/

section Contributions

variable {chLength hashLength : Nat}

theorem modify_xorBytes (a b : List UInt8) (k : Nat) (h : UInt8) :
    (xorBytes a b).modify k (· ^^^ h) = xorBytes a (b.modify k (· ^^^ h)) := by
  induction a generalizing b k with
  | nil => cases k <;> rfl
  | cons x a ih =>
      cases b with
      | nil => cases k <;> rfl
      | cons y b =>
          cases k with
          | zero => exact congrArg (· :: xorBytes a b) (UInt8.xor_assoc x y h)
          | succ k => exact congrArg ((x ^^^ y) :: ·) (ih b k)

theorem characteristicAdd_xorBytes (a b : List UInt8) (k : Nat) (hs : List UInt8) :
    characteristicAdd chLength (xorBytes a b) k hs =
      xorBytes a (characteristicAdd chLength b k hs) := by
  induction hs generalizing b k with
  | nil => rfl
  | cons h hs ih =>
      unfold characteristicAdd
      rw [modify_xorBytes, ih]

theorem foldl_xorBytes (a b : List UInt8) (es : List (HashEntry hashLength)) :
    es.foldl (fun ch e => characteristicAdd chLength ch 0 e.val) (xorBytes a b) =
      xorBytes a (es.foldl (fun ch e => characteristicAdd chLength ch 0 e.val) b) := by
  induction es generalizing b with
  | nil => rfl
  | cons e es ih => rw [List.foldl_cons, characteristicAdd_xorBytes, ih, List.foldl_cons]

theorem length_characteristicCalculate (es : List (HashEntry hashLength)) :
    (characteristicCalculate chLength es).length = chLength := by
  have hfold : ∀ ch : List UInt8, ch.length = chLength →
      (es.foldl (fun ch e => characteristicAdd chLength ch 0 e.val) ch).length = chLength := by
    induction es with
    | nil => exact fun _ hch => hch
    | cons e es ih =>
        intro ch hch
        exact ih _ ((length_characteristicAdd _ _ _ _).trans hch)
  exact hfold _ List.length_replicate

/-- **Concatenation is exclusive or.** -/
theorem characteristic_append (a b : List (HashEntry hashLength)) :
    characteristicCalculate chLength (a ++ b) =
      xorBytes (characteristicCalculate chLength a) (characteristicCalculate chLength b) := by
  have hstart := xorBytes_zeros (@length_characteristicCalculate chLength hashLength a)
  calc characteristicCalculate chLength (a ++ b)
      = b.foldl (fun ch e => characteristicAdd chLength ch 0 e.val)
          (characteristicCalculate chLength a) := List.foldl_append
    _ = b.foldl (fun ch e => characteristicAdd chLength ch 0 e.val)
          (xorBytes (characteristicCalculate chLength a) (List.replicate chLength 0)) := by
        rw [hstart]
    _ = xorBytes (characteristicCalculate chLength a) (characteristicCalculate chLength b) :=
        foldl_xorBytes _ _ b

theorem characteristic_cons (e : HashEntry hashLength) (es : List (HashEntry hashLength)) :
    characteristicCalculate chLength (e :: es) =
      xorBytes (characteristicCalculate chLength [e]) (characteristicCalculate chLength es) :=
  characteristic_append [e] es

/-- **The order does not matter.** -/
theorem characteristic_perm {a b : List (HashEntry hashLength)} (h : a.Perm b) :
    characteristicCalculate chLength a = characteristicCalculate chLength b := by
  induction h with
  | nil => rfl
  | @cons e a b _ ih => rw [characteristic_cons, ih, ← characteristic_cons]
  | swap x y l =>
      rw [characteristic_cons y (x :: l), characteristic_cons x l, characteristic_cons x (y :: l),
        characteristic_cons y l, ← xorBytes_assoc, ← xorBytes_assoc,
        xorBytes_comm (characteristicCalculate chLength [y])]
  | trans _ _ ih ih' => exact ih.trans ih'

/-- **Two equal entries cancel out.** -/
theorem characteristic_twice (a : List (HashEntry hashLength)) (e : HashEntry hashLength) :
    characteristicCalculate chLength (a ++ [e] ++ [e]) = characteristicCalculate chLength a := by
  rw [characteristic_append, characteristic_append, xorBytes_assoc, xorBytes_self,
    length_characteristicCalculate, xorBytes_zeros (length_characteristicCalculate a)]

end Contributions

/-! ## What a node advertises -/

section Nodes

variable {s : Router} {halHash : List UInt8 → List UInt8} {ids : List UniqueIdentifier}

theorem summaryVectorCharacteristicCalculate_eq (chLength : Nat) (sv : SummaryVector) :
    summaryVectorCharacteristicCalculate chLength sv =
      characteristicCalculate chLength (sv.entries.map hashEntry) := by
  rw [characteristicCalculate, List.foldl_map]
  rfl

theorem not_advertises_error {f : VectorFault} {ch : List UInt8} :
    ¬ Advertises (.error f) ch := by
  intro hadvertises
  obtain ⟨h, t, hr⟩ := hadvertises
  cases hr

theorem not_advertises_none {h : Vectors} {t : UInt64} {ch : List UInt8} :
    ¬ Advertises (.ok (h, t, none)) ch := by
  intro hother
  obtain ⟨h', t', hr⟩ := hother
  cases hr

/-- **An update advertises the characteristic of the bundles**, when it is due and the vector can be
built; otherwise it advertises nothing. -/
theorem update_advertises (hs : HoldsBundles halHash s ids) (h : Vectors) (env : AgentEnv)
    (last now : UInt64) (ch : List UInt8) :
    Advertises (h.routingAgentUpdate env s last now) ch ↔
      last + 1000 < now ∧ CreateServed env.malloc ∧
        GrowthServed env.malloc defaultCapacity.toNat ids.length ∧
        ch = characteristicCalculate env.chLength
          ((ids.map (svEntryFromUniqueIdentifier halHash)).map hashEntry) := by
  obtain ⟨l, hl, hids⟩ := hs
  have hknown := routerCreateKnownSv_result hl env.malloc h
  rw [entriesOf_all hl, hids] at hknown
  have hcount : (ids.map (svEntryFromUniqueIdentifier halHash)).length = ids.length :=
    List.length_map _
  unfold Vectors.routingAgentUpdate
  by_cases hdue : last + 1000 < now
  · rw [if_pos hdue]
    cases hrun : h.routerCreateKnownSv env.malloc s with
    | error f =>
        rw [hrun] at hknown
        cases hknown with
        | overrun _ _ hnot =>
            apply iff_of_false not_advertises_error
            exact fun hall => hnot (hcount ▸ hall.2.2.1)
    | ok r =>
        rw [hrun] at hknown
        cases hknown with
        | null hnot =>
            apply iff_of_false not_advertises_none
            exact fun hall => hnot hall.2.1
        | @live new sv hcreate _ hgrowth hentries =>
            have hserved : CreateServed env.malloc := by
              by_contra hrefused
              rw [summaryVectorCreate_refused hrefused] at hcreate
              cases hcreate
            have hlive := h.add_cells_self sv
            show Advertises (Vectors.read (h.add sv).1 (some h.bound) >>= fun own =>
              Vectors.destroy (h.add sv).1 h.bound >>= fun h' => pure (h', now,
                some (summaryVectorCharacteristicCalculate env.chLength own))) ch ↔ _
            rw [Vectors.read_live hlive, Vectors.destroy_live hlive,
              ← hentries, ← summaryVectorCharacteristicCalculate_eq]
            constructor
            · intro hadvertises
              obtain ⟨h', t, hr⟩ := hadvertises
              cases hr
              exact ⟨hdue, hserved, hcount ▸ hgrowth, rfl⟩
            · intro hother
              obtain ⟨-, -, -, rfl⟩ := hother
              exact ⟨_, _, rfl⟩
        | stale _ hrefused =>
            have hstale := Heap.cells_erase_self (h.set h.bound ‹_›) h.bound
            apply iff_of_false
            · show ¬ Advertises (Vectors.read _ (some h.bound) >>= _) ch
              rw [Vectors.read_stale hstale]
              exact not_advertises_error
            · exact fun hall => hrefused.1 (hcount ▸ hall.2.2.1)
  · rw [if_neg hdue]
    exact iff_of_false not_advertises_none fun hall => hdue hall.1

end Nodes

/-- **Characteristics do not depend on the order.**  For every length of the characteristic and of
the hashes, a permutation of the entries has the same characteristic, that of a concatenation is the
exclusive or of both, and an entry that is added twice cancels out.  So two nodes with the same set
of bundles advertise the same characteristic, whatever orders their lists have. -/
theorem characteristic_order_free (chLength hashLength : Nat) :
    (∀ a b : List (HashEntry hashLength), a.Perm b →
      characteristicCalculate chLength a = characteristicCalculate chLength b) ∧
    (∀ a b : List (HashEntry hashLength), characteristicCalculate chLength (a ++ b) =
      xorBytes (characteristicCalculate chLength a) (characteristicCalculate chLength b)) ∧
    (∀ (a : List (HashEntry hashLength)) (e : HashEntry hashLength),
      characteristicCalculate chLength (a ++ [e] ++ [e]) = characteristicCalculate chLength a) ∧
    ∀ (halHash : List UInt8 → List UInt8) (s₁ s₂ : Router) (ids₁ ids₂ : List UniqueIdentifier),
      HoldsBundles halHash s₁ ids₁ → HoldsBundles halHash s₂ ids₂ → ids₁.Nodup → ids₂.Nodup →
      (∀ id, id ∈ ids₁ ↔ id ∈ ids₂) →
      ∀ (h₁ h₂ : Vectors) (env₁ env₂ : AgentEnv) (last₁ now₁ last₂ now₂ : UInt64)
        (ch₁ ch₂ : List UInt8), env₁.chLength = chLength → env₂.chLength = chLength →
        Advertises (h₁.routingAgentUpdate env₁ s₁ last₁ now₁) ch₁ →
        Advertises (h₂.routingAgentUpdate env₂ s₂ last₂ now₂) ch₂ → ch₁ = ch₂ := by
  refine ⟨fun a b h => characteristic_perm h, characteristic_append, characteristic_twice, ?_⟩
  intro halHash s₁ s₂ ids₁ ids₂ hs₁ hs₂ hnodup₁ hnodup₂ hsame h₁ h₂ env₁ env₂ last₁ now₁ last₂ now₂
    ch₁ ch₂ hlength₁ hlength₂ hch₁ hch₂
  obtain ⟨-, -, -, rfl⟩ := (update_advertises hs₁ h₁ env₁ last₁ now₁ ch₁).mp hch₁
  obtain ⟨-, -, -, rfl⟩ := (update_advertises hs₂ h₂ env₂ last₂ now₂ ch₂).mp hch₂
  have hids : ids₁.Perm ids₂ := (List.perm_ext_iff_of_nodup hnodup₁ hnodup₂).mpr hsame
  rw [hlength₁, hlength₂]
  exact characteristic_perm ((hids.map _).map _)

/-- A bundle of the source "a". -/
def demoId (creationTimestampMs : UInt64) : UniqueIdentifier :=
  ⟨7, "a".toList, creationTimestampMs, 0, 0, 1⟩

/-- A router with these two bundles. -/
def routerOf (first second : UniqueIdentifier) : Router :=
  { routerInit demoParams with
    infos := (Heap.empty.set 0 (demoInfo (svEntryFromUniqueIdentifier id first) (some 1))).set 1
      (demoInfo (svEntryFromUniqueIdentifier id second) none)
    head := some 0
    tail := some 1 }

theorem holdsBundles_routerOf (first second : UniqueIdentifier) :
    HoldsBundles id (routerOf first second) [first, second] :=
  ⟨[0, 1], ⟨rfl, _, rfl, rfl, _, rfl, rfl⟩, rfl⟩

/-- Two nodes with two bundles in different orders. -/
theorem characteristic_order_free_two :
    ∃ ch, Advertises (Vectors.routingAgentUpdate Heap.empty demoAgent
        (routerOf (demoId 1) (demoId 2)) 0 2000) ch ∧
      Advertises (Vectors.routingAgentUpdate Heap.empty demoAgent
        (routerOf (demoId 2) (demoId 1)) 0 2000) ch := by
  have hgrowth : GrowthServed (fun _ => true) defaultCapacity.toNat 2 :=
    growthServed_of_le (by decide) (by decide)
  have hfirst := (update_advertises (holdsBundles_routerOf (demoId 1) (demoId 2)) Heap.empty
    demoAgent 0 2000 _).mpr ⟨by decide, ⟨rfl, rfl⟩, hgrowth, rfl⟩
  have hsecond := (update_advertises (holdsBundles_routerOf (demoId 2) (demoId 1)) Heap.empty
    demoAgent 0 2000 _).mpr ⟨by decide, ⟨rfl, rfl⟩, hgrowth, rfl⟩
  obtain ⟨-, -, -, hnodes⟩ := characteristic_order_free 8 svEntrySize
  have hequal := hnodes id _ _ _ _ (holdsBundles_routerOf (demoId 1) (demoId 2))
    (holdsBundles_routerOf (demoId 2) (demoId 1)) (by decide) (by decide)
    (fun id => by simp [or_comm]) Heap.empty Heap.empty demoAgent demoAgent 0 2000 0 2000 _ _ rfl
    rfl hfirst hsecond
  exact ⟨_, hfirst, hequal ▸ hsecond⟩

end EpidemicRouter
