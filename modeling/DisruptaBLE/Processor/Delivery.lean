import DisruptaBLE.Processor.Records

/-!
# Forwarding and delivery

Specifications of `bundle_forward` and `bundle_deliver_adu`.

Forwarding is safe unless the hop limit is exceeded: then `hop_count_validation`
deletes the bundle, and `bundle_forward` deletes it again.  The delivery of a custody
signal is safe if it ends the custody of the bundle that was accepted last.
-/

namespace BundleProcessor

open PtrHeap BundleStorage Outcome

section Specs

variable {careful exact : Prop} {P : Params} {env : Env} {s : Processor}
  {m : UInt16 → Option Addr} {frags : List Addr} {a : Addr} {b : Bundle}

/-! ## Forwarding -/

/-- Whether the hop count of a bundle has reached its limit. -/
def hopLimitExceeded (P : Params) (b : Bundle) : Bool :=
  match findBlockByType b.blocks blockTypeHopCount with
  | none => false
  | some block =>
      match P.hopCountParse block.data.bytes with
      | none => false
      | some hopCount => hopCount.limit ≤ hopCount.count

theorem setBlockData_id (type : UInt32) (data : Buffer) : (b.setBlockData type data).id = b.id := by
  unfold Bundle.setBlockData
  split <;> rfl

theorem setBlockData_ret (type : UInt32) (data : Buffer) :
    (b.setBlockData type data).ret = b.ret := by
  unfold Bundle.setBlockData
  split <;> rfl

theorem setBlockData_bare (type : UInt32) (data : Buffer) :
    (b.setBlockData type data).bare = b.bare := by
  unfold Bundle.setBlockData
  split <;> rfl

theorem setBlockData_payloadLength (type : UInt32) (data : Buffer) :
    (b.setBlockData type data).payloadLength = b.payloadLength := by
  unfold Bundle.setBlockData
  split <;> rfl

/-- **`hop_count_validation`**: the bundle stays, up to its hop count; or the limit is
exceeded, and the bundle is deleted. -/
theorem hopCountValidationWith_cases (P : Params) (env : Env) (del : Deletion)
    (hs : Sound careful exact s m frags)
    (hb : s.bundles.cells a = some b) :
    (hopLimitExceeded P b = false ∧ ∃ s₁ b₁,
      hopCountValidationWith del P env s a = .ok (true, s₁) ∧
      s₁.bundles.cells a = some b₁ ∧ b₁.id = b.id ∧ b₁.ret = b.ret ∧
      Sound careful exact s₁ m frags ∧ SameLists s s₁ ∧ Fades s m s₁ m) ∨
    (hopLimitExceeded P b = true ∧ hopCountValidationWith del P env s a =
      (del s a .hopLimitExceeded >>= fun s => .ok (false, s))) := by
  unfold hopCountValidationWith hopLimitExceeded
  rw [bundle_of_cell hb, ok_bind]
  cases findBlockByType b.blocks blockTypeHopCount with
  | none => exact Or.inl ⟨rfl, s, b, rfl, hb, rfl, rfl, hs, .refl, .refl⟩
  | some block =>
      dsimp only
      cases P.hopCountParse block.data.bytes with
      | none => exact Or.inl ⟨rfl, s, b, rfl, hb, rfl, rfl, hs, .refl, .refl⟩
      | some hopCount =>
          by_cases hle : hopCount.limit ≤ hopCount.count
          · simp only [hle, if_true]
            exact Or.inr ⟨by simp, rfl⟩
          · simp only [hle, if_false, malloc]
            refine Or.inl ⟨by simp, ?_⟩
            cases env.malloc s.requests with
            | none =>
                have hfades : Fades s m { s with requests := s.requests + 1 } m :=
                  ⟨fun _ c h => ⟨c, h, rfl⟩, Nat.le_refl _, fun _ _ h => h, rfl⟩
                exact ⟨_, b, rfl, hb, rfl, rfl, hs, ⟨rfl, rfl, rfl, rfl⟩, hfades⟩
            | some gap =>
                have hb' : ({ s with requests := s.requests + 1 } : Processor).bundles.cells a =
                    some b := hb
                have hfades := fades_put (s := { s with requests := s.requests + 1 }) (m := m)
                  hb' (setBlockData_bare blockTypeHopCount
                    (P.hopCountSerialize { hopCount with count := hopCount.count + 1 }))
                dsimp only
                rw [update_of_cell hb', ok_bind]
                exact ⟨_, _, rfl, put_self _ _ _, setBlockData_id _ _, setBlockData_ret _ _,
                  SoundParts.set_same (s := { s with requests := s.requests + 1 }) hs hb'
                    (setBlockData_id _ _) (setBlockData_payloadLength _ _)
                    (setBlockData_ret _ _),
                  ⟨rfl, rfl, rfl, rfl⟩,
                  ⟨hfades.cells, hfades.bound, hfades.map, hfades.outQueue⟩⟩

/-- A bundle whose hop limit is exceeded is deleted, and then read again. -/
theorem bundleForward_exceeded {Q : Bool × Processor → Prop} (hnc : ¬ careful)
    (hs : Sound careful exact s m frags) (hb : s.bundles.cells a = some b)
    (hrun : hopCountValidationWith (bundleDelete P env) P env s a =
      (bundleDelete P env s a .hopLimitExceeded >>= fun s => .ok (false, s))) :
    Ends (Tolerated careful) (bundleForward P env s a 0) Q := by
  unfold bundleForward bundleForwardWith
  rw [hrun]
  apply Ends.bind (R := fun r => r.1 = false ∧ r.2.bundles.cells a = none)
  · apply (bundleDelete_spec hs hb (fun hc => absurd hc hnc) (fun hc => absurd hc hnc) _).bind
    intro s₁ ⟨_, _, hdeleted⟩
    exact ⟨rfl, hdeleted.self⟩
  rintro ⟨valid, s₁⟩ ⟨hvalid, hnone⟩
  obtain rfl : valid = false := hvalid
  simp only [Bool.not_false, if_true]
  rw [bundle_of_none hnone]
  exact tolerated_of_not hnc _

/-- **`bundle_forward`** without a timeout, while the hop limit is not exceeded. -/
theorem bundleForward_spec (hs : Sound careful exact s m frags)
    (hb : s.bundles.cells a = some b) (hfr : careful → a ∉ frags)
    (hhop : careful → hopLimitExceeded P b = false) :
    Ends (Tolerated careful) (bundleForward P env s a 0) fun r => ∃ b',
      r.2.bundles.cells a = some b' ∧ b'.id = b.id ∧ b'.ret = b.forwarded.ret ∧
      Sound careful exact r.2 m frags ∧ r.2.outQueue = s.outQueue ++ [b.id] ∧
      SameLists s r.2 ∧ Evolves s r.2 := by
  unfold bundleForward
  rcases hopCountValidationWith_cases P env (bundleDelete P env) hs hb
    with ⟨_, s₁, b₁, hrun, hb₁, hid, hret, hs₁, hlists, hfades⟩ | ⟨hexc, hrun⟩
  · obtain ⟨s₂, hb₂, hs₂, hothers₂, hbound₂, hlists₂, hout₂, hfwd⟩ :=
      bundleForwardWith_valid 0 hrun hs₁ hb₁ hfr
    rw [hfwd]
    rcases sendBundle_cases env s₂ b₁.id 0 with ⟨n, hsend⟩ | ⟨hne, _⟩
    · rw [hsend]
      have hevolves : Evolves s₁ s₂ := by
        refine ⟨fun x _ c' hc' => ?_, hbound₂⟩
        by_cases hxa : x = a
        · subst hxa
          rw [hb₂] at hc'
          obtain rfl := Option.some.inj hc'
          exact ⟨b₁, hb₁, rfl⟩
        · exact ⟨c', by rw [← hothers₂ x hxa]; exact hc', rfl⟩
      have hlists' := hlists.trans hlists₂
      refine ⟨b₁.forwarded, hb₂, hid, ?_, hs₂, ?_, ?_, ?_⟩
      · simp only [Bundle.forwarded, hret]
      · rw [← hid, ← hfades.outQueue, ← hout₂]
      · exact ⟨hlists'.accepted, hlists'.reassembly, hlists'.known, hlists'.delivered⟩
      · have hev := hfades.evolves.trans hevolves
        exact ⟨hev.cells, hev.bound⟩
    · exact absurd rfl hne
  · have hnc : ¬ careful := by
      intro hc
      rw [hhop hc] at hexc
      cases hexc
    exact bundleForward_exceeded hnc hs hb hrun

/-! ## Delivery -/

/-- A bundle in custody does not wait for reassembly. -/
theorem not_frag_of_accepted (hs : Sound careful exact s m frags) (hc : careful)
    (ha : a ∈ s.accepted) : a ∉ frags := by
  intro hmem
  obtain ⟨b, hb, hcust⟩ := (hs.accepted hc).live a ha
  have hret := (hs.frags hc).ret hmem hb
  rw [hret] at hcust
  cases hcust

theorem custodyFind_spec (careful : Prop) {l : List Addr} (ts : UInt64) (seq : UInt16)
    (source : CStr)
    (offset length : UInt32)
    (hlive : careful → ∀ x ∈ l, ∃ b, s.bundles.cells x = some b) :
    Ends (Tolerated careful) (custodyFind s ts seq source offset length l) fun r =>
      ∀ x, r = some x → x ∈ l ∧ ∃ b, s.bundles.cells x = some b := by
  induction l with
  | nil => exact fun x hx => by cases hx
  | cons y ys ih =>
      unfold custodyFind
      apply ends_bundle (fun hc => hlive hc y List.mem_cons_self)
      intro c hc
      split
      · intro x hx
        obtain rfl := Option.some.inj hx
        exact ⟨List.mem_cons_self, c, hc⟩
      · apply (ih fun hc x hx => hlive hc x (List.mem_cons_of_mem _ hx)).mono
        intro r hr x hx
        obtain ⟨hmem, hcell⟩ := hr x hx
        exact ⟨List.mem_cons_of_mem _ hmem, hcell⟩

theorem custodyFind_congr {l : List Addr} (ts : UInt64) (seq : UInt16) (source : CStr)
    (offset length : UInt32)
    (hcells : ∀ x ∈ l, s'.bundles.cells x = s.bundles.cells x) :
    custodyFind s' ts seq source offset length l = custodyFind s ts seq source offset length l := by
  induction l with
  | nil => rfl
  | cons y ys ih =>
      unfold custodyFind Processor.bundle
      rw [hcells y List.mem_cons_self, ih fun x hx => hcells x (List.mem_cons_of_mem _ hx)]

/-- Records that the processor can handle: custody ends only for the last bundle that
was accepted. -/
def RecordHarmless (s : Processor) (record : AdministrativeRecord) : Prop :=
  ∀ x, custodyManagerGetByRecord s record = .ok (some x) → s.accepted.getLast? = some x

theorem RecordHarmless.congr {record : AdministrativeRecord} (h : RecordHarmless s record)
    (hacc : s'.accepted = s.accepted)
    (hcells : ∀ x ∈ s.accepted, s'.bundles.cells x = s.bundles.cells x) :
    RecordHarmless s' record := by
  intro x hget
  unfold custodyManagerGetByRecord at hget
  rw [hacc, custodyFind_congr _ _ _ _ _ hcells] at hget
  rw [hacc]
  exact h x hget

theorem bundleHandleCustodySignal_spec (hs : Sound careful exact s m frags)
    {record : AdministrativeRecord} (hrec : careful → RecordHarmless s record) :
    Ends (Tolerated careful) (bundleHandleCustodySignal P s record) fun s' => ∃ m',
      Sound careful exact s' m' frags ∧ Fades s m s' m' ∧ s'.reassembly = s.reassembly ∧
      s'.known = s.known := by
  have hfind := custodyFind_spec careful (s := s) (l := s.accepted)
    record.bundleCreationTimestampMs record.bundleSequenceNumber.toUInt16
    record.bundleSourceEid record.fragmentOffset record.fragmentLength
    (fun hc x hx => by
      obtain ⟨c, hcell, _⟩ := (hs.accepted hc).live x hx
      exact ⟨c, hcell⟩)
  unfold bundleHandleCustodySignal
  cases hget : custodyManagerGetByRecord s record with
  | error f => exact hfind.of_error hget
  | ok found =>
      rw [ok_bind]
      cases found with
      | none => exact ⟨m, hs, .refl, rfl, rfl⟩
      | some x =>
          obtain ⟨hmem, c, hc⟩ := hfind.of_ok hget x rfl
          apply (custodyManagerRelease_spec hs hc
            (fun hcar => not_frag_of_accepted hs hcar hmem)
            (fun hcar _ => hrec hcar x hget)).mono
          intro s' ⟨m', hs', hrel⟩
          exact ⟨m', hs', hrel.fades, hrel.reassembly, hrel.known⟩

/-- ADUs that the processor can deliver. -/
def AduHarmless (P : Params) (s : Processor) (adu : Adu) : Prop :=
  hasFlag adu.procFlags flagAdministrativeRecord = true →
    ∀ record, P.parseAdministrativeRecord adu.protocolVersion adu.payload = some record →
      record.custodySignal.isSome = true → RecordHarmless s record

/-- **`bundle_deliver_adu`** removes at most a bundle whose custody ends. -/
theorem bundleDeliverAdu_spec (hs : Sound careful exact s m frags) {adu : Adu}
    (hadu : careful → AduHarmless P s adu) :
    Ends (Tolerated careful) (bundleDeliverAdu P s adu) fun s' => ∃ m',
      Sound careful exact s' m' frags ∧ Fades s m s' m' ∧ s'.reassembly = s.reassembly ∧
      s'.known = s.known := by
  unfold bundleDeliverAdu
  split
  · next hadmin =>
    have hfades : Fades s m { s with administered := s.administered ++ [adu] } m :=
      ⟨fun _ c h => ⟨c, h, rfl⟩, Nat.le_refl _, fun _ _ h => h, rfl⟩
    cases hparse : P.parseAdministrativeRecord adu.protocolVersion adu.payload with
    | none => exact ⟨m, hs, hfades, rfl, rfl⟩
    | some record =>
        dsimp only
        split
        · next hcust =>
          apply (bundleHandleCustodySignal_spec
            (s := { s with administered := s.administered ++ [adu] }) hs fun hc =>
              (hadu hc hadmin record hparse hcust).congr rfl fun _ _ => rfl).mono
          intro s' ⟨m', hs', hfades', hrest⟩
          exact ⟨m', hs', hfades.trans hfades', hrest⟩
        · exact ⟨m, hs, hfades, rfl, rfl⟩
  · cases getAgentId P.localEid adu.destination with
    | none => exact tolerated_other _
    | some agentId =>
        dsimp only
        rw [ends_ok]
        unfold agentForward
        split
        · exact ⟨m, hs, ⟨fun _ c h => ⟨c, h, rfl⟩, Nat.le_refl _, fun _ _ h => h, rfl⟩, rfl, rfl⟩
        · exact ⟨m, hs, .refl, rfl, rfl⟩

/-- With at most one bundle in custody every record is harmless. -/
theorem recordHarmless_of_length (hlen : s.accepted.length ≤ 1) (record : AdministrativeRecord) :
    RecordHarmless s record := by
  intro x hget
  have hfind := custodyFind_spec False (s := s) (l := s.accepted)
    record.bundleCreationTimestampMs record.bundleSequenceNumber.toUInt16
    record.bundleSourceEid record.fragmentOffset record.fragmentLength False.elim
  obtain ⟨hmem, _⟩ := hfind.of_ok hget x rfl
  cases hacc : s.accepted with
  | nil => simp [hacc] at hmem
  | cons y ys =>
      obtain rfl : ys = [] := by
        rw [hacc] at hlen
        exact List.eq_nil_of_length_eq_zero (by simpa using hlen)
      obtain rfl : x = y := by simpa [hacc] using hmem
      rfl

end Specs

end BundleProcessor
