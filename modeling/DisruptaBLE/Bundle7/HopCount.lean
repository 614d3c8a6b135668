import DisruptaBLE.Bundle7.TinyCbor
import DisruptaBLE.Processor.Runs

/-!
# The hop count block

`components/bundle7/hopcount.c`, and what `bundle_forward` makes of it.

The limit and the count are CBOR numbers of up to 64 bits, and `struct bundle_hop_count` has 16 bits
for each of them.  As long as both fit, a pass of `bundle_forward` hands a bundle on only below its
limit and counts it, and so a bundle takes no more passes than its limit allows (`hop_limit`).  A
node without memory for the new block hands the bundle on as it is.

Greater numbers are cut: a limit may become another one, and a bundle beyond its limit may be handed
on (`hop_limit_exceptions`).
-/

namespace Bundle7

open BundleProcessor PtrHeap Cbor

/-- `BUNDLE7_HOP_COUNT_MAX_ENCODED_SIZE`. -/
def hopCountMaxEncodedSize : Nat := 7

variable (T : TinyCbor)

/-- `bundle7_hop_count_parse`.  An iterator that could not enter the array has no type. -/
def bundle7HopCountParse (buffer : List UInt8) : Option HopCount :=
  match T.parserInit buffer with
  | (some _, _) => none
  | (none, it) =>
      if !it.isArray then none
      else
        match T.enterContainer it with
        | .error _ => none
        | .ok it =>
            if !it.isUnsignedInteger then none
            else
              let limit := T.getUint64 it
              match T.advanceFixed it with
              | (some _, _) => none
              | (none, it) =>
                  if !it.isUnsignedInteger then none
                  else some ⟨limit.toUInt16, (T.getUint64 it).toUInt16⟩

/-- `bundle7_hop_count_serialize` into a buffer of `BUNDLE7_HOP_COUNT_MAX_ENCODED_SIZE` bytes. -/
def bundle7HopCountSerialize (hopCount : HopCount) : Buffer :=
  ⟨(T.createArray 2 ++ T.encodeUint hopCount.limit.toUInt64 ++
      T.encodeUint hopCount.count.toUInt64).take hopCountMaxEncodedSize, by
    rw [List.length_take]
    exact Nat.lt_of_le_of_lt (Nat.min_le_left _ _) (by decide)⟩

/-- A number at the front of some bytes, in any of its forms, and the bytes behind it. -/
def ReadsUint (l : List UInt8) (n : Nat) (rest : List UInt8) : Prop :=
  ∃ size, readHead l = .head ⟨.uint, some n, size⟩ ∧ rest = l.drop size

/-- A well-formed hop count block: an array of its limit and its count. -/
def IsHopCount (data : List UInt8) (limit count : Nat) : Prop :=
  ∃ size rest, readHead data = .head ⟨.array, some 2, size⟩ ∧
    ReadsUint (data.drop size) limit rest ∧ ReadsUint rest count []

/-- The node reads and writes hop counts with these functions. -/
structure UsesHopCounts (P : Params) : Prop where
  parse : P.hopCountParse = bundle7HopCountParse T
  serialize : P.hopCountSerialize = bundle7HopCountSerialize T

/-- The data of the hop count block of a bundle in memory. -/
def HasHopCount (s : Processor) (a : Addr) (data : List UInt8) : Prop :=
  ∃ b block, s.bundle a = .ok b ∧ findBlockByType b.blocks blockTypeHopCount = some block ∧
    block.data.bytes = data

/-- A successful pass of `bundle_forward` on some node, from one block to another; `mem` says
whether the first request for memory is served. -/
structure Pass (mem : Bool) (data data' : List UInt8) where
  P : Params
  uses : UsesHopCounts T P
  env : Env
  s : Processor
  s' : Processor
  a : Addr
  timeout : Nat
  run : bundleForward P env s a timeout = .ok (true, s')
  before : HasHopCount s a data
  after : HasHopCount s' a data'
  served : (env.malloc s.requests).isSome = mem

/-- The passes of a bundle over any nodes, which keep its blocks on the way.  The number is that of
the passes with memory. -/
inductive Path (data : List UInt8) : Nat → List UInt8 → Prop
  | start : Path data 0 data
  | pass {n : Nat} {d d' : List UInt8} {mem : Bool} (h : Path data n d) (p : Pass T mem d d') :
      Path data (if mem then n + 1 else n) d'

/-! ## Reading and writing -/

variable {T} {data data' l rest : List UInt8} {limit count n : Nat}

theorem ReadsUint.headOf (h : ReadsUint l n rest) (it : CborValue) (hit : it.rest = l) :
    ∃ size, Bundle7.headOf it = .ok ⟨.uint, some n, size⟩ ∧ rest = l.drop size := by
  obtain ⟨size, hread, hrest⟩ := h
  exact ⟨size, by simp [Bundle7.headOf, hit, hread], hrest⟩

theorem ReadsUint.preparse (h : ReadsUint l n rest) (remaining : Option Nat) :
    preparseValue remaining l = (none, ⟨l, some .uint, true, remaining⟩) := by
  obtain ⟨size, hread, -⟩ := h
  simp [preparseValue, hread]

/-- **The block is read**, with numbers of 16 bits. -/
theorem parse_hopCount (h : IsHopCount data limit count) :
    bundle7HopCountParse reference data =
      some ⟨(UInt64.ofNat limit).toUInt16, (UInt64.ofNat count).toUInt16⟩ := by
  obtain ⟨size, rest, harray, hlimit, hcount⟩ := h
  have hinit : reference.parserInit data = (none, ⟨data, some .array, true, some 1⟩) := by
    simp [reference, preparseValue, harray]
  have henter : reference.enterContainer ⟨data, some .array, true, some 1⟩ =
      .ok ⟨data.drop size, some .uint, true, some 2⟩ := by
    simp only [reference, headOf, harray]
    rw [if_neg (by decide), if_neg (by decide), preparseItem, if_neg (by simp),
      hlimit.preparse]
    rfl
  obtain ⟨limitSize, hheadLimit, hrest⟩ :=
    hlimit.headOf ⟨data.drop size, some .uint, true, some 2⟩ rfl
  obtain ⟨countSize, hheadCount, -⟩ := hcount.headOf ⟨rest, some .uint, true, some 1⟩ rfl
  have hadvance : reference.advanceFixed ⟨data.drop size, some .uint, true, some 2⟩ =
      (none, ⟨rest, some .uint, true, some 1⟩) := by
    simp only [reference, hheadLimit, preparseNext]
    rw [if_neg (by decide), if_neg (by decide), preparseItem, if_neg (by simp), ← hrest,
      hcount.preparse]
  unfold bundle7HopCountParse
  rw [hinit]
  simp only [CborValue.isArray, CborValue.isUnsignedInteger, henter, hadvance]
  simp [reference, hheadLimit, hheadCount]

theorem readsUint_encode {n : Nat} (h : n < 2 ^ 64) (rest : List UInt8) :
    ReadsUint (encodeHead .uint n ++ rest) n rest :=
  ⟨(encodeHead .uint n).length, readHead_encodeHead (by decide) h rest, by simp⟩

/-- **What is written is a hop count block.** -/
theorem isHopCount_serialize (hopCount : HopCount) :
    IsHopCount (bundle7HopCountSerialize reference hopCount).bytes hopCount.limit.toNat
      hopCount.count.toNat := by
  have hshort : ∀ x : UInt16, (encodeHead .uint x.toNat).length ≤ 3 := by
    intro x
    have hx := x.toNat_lt
    rw [length_encodeHead]
    split_ifs <;> omega
  have hbytes : (bundle7HopCountSerialize reference hopCount).bytes =
      encodeHead .array 2 ++ (encodeHead .uint hopCount.limit.toNat ++
        (encodeHead .uint hopCount.count.toNat ++ [])) := by
    have harray : (encodeHead .array 2).length = 1 := rfl
    have hlimit := hshort hopCount.limit
    have hcount := hshort hopCount.count
    simp only [bundle7HopCountSerialize, reference, hopCountMaxEncodedSize, UInt16.toNat_toUInt64,
      List.append_nil, List.append_assoc]
    apply List.take_of_length_le
    simp only [List.length_append]
    omega
  have h16 : ∀ x : UInt16, x.toNat < 2 ^ 64 := fun x =>
    Nat.lt_trans x.toNat_lt (by decide)
  rw [hbytes]
  exact ⟨_, _, readHead_encodeHead (by decide) (by decide) _, by
    rw [List.drop_left]
    exact readsUint_encode (h16 _) _, readsUint_encode (h16 _) _⟩

/-! ## One pass -/

theorem find_setFirstData (type : UInt32) (d : Buffer) (xs : List Block) :
    findBlockByType (setFirstData type d xs) type =
      (findBlockByType xs type).map ({ · with data := d }) := by
  induction xs with
  | nil => rfl
  | cons x xs ih =>
      unfold setFirstData
      by_cases hx : x.type = type
      · simp [findBlockByType, hx]
      · simpa [findBlockByType, hx] using ih

theorem find_blocks (b : Bundle) {type : UInt32} (htype : type ≠ blockTypePayload) :
    findBlockByType b.blocks type =
      (findBlockByType b.blocksBefore type).or (findBlockByType b.blocksAfter type) := by
  have hpayload : ¬ blockTypePayload = type := fun h => htype h.symm
  simp [findBlockByType, Bundle.blocks, List.find?_append, hpayload]

/-- The block that was found has the new data. -/
theorem find_setBlockData {b : Bundle} {type : UInt32} {block : Block} (d : Buffer)
    (htype : type ≠ blockTypePayload) (h : findBlockByType b.blocks type = some block) :
    findBlockByType (b.setBlockData type d).blocks type = some { block with data := d } := by
  rw [find_blocks _ htype] at h ⊢
  unfold Bundle.setBlockData
  cases hbefore : findBlockByType b.blocksBefore type with
  | some x =>
      rw [hbefore, Option.some_or] at h
      obtain rfl := Option.some.inj h
      simp [find_setFirstData, hbefore]
  | none =>
      rw [hbefore, Option.none_or] at h
      simp [find_setFirstData, hbefore, h]

/-- What `bundle_forward` does behind the validation keeps the blocks. -/
theorem forward_blocks {P : Params} {env : Env} {s s₁ s' : Processor} {a : Addr} {timeout : Nat}
    {b : Bundle} (hvalid : hopCountValidationWith (bundleDelete P env) P env s a = .ok (true, s₁))
    (hb : s₁.bundles.cells a = some b)
    (hrun : bundleForward P env s a timeout = .ok (true, s')) :
    ∃ b', s'.bundles.cells a = some b' ∧ b'.blocks = b.blocks := by
  unfold bundleForward bundleForwardWith at hrun
  rw [hvalid, ok_bind] at hrun
  simp only [Bool.not_true, Bool.false_eq_true, if_false] at hrun
  rw [update_of_cell hb, ok_bind, update_of_cell (put_self _ _ _), ok_bind,
    bundle_of_cell (put_self _ _ _), ok_bind] at hrun
  have hsend : ∀ x id, (sendBundle env x id timeout).2.bundles = x.bundles := by
    intro x id
    unfold sendBundle
    split
    · rfl
    · dsimp only
      split <;> rfl
  split at hrun
  · -- the queue is full, and the bundle is deleted
    next hfull =>
    cases hdel : bundleDelete P env _ a .depletedStorage with
    | error f =>
        rw [hdel] at hrun
        cases hrun
    | ok x =>
        rw [hdel] at hrun
        cases hrun
  · obtain ⟨-, rfl⟩ := Prod.mk.inj (Except.ok.inj hrun)
    refine ⟨b.forwarded, ?_, rfl⟩
    rw [hsend]
    exact put_self _ _ _

/-- A successful pass has passed the validation. -/
theorem valid_of_forward {P : Params} {env : Env} {s s' : Processor} {a : Addr} {timeout : Nat}
    (hrun : bundleForward P env s a timeout = .ok (true, s')) :
    ∃ s₁, hopCountValidationWith (bundleDelete P env) P env s a = .ok (true, s₁) := by
  unfold bundleForward bundleForwardWith at hrun
  cases hvalid : hopCountValidationWith (bundleDelete P env) P env s a with
  | error f =>
      rw [hvalid] at hrun
      cases hrun
  | ok r =>
      obtain ⟨valid, s₁⟩ := r
      cases valid with
      | true => exact ⟨s₁, rfl⟩
      | false =>
          rw [hvalid, ok_bind] at hrun
          simp only [Bool.not_false, if_true] at hrun
          cases hb : s₁.bundle a with
          | error f =>
              rw [hb] at hrun
              cases hrun
          | ok b =>
              rw [hb, ok_bind] at hrun
              cases hdel : bundleDelete P env s₁ a .hopLimitExceeded with
              | error f =>
                  rw [hdel] at hrun
                  cases hrun
              | ok s₂ =>
                  rw [hdel] at hrun
                  cases hrun

/-- Numbers of 16 bits are not cut. -/
theorem toUInt16_of_lt {n : Nat} (h : n < 2 ^ 16) : (UInt64.ofNat n).toUInt16.toNat = n := by
  rw [UInt64.toNat_toUInt16, UInt64.toNat_ofNat']
  omega

theorem cell_of_bundle {s : Processor} {a : Addr} {b : Bundle} (h : s.bundle a = .ok b) :
    s.bundles.cells a = some b := by
  unfold Processor.bundle at h
  split at h
  · cases h
  · next x hx =>
    obtain rfl := Except.ok.inj h
    exact hx

/-- **One pass.**  The bundle is handed on only below its limit, and it is counted when there is
memory for the new block. -/
theorem pass_spec (hT : T.Documented) {mem : Bool} (p : Pass T mem data data')
    (h : IsHopCount data limit count) (hlimit : limit < 2 ^ 16) (hcount : count < 2 ^ 16) :
    count < limit ∧ (if mem then IsHopCount data' limit (count + 1) else data' = data) := by
  obtain rfl := hT.eq_reference
  obtain ⟨P, ⟨hparse, hserialize⟩, env, s, s', a, timeout, hrun, hbefore, hafter, hserved⟩ := p
  obtain ⟨b, block, hb, hfind, rfl⟩ := hbefore
  obtain ⟨b', block', hb', hfind', rfl⟩ := hafter
  have hread := parse_hopCount h
  rw [← hparse] at hread
  obtain ⟨s₁, hvalid⟩ := valid_of_forward hrun
  have hvalid₀ := hvalid
  unfold hopCountValidationWith at hvalid
  rw [hb, ok_bind] at hvalid
  simp only [hfind, hread] at hvalid
  split at hvalid
  · cases hdel : bundleDelete P env s a .hopLimitExceeded with
    | error f =>
        rw [hdel] at hvalid
        cases hvalid
    | ok s₂ =>
        rw [hdel] at hvalid
        cases hvalid
  · next hlt =>
    rw [UInt16.le_iff_toNat_le, toUInt16_of_lt hlimit, toUInt16_of_lt hcount] at hlt
    refine ⟨by omega, ?_⟩
    -- the block of the bundle behind the validation
    have hkept : ∀ x, s₁.bundles.cells a = some x →
        findBlockByType x.blocks blockTypeHopCount = some block' := by
      intro x hx
      obtain ⟨y, hy, hblocks⟩ := forward_blocks hvalid₀ hx hrun
      rw [cell_of_bundle hb'] at hy
      obtain rfl := Option.some.inj hy
      rw [← hblocks]
      exact hfind'
    unfold malloc at hvalid
    cases hmem : env.malloc s.requests with
    | none =>
        rw [hmem] at hvalid hserved
        obtain rfl := hserved
        obtain ⟨-, rfl⟩ := Prod.mk.inj (Except.ok.inj hvalid)
        have hsame := hkept b (cell_of_bundle hb)
        rw [hfind] at hsame
        obtain rfl := Option.some.inj hsame
        rfl
    | some n =>
        rw [hmem] at hvalid hserved
        obtain rfl := hserved
        dsimp only at hvalid
        have hcell : ({ s with requests := s.requests + 1 } : Processor).bundles.cells a = some b :=
          cell_of_bundle hb
        rw [update_of_cell hcell, ok_bind] at hvalid
        obtain ⟨-, rfl⟩ := Prod.mk.inj (Except.ok.inj hvalid)
        have hnew := hkept _ (put_self _ _ _)
        rw [find_setBlockData _ (by decide) hfind] at hnew
        obtain rfl := Option.some.inj hnew
        rw [hserialize]
        have hwritten := isHopCount_serialize
          ⟨(UInt64.ofNat limit).toUInt16, (UInt64.ofNat count).toUInt16 + 1⟩
        have hsucc : ((UInt64.ofNat count).toUInt16 + 1).toNat = count + 1 := by
          rw [UInt16.toNat_add, toUInt16_of_lt hcount]
          have : (1 : UInt16).toNat = 1 := rfl
          omega
        rw [hsucc, toUInt16_of_lt hlimit] at hwritten
        exact hwritten

/-! ## Paths -/

/-- Along a path the limit stays, and every pass with memory counts. -/
theorem Path.count_le (hT : T.Documented) (hlimit : limit < 2 ^ 16) (hcount : count < 2 ^ 16)
    (h : IsHopCount data limit count) {d : List UInt8} (hpath : Path T data n d) :
    IsHopCount d limit (count + n) ∧ n ≤ limit - count := by
  induction hpath with
  | start => exact ⟨h, Nat.zero_le _⟩
  | @pass n d d' mem hpath p ih =>
      obtain ⟨hd, hn⟩ := ih
      have hsmall : count + n < 2 ^ 16 := by omega
      obtain ⟨hlt, hd'⟩ := pass_spec hT p hd hlimit hsmall
      cases mem with
      | true =>
          have hnext : n + 1 ≤ limit - count := by omega
          exact ⟨hd', hnext⟩
      | false =>
          obtain rfl : d' = d := hd'
          exact ⟨hd, hn⟩

/-- **The hop limit.**  On a path of nodes, `count + n` has been reached after `n` passes with
memory for the new block.  A further pass is taken below the limit only, and it leaves the limit
and `count + n + 1`; without memory it leaves the block as it is.  So there are at most `limit -
count` passes with memory. -/
theorem hop_limit (hT : T.Documented) (hlimit : limit < 2 ^ 16) (hcount : count < 2 ^ 16)
    (h : IsHopCount data limit count) {d : List UInt8} (hpath : Path T data n d) :
    n ≤ limit - count ∧ IsHopCount d limit (count + n) ∧
      ∀ (mem : Bool) (d' : List UInt8) (_ : Pass T mem d d'),
        count + n < limit ∧ (if mem then IsHopCount d' limit (count + n + 1) else d' = d) := by
  obtain ⟨hd, hn⟩ := hpath.count_le hT hlimit hcount h
  refine ⟨hn, hd, fun mem d' p => ?_⟩
  have hsmall : count + n < 2 ^ 16 := by omega
  exact pass_spec hT p hd hlimit hsmall

/-! ## Passes of a small node -/

/-- A node that reads and writes hop counts. -/
def countingNode : Params :=
  { smallNode with
    hopCountParse := bundle7HopCountParse reference
    hopCountSerialize := bundle7HopCountSerialize reference }

/-- The data of a hop count block as they are written in the shortest form. -/
def hopCountData (limit count : Nat) : List UInt8 :=
  encodeHead .array 2 ++ encodeHead .uint limit ++ encodeHead .uint count

theorem isHopCount_hopCountData (hlimit : limit < 2 ^ 64) (hcount : count < 2 ^ 64) :
    IsHopCount (hopCountData limit count) limit count := by
  have hread := readsUint_encode hcount []
  rw [List.append_nil] at hread
  unfold hopCountData
  rw [List.append_assoc]
  exact ⟨_, _, readHead_encodeHead (by decide) (by decide) _, by
    rw [List.drop_left]
    exact readsUint_encode hlimit _, hread⟩

/-- A bundle for another node with such a block. -/
def counted (data : Buffer) : Bundle :=
  note "dtn://x/a" [⟨⟨2, 0, data, [], .none⟩, blockTypeHopCount⟩]

/-- Surroundings without memory. -/
def starved : Env := { calm with malloc := fun _ => none }

/-- The small node behind a pass of such a bundle. -/
def passed (env : Env) (data : Buffer) : Processor :=
  match bundleForward countingNode env (holding (counted data)) 0 5 with
  | .ok (_, s) => s
  | .error _ => Processor.init

/-- A limit and a count before the pass of the small node. -/
def hopBuffer (limit count : Nat) (h : (hopCountData limit count).length < 2 ^ 32) : Buffer :=
  ⟨hopCountData limit count, h⟩

/-- The pass of the small node, if it comes out as said. -/
def samplePass {mem : Bool} (env : Env) {d : Buffer} {data' : List UInt8}
    (run : bundleForward countingNode env (holding (counted d)) 0 5 = .ok (true, passed env d))
    (before : HasHopCount (holding (counted d)) 0 d.bytes)
    (after : HasHopCount (passed env d) 0 data')
    (served : (env.malloc (holding (counted d)).requests).isSome = mem) :
    Pass reference mem d.bytes data' where
  P := countingNode
  uses := ⟨rfl, rfl⟩
  env := env
  s := holding (counted d)
  s' := passed env d
  a := 0
  timeout := 5
  run := run
  before := before
  after := after
  served := served

/-- From 0 to 1 at limit 2. -/
def firstPass : Pass reference true (hopCountData 2 0) (hopCountData 2 1) :=
  samplePass calm (d := hopBuffer 2 0 (by decide)) rfl ⟨_, _, rfl, rfl, rfl⟩
    ⟨_, _, rfl, rfl, rfl⟩ rfl

theorem hop_limit_two :
    1 ≤ 2 - 0 ∧ IsHopCount (hopCountData 2 1) 2 (0 + 1) ∧
      ∀ (mem : Bool) (d' : List UInt8) (_ : Pass reference mem (hopCountData 2 1) d'),
        0 + 1 < 2 ∧ (if mem then IsHopCount d' 2 (0 + 1 + 1) else d' = hopCountData 2 1) :=
  hop_limit reference_documented (by decide) (by decide)
    (isHopCount_hopCountData (by decide) (by decide)) (.pass .start firstPass)

/-- Without memory the block stays as it is, and a bundle beyond its limit may be handed on: 65537
is cut to 1. -/
theorem hop_limit_exceptions :
    (∃ d', Nonempty (Pass reference false (hopCountData 2 0) d') ∧ ¬ IsHopCount d' 2 1) ∧
      IsHopCount (hopCountData 2 65537) 2 65537 ∧
      Nonempty (Pass reference true (hopCountData 2 65537) (hopCountData 2 2)) := by
  have hstarved : Pass reference false (hopCountData 2 0) (hopCountData 2 0) :=
    samplePass starved (d := hopBuffer 2 0 (by decide)) rfl ⟨_, _, rfl, rfl, rfl⟩
      ⟨_, _, rfl, rfl, rfl⟩ rfl
  have hbeyond : Pass reference true (hopCountData 2 65537) (hopCountData 2 2) :=
    samplePass calm (d := hopBuffer 2 65537 (by decide)) rfl ⟨_, _, rfl, rfl, rfl⟩
      ⟨_, _, rfl, rfl, rfl⟩ rfl
  refine ⟨⟨_, ⟨hstarved⟩, fun h => ?_⟩, isHopCount_hopCountData (by decide) (by decide), ⟨hbeyond⟩⟩
  have hdata : IsHopCount (hopCountData 2 0) 2 0 :=
    isHopCount_hopCountData (by decide) (by decide)
  have hzero := parse_hopCount hdata
  rw [parse_hopCount h] at hzero
  exact absurd hzero (by decide)

end Bundle7
