import DisruptaBLE.Processor.Reception

/-!
# Unknown blocks

The block loop of `bundle_receive` unlinks a block that is to be discarded and then goes
on behind its successor, which it does not look at.

`handleBlocks_eq` takes the loop apart into the blocks that are kept and the number of
status reports that are requested.  `unknown_blocks_handled_iff` compares both with the
flags of all blocks: they agree if and only if the loop deletes the bundle, or no block
that it skips has a flag that matters.
-/

namespace BundleProcessor

open PtrHeap BundleStorage

variable {P : Params} {env : Env} {a : Addr}

/-! ## The loop as a decision -/

/-- A block other than the payload block. -/
def Block.unknown (x : Block) : Bool := x.type != blockTypePayload

/-- `DELETE_BUNDLE_IF_UNPROC` in a block other than the payload block. -/
def Block.deletes (x : Block) : Bool := x.unknown && hasFlag x.flags blockFlagDeleteBundleIfUnproc

/-- `DISCARD_IF_UNPROC` in a block other than the payload block. -/
def Block.discards (x : Block) : Bool := x.unknown && hasFlag x.flags blockFlagDiscardIfUnproc

/-- `REPORT_IF_UNPROC` in a block other than the payload block. -/
def Block.reports (x : Block) : Bool := x.unknown && hasFlag x.flags blockFlagReportIfUnproc

/-- The block as it is forwarded. -/
def Block.forwarded (x : Block) : Block :=
  if x.unknown then { x with flags := x.flags ||| blockFlagFwdUnproc } else x

/-- The number of status reports that the loop requests. -/
def reportsRequested : Bool → List Block → Nat
  | _, [] => 0
  | true, _ :: xs => reportsRequested false xs
  | false, x :: xs =>
      x.reports.toNat + if x.deletes then 0 else reportsRequested x.discards xs

/-- Status reports for blocks that are not understood. -/
def sendBlockReports (P : Params) (env : Env) (a : Addr) :
    Nat → Processor → Except Fault Processor
  | 0, s => .ok s
  | n + 1, s => do
      let s ← sendStatusReport P env s a .received .blockUnintelligible
      sendBlockReports P env a n s

theorem keptBlocks_cons (x : Block) (xs : List Block) :
    keptBlocks false (x :: xs) =
      if x.deletes then none
      else if x.discards then keptBlocks true xs
      else (keptBlocks false xs).map (x.forwarded :: ·) := by
  rw [keptBlocks]
  unfold Block.deletes Block.discards Block.forwarded Block.unknown
  by_cases htype : x.type = blockTypePayload
  · have hknown : (x.type != blockTypePayload) = false := by simpa using htype
    rw [if_pos htype, hknown, Bool.false_and, Bool.false_and, if_neg Bool.false_ne_true,
      if_neg Bool.false_ne_true, if_neg Bool.false_ne_true]
  · have hunknown : (x.type != blockTypePayload) = true := by simpa using htype
    rw [if_neg htype, hunknown, Bool.true_and, Bool.true_and, if_pos rfl]

/-- A status report before the rest of the loop. -/
theorem reportWhen_bind {f : Processor → Except Fault (Option (List Block) × Processor)} {n : Nat}
    {k : Option (List Block)} (hf : ∀ s, f s = (do
      let s ← sendBlockReports P env a n s
      pure (k, s))) (reports : Bool) (s : Processor) :
    (s.when reports (fun s => sendStatusReport P env s a .received .blockUnintelligible) >>= f) =
      (do
        let s ← sendBlockReports P env a (reports.toNat + n) s
        pure (k, s)) := by
  cases reports with
  | false =>
      rw [Bool.toNat_false, Nat.zero_add]
      exact hf s
  | true =>
      rw [Bool.toNat_true, Nat.add_comm]
      change (sendStatusReport P env s a .received .blockUnintelligible >>= f) =
        ((sendStatusReport P env s a .received .blockUnintelligible >>=
          sendBlockReports P env a n) >>= fun s => pure (k, s))
      cases sendStatusReport P env s a .received .blockUnintelligible with
      | error err => rfl
      | ok s₁ => exact hf s₁

/-- **The loop** requests status reports one after the other, and its result depends on the flags
only. -/
theorem handleBlocks_eq (skip : Bool) (xs : List Block) (s : Processor) :
    handleBlocks P env a skip xs s = (do
      let s ← sendBlockReports P env a (reportsRequested skip xs) s
      pure (keptBlocks skip xs, s)) := by
  induction xs generalizing skip s with
  | nil => cases skip <;> rfl
  | cons x xs ih =>
      have hnext : ∀ (y : Block) (s : Processor),
          (handleBlocks P env a false xs s >>= fun r => pure (r.1.map (y :: ·), r.2)) =
            (do
              let s ← sendBlockReports P env a (reportsRequested false xs) s
              pure ((keptBlocks false xs).map (y :: ·), s)) := by
        intro y s
        rw [ih]
        cases sendBlockReports P env a (reportsRequested false xs) s <;> rfl
      cases skip with
      | true => exact hnext x s
      | false =>
          rw [handleBlocks, keptBlocks, reportsRequested]
          unfold Block.deletes Block.discards Block.reports Block.unknown
          by_cases htype : x.type = blockTypePayload
          · have hknown : (x.type != blockTypePayload) = false := by simpa using htype
            rw [if_pos htype, if_pos htype, hknown, Bool.false_and, Bool.false_and,
              Bool.false_and, if_neg Bool.false_ne_true, Bool.toNat_false, Nat.zero_add]
            exact hnext x s
          · have hunknown : (x.type != blockTypePayload) = true := by simpa using htype
            rw [if_neg htype, if_neg htype, hunknown, Bool.true_and, Bool.true_and, Bool.true_and]
            apply reportWhen_bind
            intro s
            by_cases hdelete : hasFlag x.flags blockFlagDeleteBundleIfUnproc = true
            · rw [if_pos hdelete, if_pos hdelete, if_pos hdelete]
              rfl
            rw [if_neg hdelete, if_neg hdelete, if_neg hdelete]
            by_cases hdiscard : hasFlag x.flags blockFlagDiscardIfUnproc = true
            · rw [if_pos hdiscard, if_pos hdiscard, hdiscard]
              exact ih true s
            · rw [if_neg hdiscard, if_neg hdiscard, eq_false_of_ne_true hdiscard]
              exact hnext _ s

/-- The loop of `bundle_receive`, which runs over the blocks before and behind the payload block, is
one loop over all of them. -/
theorem keptBlocks_payload {p : Block} (hp : p.type = blockTypePayload) (skip : Bool)
    (xs ys : List Block) : keptBlocks skip (xs ++ p :: ys) =
      (keptBlocks skip xs).bind fun kept => (keptBlocks false ys).map (kept ++ p :: ·) := by
  have hknown : p.unknown = false := by simpa [Block.unknown] using hp
  induction xs generalizing skip with
  | nil =>
      cases skip with
      | true => rfl
      | false =>
          rw [List.nil_append, keptBlocks_cons]
          unfold Block.deletes Block.discards Block.forwarded
          rw [hknown, Bool.false_and, Bool.false_and, if_neg Bool.false_ne_true,
            if_neg Bool.false_ne_true, if_neg Bool.false_ne_true]
          rfl
  | cons x xs ih =>
      have hkeep : ∀ y : Block, (keptBlocks false (xs ++ p :: ys)).map (y :: ·) =
          ((keptBlocks false xs).map (y :: ·)).bind fun kept =>
            (keptBlocks false ys).map (kept ++ p :: ·) := by
        intro y
        rw [ih]
        cases keptBlocks false xs with
        | none => rfl
        | some kept => cases keptBlocks false ys <;> rfl
      cases skip with
      | true => exact hkeep x
      | false =>
          rw [List.cons_append, keptBlocks_cons, keptBlocks_cons]
          split
          · rfl
          split
          · exact ih true
          · exact hkeep x.forwarded

theorem reportsRequested_payload {p : Block} (hp : p.type = blockTypePayload) (skip : Bool)
    (xs ys : List Block) : reportsRequested skip (xs ++ p :: ys) = reportsRequested skip xs +
      if (keptBlocks skip xs).isSome then reportsRequested false ys else 0 := by
  have hknown : p.unknown = false := by simpa [Block.unknown] using hp
  induction xs generalizing skip with
  | nil =>
      cases skip with
      | true => exact (Nat.zero_add _).symm
      | false =>
          rw [List.nil_append, reportsRequested, reportsRequested]
          unfold Block.deletes Block.discards Block.reports
          rw [hknown, Bool.false_and, Bool.false_and, Bool.false_and, if_neg Bool.false_ne_true]
          rfl
  | cons x xs ih =>
      have hsome : ∀ y : Block, ((keptBlocks false xs).map (y :: ·)).isSome =
          (keptBlocks false xs).isSome := fun y => Option.isSome_map
      cases skip with
      | true =>
          have hkept : (keptBlocks true (x :: xs)).isSome = (keptBlocks false xs).isSome := hsome x
          rw [hkept]
          exact ih false
      | false =>
          rw [List.cons_append, reportsRequested, reportsRequested, keptBlocks_cons]
          by_cases hdelete : x.deletes = true
          · rw [if_pos hdelete, if_pos hdelete, if_pos hdelete]
            rfl
          rw [if_neg hdelete, if_neg hdelete, if_neg hdelete, ih, Nat.add_assoc]
          cases hdiscard : x.discards with
          | true => rfl
          | false => rw [if_neg Bool.false_ne_true, hsome]

/-! ## What is skipped -/

/-- The blocks that the loop looks at, if it does not delete the bundle. -/
def examinedBlocks : Bool → List Block → List Block
  | _, [] => []
  | true, _ :: xs => examinedBlocks false xs
  | false, x :: xs => x :: examinedBlocks x.discards xs

/-- The blocks that the loop skips: those right behind one that is discarded. -/
def skippedBlocks : Bool → List Block → List Block
  | _, [] => []
  | true, x :: xs => x :: skippedBlocks false xs
  | false, x :: xs => skippedBlocks x.discards xs

/-- A block for which there is nothing to be done. -/
def Block.Indifferent (x : Block) : Prop :=
  x.deletes = false ∧ x.discards = false ∧ x.reports = false ∧
    (x.unknown = true → hasFlag x.flags blockFlagFwdUnproc = true)

/-- The bundle is deleted. -/
theorem keptBlocks_eq_none_iff (skip : Bool) (xs : List Block) :
    keptBlocks skip xs = none ↔ ∃ x ∈ examinedBlocks skip xs, x.deletes = true := by
  induction xs generalizing skip with
  | nil => cases skip <;> simp [keptBlocks, examinedBlocks]
  | cons x xs ih =>
      cases skip with
      | true =>
          rw [keptBlocks, Option.map_eq_none_iff]
          exact ih false
      | false =>
          rw [keptBlocks_cons, examinedBlocks]
          cases hdelete : x.deletes with
          | true => exact iff_of_true rfl ⟨x, List.mem_cons_self, hdelete⟩
          | false =>
              have hcons : (∃ y ∈ x :: examinedBlocks x.discards xs, y.deletes = true) ↔
                  ∃ y ∈ examinedBlocks x.discards xs, y.deletes = true := by
                simp [hdelete]
              rw [if_neg Bool.false_ne_true, hcons]
              cases hdiscard : x.discards with
              | true => exact ih true
              | false =>
                  rw [if_neg Bool.false_ne_true, Option.map_eq_none_iff]
                  exact ih false

/-- Every block is examined or skipped. -/
theorem mem_examined_or_skipped {skip : Bool} {xs : List Block} {x : Block} (hx : x ∈ xs) :
    x ∈ examinedBlocks skip xs ∨ x ∈ skippedBlocks skip xs := by
  induction xs generalizing skip with
  | nil => cases hx
  | cons y ys ih =>
      cases skip with
      | true =>
          rw [examinedBlocks, skippedBlocks, List.mem_cons]
          rcases List.mem_cons.mp hx with rfl | hx
          · exact Or.inr (Or.inl rfl)
          · exact (ih hx).imp_right Or.inr
      | false =>
          rw [examinedBlocks, skippedBlocks, List.mem_cons]
          rcases List.mem_cons.mp hx with rfl | hx
          · exact Or.inl (Or.inl rfl)
          · exact (ih hx).imp_left Or.inr

theorem mem_of_mem_skipped {skip : Bool} {xs : List Block} {x : Block}
    (hx : x ∈ skippedBlocks skip xs) : x ∈ xs := by
  induction xs generalizing skip with
  | nil => cases skip <;> cases hx
  | cons y ys ih =>
      cases skip with
      | true =>
          rcases List.mem_cons.mp hx with rfl | hx
          · exact List.mem_cons_self
          · exact List.mem_cons_of_mem _ (ih hx)
      | false => exact List.mem_cons_of_mem _ (ih hx)

/-- What is skipped is kept as it is. -/
theorem mem_kept_of_skipped {skip : Bool} {xs kept : List Block} {x : Block}
    (hkept : keptBlocks skip xs = some kept) (hx : x ∈ skippedBlocks skip xs) : x ∈ kept := by
  induction xs generalizing skip kept with
  | nil => cases skip <;> cases hx
  | cons y ys ih =>
      cases skip with
      | true =>
          rw [keptBlocks, Option.map_eq_some_iff] at hkept
          obtain ⟨rest, hrest, rfl⟩ := hkept
          rcases List.mem_cons.mp hx with rfl | hx
          · exact List.mem_cons_self
          · exact List.mem_cons_of_mem _ (ih hrest hx)
      | false =>
          rw [skippedBlocks] at hx
          rw [keptBlocks_cons] at hkept
          split at hkept
          · cases hkept
          split at hkept
          · next hdiscard =>
            rw [hdiscard] at hx
            exact ih hkept hx
          · next hdiscard =>
            rw [eq_false_of_ne_true hdiscard] at hx
            obtain ⟨rest, hrest, rfl⟩ := Option.map_eq_some_iff.mp hkept
            exact List.mem_cons_of_mem _ (ih hrest hx)

/-- Reports are requested for the blocks that are examined. -/
theorem reportsRequested_add_skipped {skip : Bool} {xs kept : List Block}
    (hkept : keptBlocks skip xs = some kept) :
    reportsRequested skip xs + (skippedBlocks skip xs).countP Block.reports =
      xs.countP Block.reports := by
  induction xs generalizing skip kept with
  | nil => cases skip <;> rfl
  | cons x xs ih =>
      cases skip with
      | true =>
          rw [keptBlocks, Option.map_eq_some_iff] at hkept
          obtain ⟨rest, hrest, -⟩ := hkept
          rw [reportsRequested, skippedBlocks, List.countP_cons, List.countP_cons, ← ih hrest]
          omega
      | false =>
          have hcount : (if x.reports = true then 1 else 0) = x.reports.toNat := by
            cases x.reports <;> rfl
          rw [keptBlocks_cons] at hkept
          rw [reportsRequested, skippedBlocks, List.countP_cons, hcount]
          split at hkept
          · cases hkept
          next hdelete =>
          rw [if_neg hdelete]
          have hrest : ∃ rest, keptBlocks x.discards xs = some rest := by
            split at hkept
            · next hdiscard => exact ⟨kept, hdiscard ▸ hkept⟩
            · next hdiscard =>
              obtain ⟨rest, hrest, -⟩ := Option.map_eq_some_iff.mp hkept
              exact ⟨rest, eq_false_of_ne_true hdiscard ▸ hrest⟩
          obtain ⟨rest, hrest⟩ := hrest
          rw [← ih hrest]
          omega

/-! ## Flags -/

theorem hasFlag_union (f g flag : UInt32) :
    hasFlag (f ||| g) flag = (hasFlag f flag || hasFlag g flag) := by
  have hdistrib : (f ||| g) &&& flag = (f &&& flag) ||| (g &&& flag) := by
    apply UInt32.eq_of_toBitVec_eq
    ext i hi
    simp only [UInt32.toBitVec_and, UInt32.toBitVec_or, BitVec.getElem_and, BitVec.getElem_or,
      Bool.and_or_distrib_right]
  unfold hasFlag
  rw [hdistrib, Bool.eq_iff_iff, Bool.or_eq_true, bne_iff_ne, bne_iff_ne, bne_iff_ne, Ne,
    UInt32.or_eq_zero_iff, not_and_or]

@[simp] theorem Block.unknown_forwarded (x : Block) : x.forwarded.unknown = x.unknown := by
  unfold Block.forwarded
  split <;> rfl

@[simp] theorem Block.discards_forwarded (x : Block) : x.forwarded.discards = x.discards := by
  have hother : hasFlag blockFlagFwdUnproc blockFlagDiscardIfUnproc = false := by decide
  unfold Block.discards
  rw [Block.unknown_forwarded]
  unfold Block.forwarded
  split
  · rw [hasFlag_union, hother, Bool.or_false]
  · rfl

theorem Block.fwd_forwarded {x : Block} (hx : x.forwarded.unknown = true) :
    hasFlag x.forwarded.flags blockFlagFwdUnproc = true := by
  have hown : hasFlag blockFlagFwdUnproc blockFlagFwdUnproc = true := by decide
  rw [Block.unknown_forwarded] at hx
  unfold Block.forwarded
  rw [if_pos hx, hasFlag_union, hown, Bool.or_true]

/-- A block with the flag stays as it is. -/
theorem Block.forwarded_eq_self {x : Block}
    (hflags : x.flags ||| blockFlagFwdUnproc = x.flags) : x.forwarded = x := by
  unfold Block.forwarded
  rw [hflags]
  split <;> rfl

@[simp] theorem Block.forwarded_forwarded (x : Block) : x.forwarded.forwarded = x.forwarded := by
  by_cases hx : x.unknown = true
  · apply Block.forwarded_eq_self
    unfold Block.forwarded
    rw [if_pos hx, UInt32.or_assoc, UInt32.or_self]
  · have hsame : x.forwarded = x := if_neg hx
    rw [hsame, hsame]

/-! ## The whole loop -/

/-- **What the flags of all blocks ask for**: no block deletes the bundle, the blocks that remain
are those that are not to be discarded, in their order and with `FWD_UNPROC`, and every block that
asks for a report has got one. -/
structure UnknownBlocksHandled (xs remaining : List Block) (reports : Nat) : Prop where
  noDelete : ∀ x ∈ xs, x.deletes = false
  kept : remaining.map Block.forwarded =
    (xs.filter fun x => !x.discards).map Block.forwarded
  forwarded : ∀ x ∈ remaining, x.unknown = true → hasFlag x.flags blockFlagFwdUnproc = true
  reported : reports = xs.countP Block.reports

/-- With nothing to do for the skipped blocks, the right ones remain. -/
theorem kept_of_indifferent {skip : Bool} {xs kept : List Block}
    (hkept : keptBlocks skip xs = some kept)
    (hskip : ∀ x ∈ skippedBlocks skip xs, x.Indifferent) :
    kept.map Block.forwarded = (xs.filter fun x => !x.discards).map Block.forwarded ∧
      ∀ x ∈ kept, x.unknown = true → hasFlag x.flags blockFlagFwdUnproc = true := by
  induction xs generalizing skip kept with
  | nil =>
      obtain rfl : kept = [] := by cases skip <;> exact (Option.some.inj hkept).symm
      exact ⟨rfl, fun x hx => absurd hx List.not_mem_nil⟩
  | cons x xs ih =>
      cases skip with
      | true =>
          rw [keptBlocks, Option.map_eq_some_iff] at hkept
          obtain ⟨rest, hrest, rfl⟩ := hkept
          obtain ⟨-, hdiscard, -, hfwd⟩ := hskip x List.mem_cons_self
          obtain ⟨hsame, hall⟩ := ih hrest fun y hy => hskip y (List.mem_cons_of_mem _ hy)
          rw [List.filter_cons_of_pos (by rw [hdiscard]; rfl), List.map_cons, List.map_cons, hsame]
          refine ⟨rfl, fun y hy => ?_⟩
          rcases List.mem_cons.mp hy with rfl | hy
          · exact hfwd
          · exact hall y hy
      | false =>
          rw [skippedBlocks] at hskip
          rw [keptBlocks_cons] at hkept
          split at hkept
          · cases hkept
          split at hkept
          · next hdiscard =>
            rw [hdiscard] at hskip
            rw [List.filter_cons_of_neg (by rw [hdiscard]; decide)]
            exact ih hkept hskip
          · next hdiscard =>
            rw [eq_false_of_ne_true hdiscard] at hskip
            obtain ⟨rest, hrest, rfl⟩ := Option.map_eq_some_iff.mp hkept
            obtain ⟨hsame, hall⟩ := ih hrest hskip
            rw [List.filter_cons_of_pos (by simpa using hdiscard), List.map_cons, List.map_cons,
              hsame, Block.forwarded_forwarded]
            refine ⟨rfl, fun y hy => ?_⟩
            rcases List.mem_cons.mp hy with rfl | hy
            · exact Block.fwd_forwarded
            · exact hall y hy

/-- What a skipped block asks for is not done. -/
theorem indifferent_of_handled {skip : Bool} {xs kept : List Block} {reports : Nat}
    (hkept : keptBlocks skip xs = some kept) (hreports : reports = reportsRequested skip xs)
    (h : UnknownBlocksHandled xs kept reports) :
    ∀ x ∈ skippedBlocks skip xs, x.Indifferent := by
  intro x hx
  have hmem : x ∈ kept := mem_kept_of_skipped hkept hx
  refine ⟨h.noDelete x (mem_of_mem_skipped hx), ?_, ?_, h.forwarded x hmem⟩
  · have hmap : x.forwarded ∈ (xs.filter fun x => !x.discards).map Block.forwarded :=
      h.kept ▸ List.mem_map_of_mem hmem
    obtain ⟨y, hy, hxy⟩ := List.mem_map.mp hmap
    have hnot : y.discards = false := by simpa using (List.mem_filter.mp hy).2
    rw [← Block.discards_forwarded, ← hxy, Block.discards_forwarded, hnot]
  · have hcount := reportsRequested_add_skipped hkept
    rw [← hreports, h.reported] at hcount
    have hzero : (skippedBlocks skip xs).countP Block.reports = 0 := by omega
    exact eq_false_of_ne_true (List.countP_eq_zero.mp hzero x hx)

/-- **Unknown blocks.**  For every list of blocks, the loop requests status reports one after the
other, and keeps a list of blocks unless it deletes the bundle.  If it does not, what it does is
what the flags of all blocks ask for, if and only if it looks at a block that deletes the bundle or
there is nothing to be done for the blocks right behind discarded ones.  The loops over the blocks
before and behind a payload block are one loop. -/
theorem unknown_blocks_handled_iff (P : Params) (env : Env) (a : Addr) (xs : List Block) :
    (∀ s, handleBlocks P env a false xs s = (do
      let s ← sendBlockReports P env a (reportsRequested false xs) s
      pure (keptBlocks false xs, s))) ∧
    ((∀ remaining, keptBlocks false xs = some remaining →
        UnknownBlocksHandled xs remaining (reportsRequested false xs)) ↔
      (∃ x ∈ examinedBlocks false xs, x.deletes = true) ∨
        ∀ x ∈ skippedBlocks false xs, x.Indifferent) ∧
    ∀ before p after, xs = before ++ p :: after → p.type = blockTypePayload →
      keptBlocks false xs = ((keptBlocks false before).bind fun kept =>
        (keptBlocks false after).map (kept ++ p :: ·)) ∧
      reportsRequested false xs = reportsRequested false before +
        if (keptBlocks false before).isSome then reportsRequested false after else 0 := by
  refine ⟨handleBlocks_eq false xs, ?_, ?_⟩
  · constructor
    · intro h
      cases hkept : keptBlocks false xs with
      | none => exact Or.inl ((keptBlocks_eq_none_iff false xs).mp hkept)
      | some kept => exact Or.inr (indifferent_of_handled hkept rfl (h kept hkept))
    · rintro (hdelete | hskip) remaining hkept
      · rw [(keptBlocks_eq_none_iff false xs).mpr hdelete] at hkept
        cases hkept
      · obtain ⟨hsame, hfwd⟩ := kept_of_indifferent hkept hskip
        have hcount := reportsRequested_add_skipped hkept
        have hnone : (skippedBlocks false xs).countP Block.reports = 0 :=
          List.countP_eq_zero.mpr fun x hx => Bool.eq_false_iff.mp (hskip x hx).2.2.1
        refine ⟨?_, hsame, hfwd, by omega⟩
        intro x hx
        rcases mem_examined_or_skipped hx with hexamined | hskipped
        · by_contra hdelete
          have hnull := (keptBlocks_eq_none_iff false xs).mpr
            ⟨x, hexamined, Bool.eq_true_of_not_eq_false hdelete⟩
          rw [hnull] at hkept
          cases hkept
        · exact (hskip x hskipped).1
  · rintro before p after rfl hp
    exact ⟨keptBlocks_payload hp false before after,
      reportsRequested_payload hp false before after⟩

/-- A block with these flags, of a type that is not known. -/
def unknownBlock (flags : UInt32) : Block :=
  { number := 2, flags, data := Buffer.empty, eidRefs := [], crcType := .none, type := 193 }

/-- A block that deletes the bundle is not seen behind one that is discarded. -/
theorem delete_behind_discarded :
    (∀ P env a s, handleBlocks P env a false
        [unknownBlock blockFlagDiscardIfUnproc, unknownBlock blockFlagDeleteBundleIfUnproc] s =
      .ok (some [unknownBlock blockFlagDeleteBundleIfUnproc], s)) ∧
    ¬ ∀ xs remaining, keptBlocks false xs = some remaining →
      UnknownBlocksHandled xs remaining (reportsRequested false xs) := by
  constructor
  · intro P env a s
    rw [handleBlocks_eq]
    rfl
  · intro hall
    have hhandled := hall
      [unknownBlock blockFlagDiscardIfUnproc, unknownBlock blockFlagDeleteBundleIfUnproc] _ rfl
    have hdelete := hhandled.noDelete (unknownBlock blockFlagDeleteBundleIfUnproc)
      (List.mem_cons_of_mem _ List.mem_cons_self)
    exact absurd hdelete (by decide)

end BundleProcessor
