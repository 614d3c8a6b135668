import Mathlib.Data.List.Basic

/-!
# Parsers fed byte by byte

A parser takes a byte and says whether it wants another one.  `read` feeds it a
buffer up to the byte after which it wants none, and returns the number of bytes
that it took.

`Fed` is the course of a parser over a sequence of bytes.  It can be cut anywhere
(`Fed.cut`), so a buffer may come in any segments: each read takes its whole
segment, and the parser ends in the same state (`Fed.readSegments`).
-/

namespace ByteFeed

universe u

variable {σ ε : Type u} (step : σ → UInt8 → Except ε (Bool × σ))

/-- Feed a buffer, up to the byte after which the parser stops. -/
def read : List UInt8 → σ → Except ε (Nat × σ)
  | [], p => .ok (0, p)
  | b :: bs, p =>
      match step p b with
      | .error e => .error e
      | .ok (false, p) => .ok (1, p)
      | .ok (true, p) =>
          match read bs p with
          | .error e => .error e
          | .ok (n, p) => .ok (n + 1, p)

/-- Feed segments one after the other, with the number of bytes taken from each. -/
def readSegments : List (List UInt8) → σ → Except ε (List Nat × σ)
  | [], p => .ok ([], p)
  | bs :: segments, p =>
      match read step bs p with
      | .error e => .error e
      | .ok (n, p) =>
          match readSegments segments p with
          | .error e => .error e
          | .ok (ns, p) => .ok (n :: ns, p)

/-- A parser takes a sequence of bytes, and wants more after all of them but possibly the last. -/
inductive Fed : σ → List UInt8 → Bool → σ → Prop where
  | nil {p : σ} : Fed p [] true p
  | more {p q r : σ} {b : UInt8} {bs : List UInt8} {wants : Bool} :
      step p b = .ok (true, q) → Fed q bs wants r → Fed p (b :: bs) wants r
  | last {p q : σ} {b : UInt8} : step p b = .ok (false, q) → Fed p [b] false q

variable {step}

section Runs

variable {p q r : σ} {wants : Bool} {bs cs : List UInt8}

theorem Fed.append (h : Fed step p bs true q) (h' : Fed step q cs wants r) :
    Fed step p (bs ++ cs) wants r := by
  generalize hmore : true = more at h
  induction h with
  | nil => exact h'
  | more hstep _ ih => exact .more hstep (ih h' hmore)
  | last _ => cases hmore

/-- A course can be cut anywhere but behind its last byte. -/
theorem Fed.cut (h : Fed step p (bs ++ cs) wants r) (hcs : cs ≠ []) :
    ∃ q, Fed step p bs true q ∧ Fed step q cs wants r := by
  induction bs generalizing p with
  | nil => exact ⟨p, .nil, h⟩
  | cons b bs ih =>
      rw [List.cons_append] at h
      generalize htotal : bs ++ cs = total at h
      cases h with
      | more hstep hrest =>
          obtain ⟨q, hfirst, hlast⟩ := ih (htotal ▸ hrest)
          exact ⟨q, .more hstep hfirst, hlast⟩
      | last _ => exact absurd (List.append_eq_nil_iff.mp htotal).2 hcs

/-- A buffer that is a course is read as a whole. -/
theorem Fed.read (h : Fed step p bs wants q) : read step bs p = .ok (bs.length, q) := by
  induction h with
  | nil => rfl
  | more hstep _ ih =>
      rw [ByteFeed.read, hstep]
      dsimp only
      rw [ih]
      rfl
  | last hstep =>
      rw [ByteFeed.read, hstep]
      rfl

/-- What follows a course that ends is not read. -/
theorem Fed.read_append (h : Fed step p bs false q) (cs : List UInt8) :
    ByteFeed.read step (bs ++ cs) p = .ok (bs.length, q) := by
  generalize hends : false = wants at h
  induction h with
  | nil => cases hends
  | more hstep _ ih =>
      rw [List.cons_append, ByteFeed.read, hstep]
      dsimp only
      rw [ih hends]
      rfl
  | last hstep =>
      rw [List.cons_append, ByteFeed.read, hstep]
      rfl

/-- **Segments** of a course are read as a whole, one after the other. -/
theorem Fed.readSegments {segments : List (List UInt8)}
    (h : Fed step p segments.flatten wants q) :
    readSegments step segments p = .ok (segments.map List.length, q) := by
  induction segments generalizing p wants with
  | nil =>
      cases h
      rfl
  | cons bs segments ih =>
      rw [List.flatten_cons] at h
      rw [ByteFeed.readSegments]
      by_cases hrest : segments.flatten = []
      · rw [hrest, List.append_nil] at h
        have hnil : Fed step q segments.flatten true q := by
          rw [hrest]
          exact .nil
        rw [h.read]
        dsimp only
        rw [ih hnil]
        rfl
      · obtain ⟨q', hfirst, hlast⟩ := h.cut hrest
        rw [hfirst.read]
        dsimp only
        rw [ih hlast]
        rfl

end Runs

end ByteFeed
