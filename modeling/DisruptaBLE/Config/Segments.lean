import DisruptaBLE.Config.Fidelity

/-!
# Commands in segments

Whole sequences of `config_parser_read`.  A byte that is no part of a command resets the parser,
and the other bytes of its segment are dropped; the text of a command is what was read since the
last reset.

A command that is sent is the one in its text exactly when all numbers in this text are written
with a digit at least, and fit their fields (`command_fidelity_iff`): the numbers are converted to
the width of the field, and what is checked is the result (`wrong_reliability`).
-/

namespace ConfigParser

/-! ## The text of a command -/

/-- A parser with the bytes it has read since it was reset. -/
structure Traced where
  parser : Parser
  text : List (UInt8 × UInt64)

/-- One byte; a parser that is done does not read it. -/
def Traced.byte (longBits : Nat) (t : Traced) (x : UInt8 × UInt64) : Traced where
  parser := configParserReadByte longBits x.2 t.parser x.1
  text := if t.parser.status = .good then t.text ++ [x] else t.text

/-- The loop of `config_parser_read`. -/
def Traced.loop (longBits : Nat) : List (UInt8 × UInt64) → Traced → Traced
  | [], t => t
  | x :: rest, t =>
      let t := t.byte longBits x
      if t.parser.status ≠ .good ∧ t.parser.status ≠ .done then
        ⟨configParserReset t.parser, []⟩
      else t.loop longBits rest

/-- One call of `config_parser_read` after the other. -/
def traceAll (longBits : Nat) (segments : List (List (UInt8 × UInt64))) : Traced :=
  segments.foldl (fun t buffer => t.loop longBits buffer) ⟨Parser.fresh [], []⟩

variable {longBits : Nat} {p q : Parser} {t : Traced} {bs : List (UInt8 × UInt64)}
  {segments : List (List (UInt8 × UInt64))}

theorem loop_reads (length i : Nat) :
    (t.loop longBits bs).parser = (readLoop longBits length i bs t.parser).2 := by
  induction bs generalizing t i with
  | nil => rfl
  | cons x bs ih =>
      unfold Traced.loop readLoop
      dsimp only [Traced.byte]
      split
      · rfl
      · exact ih (i + 1)

/-- The traced parser is the parser. -/
theorem traceAll_reads (segments : List (List (UInt8 × UInt64))) :
    (traceAll longBits segments).parser = readAll longBits segments := by
  have hfold : ∀ t : Traced, (segments.foldl (fun t buffer => t.loop longBits buffer) t).parser =
      segments.foldl (fun p buffer => (configParserRead longBits p buffer).2) t.parser := by
    induction segments with
    | nil => exact fun _ => rfl
    | cons buffer segments ih =>
        intro t
        rw [List.foldl_cons, List.foldl_cons, ih, loop_reads buffer.length 0]
        rfl
  exact hfold _

/-! ## What is sent -/

namespace Parser

variable (p) (b : UInt8)

@[simp] theorem sent_onNode (f : Node → Node) : (p.onNode f).sent = p.sent := rfl

@[simp] theorem sent_onContact (f : Contact → Contact) : (p.onContact f).sent = p.sent := rfl

@[simp] theorem sent_onEids (f : List Str → List Str) (list : EidList) :
    (p.onEids f list).sent = p.sent := by
  cases list <;> rfl

@[simp] theorem sent_beginReadDataEid (target : EidList) :
    (p.beginReadDataEid target).sent = p.sent := by
  unfold beginReadDataEid
  split <;> simp

@[simp] theorem sent_beginReadNodeConfEid : p.beginReadNodeConfEid.sent = p.sent := rfl

@[simp] theorem sent_readNodeConfEid : (p.readNodeConfEid b).sent = p.sent := by
  unfold readNodeConfEid
  split <;> rfl

@[simp] theorem sent_readEid : (p.readEid b).sent = p.sent := by
  unfold readEid
  split
  · split <;> simp
  · rfl

@[simp] theorem sent_beginReadClaAddr : p.beginReadClaAddr.sent = p.sent := rfl

@[simp] theorem sent_readClaAddr : (p.readClaAddr b).sent = p.sent := by
  unfold readClaAddr
  split <;> rfl

@[simp] theorem sent_beginReadContact : p.beginReadContact.sent = p.sent := rfl

@[simp] theorem sent_beginReadInteger : p.beginReadInteger.sent = p.sent := rfl

@[simp] theorem sent_readInteger : (p.readInteger b).sent = p.sent := by
  unfold readInteger
  split <;> rfl

@[simp] theorem sent_endOr (next : Stage) : (p.endOr b next).sent = p.sent := by
  unfold endOr
  split
  · rfl
  · split <;> rfl

@[simp] theorem sent_separatorOr (start next : Stage) :
    (p.separatorOr b start next).sent = p.sent := by
  unfold separatorOr
  split
  · rfl
  · split <;> rfl

@[simp] theorem sent_expect (delimiter : UInt8) (next : Stage) :
    (p.expect b delimiter next).sent = p.sent := by
  unfold expect
  split <;> rfl

end Parser

/-- Reading does not send anything. -/
theorem readCommand_sent (now : UInt64) (p : Parser) (b : UInt8) :
    (readCommand longBits now p b).sent = p.sent := by
  unfold readCommand
  cases p.stage <;> simp [apply_ite Parser.sent]

theorem readCommandType_sent (p : Parser) (b : UInt8) : (readCommandType p b).sent = p.sent := by
  unfold readCommandType
  dsimp only
  split <;> rfl

/-- **One byte** sends the command when it completes it. -/
theorem readByte_sent (hgood : p.status = .good) (now : UInt64) (b : UInt8) :
    (configParserReadByte longBits now p b).sent =
      if (configParserReadByte longBits now p b).status = .done then
        p.sent ++ [(configParserReadByte longBits now p b).routerCommand]
      else p.sent := by
  unfold configParserReadByte
  rw [if_neg (not_not_intro hgood)]
  have hsent : (if p.stage = .commandType then readCommandType p b
      else readCommand longBits now p b).sent = p.sent := by
    split
    · exact readCommandType_sent p b
    · exact readCommand_sent now p b
  generalize (if p.stage = .commandType then readCommandType p b
    else readCommand longBits now p b) = r at hsent
  dsimp only
  by_cases hdone : r.status = .done
  · rw [if_pos hdone, if_pos (show (sendRouterCommand r).status = .done from hdone)]
    exact congrArg (· ++ [r.routerCommand]) hsent
  · rw [if_neg hdone, if_neg hdone]
    exact hsent

/-- **A run** sends the command at its end, if it completes one. -/
theorem Steps.sent (h : Steps longBits p bs q) (hgood : p.status = .good) :
    q.sent = if q.status = .done then p.sent ++ [q.routerCommand] else p.sent := by
  induction bs generalizing p with
  | nil =>
      obtain rfl : p = q := h
      rw [if_neg (by rw [hgood]; decide)]
  | cons x bs ih =>
      obtain ⟨b, now⟩ := x
      obtain ⟨_, hrest⟩ := h
      have hbyte := @readByte_sent longBits p hgood now b
      by_cases hnext : (configParserReadByte longBits now p b).status = .good
      · rw [if_neg (by rw [hnext]; decide)] at hbyte
        rw [ih hrest hnext, hbyte]
      · cases bs with
        | nil =>
            obtain rfl : configParserReadByte longBits now p b = q := hrest
            exact hbyte
        | cons y bs => exact absurd hrest.1 hnext

/-- The text leads from the initial state to the state of the parser. -/
structure Traced.Sound (longBits : Nat) (t : Traced) : Prop where
  steps : Steps longBits (Parser.fresh []) t.text t.parser
  ok : t.parser.status ≠ .error

theorem Traced.Sound.byte (h : t.Sound longBits) (x : UInt8 × UInt64) :
    Steps longBits (Parser.fresh []) (t.byte longBits x).text (t.byte longBits x).parser := by
  obtain ⟨b, now⟩ := x
  unfold Traced.byte
  dsimp only
  split
  · next hgood => exact h.steps.append ⟨hgood, rfl⟩
  · next hgood =>
    rw [configParserReadByte, if_pos hgood]
    exact h.steps

/-- **One call of `config_parser_read`.** -/
theorem Traced.Sound.loop (h : t.Sound longBits) : (t.loop longBits bs).Sound longBits := by
  induction bs generalizing t with
  | nil => exact h
  | cons x bs ih =>
      have hbyte := h.byte x
      unfold Traced.loop
      dsimp only
      split
      · next hbad =>
        have hreset : configParserReset (t.byte longBits x).parser = Parser.fresh [] := by
          unfold configParserReset
          rw [if_neg fun hfresh => hbad.1 hfresh.1, hbyte.sent rfl, if_neg hbad.2]
          rfl
        rw [hreset]
        exact ⟨rfl, nofun⟩
      · next hok =>
        refine ih ⟨hbyte, fun herror => hok ?_⟩
        rw [herror]
        exact ⟨nofun, nofun⟩

theorem traceAll_sound (segments : List (List (UInt8 × UInt64))) :
    (traceAll longBits segments).Sound longBits := by
  have hfold : ∀ t : Traced, t.Sound longBits →
      (segments.foldl (fun t buffer => t.loop longBits buffer) t).Sound longBits := by
    induction segments with
    | nil => exact fun _ h => h
    | cons buffer segments ih => exact fun t h => ih _ h.loop
  exact hfold _ ⟨rfl, nofun⟩

/-! ## Fidelity -/

/-- The parser ends with a complete command, and this command is sent. -/
def Sends (longBits : Nat) (segments : List (List (UInt8 × UInt64))) (c : RouterCommand) : Prop :=
  (readAll longBits segments).status = .done ∧ c ∈ (readAll longBits segments).sent

/-- What was read since the last reset is the text of a tree. -/
def IsText (longBits : Nat) (segments : List (List (UInt8 × UInt64))) (w : CommandText) : Prop :=
  chars (traceAll longBits segments).text = w.text

instance (w : CommandText) : Decidable (IsText longBits segments w) :=
  inferInstanceAs (Decidable (chars (traceAll longBits segments).text = w.text))

/-- **The property**: a command that is sent is the one that is written. -/
def Faithful (longBits : Nat) (segments : List (List (UInt8 × UInt64))) : Prop :=
  ∀ c, Sends longBits segments c → ∃ w, IsText longBits segments w ∧ w.Matches c

theorem IsText.unique {w w' : CommandText} (h : IsText longBits segments w)
    (h' : IsText longBits segments w') : w = w' :=
  CommandText.text_injective w w' (h.symm.trans h')

/-- **What is sent** is what the parser makes of the text. -/
theorem sends_read {c : RouterCommand} (h : Sends longBits segments c) :
    ∃ w, IsText longBits segments w ∧ c = w.read longBits := by
  obtain ⟨hdone, hmem⟩ := h
  have hsteps := (@traceAll_sound longBits segments).steps
  rw [traceAll_reads] at hsteps
  obtain ⟨w, htext, hcommand⟩ := steps_command hsteps hdone
  refine ⟨w, htext, ?_⟩
  rw [hsteps.sent rfl, if_pos hdone] at hmem
  rw [List.mem_singleton.mp hmem, hcommand]

/-- **Fidelity of configuration commands.** -/
theorem command_fidelity_iff (hbits : 32 ≤ longBits)
    (segments : List (List (UInt8 × UInt64))) :
    Faithful longBits segments ↔ ∀ c, Sends longBits segments c →
      ∃ w, IsText longBits segments w ∧ w.NumbersFit := by
  refine forall₂_congr fun c hsends => ?_
  obtain ⟨w, htext, rfl⟩ := sends_read hsends
  constructor
  · rintro ⟨w', htext', hmatches⟩
    obtain rfl := htext.unique htext'
    exact ⟨w, htext, (matches_read_iff hbits w).mp hmatches⟩
  · rintro ⟨w', htext', hfit⟩
    obtain rfl := htext.unique htext'
    exact ⟨w, htext, (matches_read_iff hbits w).mpr hfit⟩

/-- The bytes of a text, all read at the same time. -/
def ascii (s : String) : List (UInt8 × UInt64) := s.toList.map fun c => (UInt8.ofNat c.toNat, 0)

/-- A command to add a node with the given reliability. -/
def addNode (reliability : Digits) : CommandText where
  type := .add
  type_ne := nofun
  eid := ⟨[0x61], by decide +kernel⟩
  reliability := some reliability
  rest := none

/-- A command in two segments, after a text that is none. -/
theorem command_fidelity_iff_two : Faithful 64 [ascii "5(", ascii "1(a),5", ascii "00;"] := by
  refine (command_fidelity_iff (by decide) _).mpr fun c _ =>
    ⟨addNode ⟨[0x35, 0x30, 0x30], by decide +kernel⟩, by decide +kernel, ⟨?_, nofun⟩⟩
  intro d hd
  obtain rfl := Option.some.inj hd
  exact ⟨nofun, by decide⟩

/-- **The wrong reliability.**  The reliability is 65736 thousandths, which pass for 200. -/
theorem wrong_reliability : ¬ ∀ longBits, 32 ≤ longBits → ∀ segments,
    Faithful longBits segments := by
  intro hall
  have hsends : Sends 64 [ascii "1(a),65736;"]
      ⟨.add, { nodeCreate with eid := some [0x61], reliability := 200 }⟩ :=
    ⟨by decide +kernel, by decide +kernel⟩
  obtain ⟨w, htext, hmatches⟩ := hall 64 (by decide) _ _ hsends
  have htext' : IsText 64 [ascii "1(a),65736;"]
      (addNode ⟨[0x36, 0x35, 0x37, 0x33, 0x36], by decide +kernel⟩) := by decide +kernel
  obtain rfl := htext.unique htext'
  exact absurd (hmatches.reliability _ rfl).2 (by decide)

end ConfigParser
