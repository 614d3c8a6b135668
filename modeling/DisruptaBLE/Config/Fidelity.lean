import DisruptaBLE.Config.Grammar

/-!
# What is read is what was written

The bytes that lead the parser from its initial state to the end of a command are the text of a
syntax tree, and the command that is sent is what the parser makes of this tree
(`steps_command`).  Every part of the grammar has a lemma about the stages that read it, which says
what the rest of the text is like; the last part comes first.

`command_fidelity_iff` is about whole sequences of `config_parser_read`.
-/

namespace ConfigParser

/-! ## Steps of the parser -/

/-- The end of `config_parser_read_byte`. -/
def settle (p : Parser) : Parser := if p.status = .done then sendRouterCommand p else p

/-- The bytes lead from one state to another one, and are all read. -/
def Steps (longBits : Nat) : Parser → List (UInt8 × UInt64) → Parser → Prop
  | p, [], q => p = q
  | p, (b, now) :: bs, q =>
      p.status = .good ∧ Steps longBits (configParserReadByte longBits now p b) bs q

/-- The characters among bytes with their times. -/
abbrev chars (bs : List (UInt8 × UInt64)) : Str := bs.map Prod.fst

variable {longBits : Nat} {p q : Parser} {bs rest : List (UInt8 × UInt64)} {b : UInt8}
  {now : UInt64}

theorem Steps.append {cs : List (UInt8 × UInt64)} {r : Parser} (h : Steps longBits p bs r)
    (h' : Steps longBits r cs q) : Steps longBits p (bs ++ cs) q := by
  induction bs generalizing p with
  | nil =>
      obtain rfl : p = r := h
      exact h'
  | cons x bs ih => exact ⟨h.1, ih h.2⟩

/-- A byte within a command. -/
theorem readByte_eq (hgood : p.status = .good) (hstage : p.stage ≠ .commandType) :
    configParserReadByte longBits now p b = settle (readCommand longBits now p b) := by
  unfold configParserReadByte settle
  rw [if_neg (not_not_intro hgood), if_neg hstage]

/-- A command is not complete before its last byte. -/
theorem Steps.uncons (h : Steps longBits p bs q) (hq : q.status = .done) (hgood : p.status = .good)
    (hstage : p.stage ≠ .commandType) :
    ∃ b now rest, bs = (b, now) :: rest ∧
      Steps longBits (settle (readCommand longBits now p b)) rest q := by
  cases bs with
  | nil =>
      obtain rfl : p = q := h
      rw [hgood] at hq
      cases hq
  | cons x rest =>
      obtain ⟨b, now⟩ := x
      obtain ⟨_, hrest⟩ := h
      rw [readByte_eq hgood hstage] at hrest
      exact ⟨b, now, rest, rfl, hrest⟩

/-- Nothing follows an error. -/
theorem not_steps_error {r : Parser} (hr : r.status = .error)
    (h : Steps longBits (settle r) rest q) (hq : q.status = .done) : False := by
  have hsettle : settle r = r := if_neg (by rw [hr]; decide)
  rw [hsettle] at h
  cases rest with
  | nil =>
      obtain rfl : r = q := h
      rw [hr] at hq
      cases hq
  | cons x rest =>
      have hgood := h.1
      rw [hr] at hgood
      cases hgood

/-- Nothing follows the end of a command. -/
theorem steps_done {r : Parser} (hr : r.status = .done) (h : Steps longBits (settle r) rest q) :
    rest = [] ∧ q = sendRouterCommand r := by
  have hsettle : settle r = sendRouterCommand r := if_pos hr
  rw [hsettle] at h
  cases rest with
  | nil => exact ⟨rfl, h.symm⟩
  | cons x rest =>
      have hgood : r.status = .good := h.1
      rw [hr] at hgood
      cases hgood

theorem steps_good {r : Parser} (hr : r.status = .good) (h : Steps longBits (settle r) rest q) :
    Steps longBits r rest q := by
  have hsettle : settle r = r := if_neg (by rw [hr]; decide)
  rwa [hsettle] at h

/-! ## Single bytes -/

/-- After the separator the next part follows, after the end marker nothing. -/
theorem steps_endOr {next : Stage} (hgood : p.status = .good)
    (h : Steps longBits (settle (p.endOr b next)) rest q) (hq : q.status = .done) :
    (b = commandEndMarker ∧ rest = [] ∧ q.routerCommand = p.routerCommand) ∨
      (b = partSeparator ∧ Steps longBits { p with stage := next } rest q) := by
  unfold Parser.endOr at h
  split at h
  · next hb => exact .inr ⟨hb, steps_good (r := { p with stage := next }) hgood h⟩
  · split at h
    · next hb =>
      obtain ⟨hnil, rfl⟩ := steps_done rfl h
      exact .inl ⟨hb, hnil, rfl⟩
    · exact (not_steps_error rfl h hq).elim

/-- After the separator the next element follows, after the closing bracket the next stage. -/
theorem steps_separatorOr {start next : Stage} (hgood : p.status = .good)
    (h : Steps longBits (settle (p.separatorOr b start next)) rest q) (hq : q.status = .done) :
    (b = listElementSeparator ∧ Steps longBits { p with stage := start } rest q) ∨
      (b = listEndDelimiter ∧ Steps longBits { p with stage := next } rest q) := by
  unfold Parser.separatorOr at h
  split at h
  · next hb => exact .inl ⟨hb, steps_good (r := { p with stage := start }) hgood h⟩
  · split at h
    · next hb => exact .inr ⟨hb, steps_good (r := { p with stage := next }) hgood h⟩
    · exact (not_steps_error rfl h hq).elim

/-- Only the delimiter leads on. -/
theorem steps_expect {delimiter : UInt8} {next : Stage} (hgood : p.status = .good)
    (h : Steps longBits (settle (p.expect b delimiter next)) rest q) (hq : q.status = .done) :
    b = delimiter ∧ Steps longBits { p with stage := next } rest q := by
  unfold Parser.expect at h
  split at h
  · next hb => exact ⟨hb, steps_good (r := { p with stage := next }) hgood h⟩
  · exact (not_steps_error rfl h hq).elim

/-! ## Strings and numbers -/

/-- Characters are collected up to the first one that ends the string. -/
theorem steps_span (S : Str → Parser) (valid stop : UInt8 → Bool)
    (hgood : ∀ s, (S s).status = .good ∧ (S s).stage ≠ .commandType)
    (hchar : ∀ s b now, stop b = false → valid b = true →
      readCommand longBits now (S s) b = S (s ++ [b]))
    (hbad : ∀ s b now, stop b = false → valid b = false →
      (readCommand longBits now (S s) b).status = .error)
    {s : Str} (h : Steps longBits (S s) bs q) (hq : q.status = .done) :
    ∃ cs b now rest, (∀ c ∈ cs, valid c = true ∧ stop c = false) ∧ stop b = true ∧
      chars bs = cs ++ b :: chars rest ∧ rest.length < bs.length ∧
      Steps longBits (settle (readCommand longBits now (S (s ++ cs)) b)) rest q := by
  induction bs generalizing s with
  | nil =>
      obtain rfl : S s = q := h
      rw [(hgood s).1] at hq
      cases hq
  | cons x bs ih =>
      obtain ⟨b, now, rest, hx, hrest⟩ := h.uncons hq (hgood s).1 (hgood s).2
      obtain ⟨rfl, rfl⟩ := List.cons.inj hx
      cases hstop : stop b with
      | true =>
          refine ⟨[], b, now, bs, nofun, hstop, rfl, Nat.lt_succ_self _, ?_⟩
          rw [List.append_nil]
          exact hrest
      | false =>
          cases hvalid : valid b with
          | false => exact (not_steps_error (hbad s b now hstop hvalid) hrest hq).elim
          | true =>
              rw [hchar s b now hstop hvalid] at hrest
              obtain ⟨cs, b', now', rest, hcs, hstop', htext, hlength, hend⟩ :=
                ih (steps_good (hgood _).1 hrest)
              refine ⟨b :: cs, b', now', rest, ?_, hstop', congrArg (b :: ·) htext,
                Nat.lt_succ_of_lt hlength, ?_⟩
              · intro c hc
                rcases List.mem_cons.mp hc with rfl | hc
                · exact ⟨hvalid, hstop⟩
                · exact hcs c hc
              · rw [List.append_assoc] at hend
                exact hend

/-! ## Lists of EIDs -/

/-- The four stages that read a list of EIDs: `S` is the parser at a stage with what was read of the
list and with `current_eid`. -/
structure ListStages (longBits : Nat) (S : Stage → List Str → Option EidList → Parser)
    (target : EidList) (start eid sep next : Stage) : Prop where
  good : ∀ st l cur, (S st l cur).status = .good
  stage : ∀ st l cur, (S st l cur).stage = st
  within : start ≠ .commandType ∧ eid ≠ .commandType ∧ sep ≠ .commandType
  moved : ∀ st st' l cur, { S st l cur with stage := st' } = S st' l cur
  opened : ∀ now l cur, (cur = none ∧ l = []) ∨ cur = some target →
    readCommand longBits now (S start l cur) eidStartDelimiter = S eid (l ++ [[]]) (some target)
  closed : ∀ now b l cur, b ≠ eidStartDelimiter →
    readCommand longBits now (S start l cur) b = (S start l cur).expect b listEndDelimiter next
  char : ∀ now b l e, b ≠ eidEndDelimiter → eidChar b = true →
    readCommand longBits now (S eid (l ++ [e]) (some target)) b =
      S eid (l ++ [e ++ [b]]) (some target)
  bad : ∀ now b l e, b ≠ eidEndDelimiter → eidChar b = false →
    (readCommand longBits now (S eid (l ++ [e]) (some target)) b).status = .error
  ended : ∀ now l cur,
    readCommand longBits now (S eid l cur) eidEndDelimiter = S sep l cur
  separated : ∀ now b l cur,
    readCommand longBits now (S sep l cur) b = (S sep l cur).separatorOr b start next

/-- **A list of EIDs** up to its closing bracket. -/
theorem steps_items {S : Stage → List Str → Option EidList → Parser} {target : EidList}
    {start eid sep next : Stage} (hS : ListStages longBits S target start eid sep next)
    {l : List Str} {cur : Option EidList} (hcur : (cur = none ∧ l = []) ∨ cur = some target)
    (h : Steps longBits (S start l cur) bs q) (hq : q.status = .done) :
    ∃ (items : Items EidText) (cur' : Option EidList) (rest : List (UInt8 × UInt64)),
      chars bs = items.text EidText.text ++ chars rest ∧ rest.length < bs.length ∧
      Steps longBits (S next (l ++ items.toList.map EidText.chars) cur') rest q := by
  induction hn : bs.length using Nat.strongRecOn generalizing bs l cur with
  | ind n ih =>
    subst hn
    obtain ⟨b, now, rest, rfl, hrest⟩ := h.uncons hq (hS.good _ _ _)
      (by rw [hS.stage]; exact hS.within.1)
    by_cases hb : b = eidStartDelimiter
    · subst hb
      rw [hS.opened now l cur hcur] at hrest
      have heid := steps_good (hS.good _ _ _) hrest
      obtain ⟨cs, b, now', rest', hcs, hstop, htext, hlength, hend⟩ := steps_span
        (fun e => S eid (l ++ [e]) (some target)) eidChar (fun b => b = eidEndDelimiter)
        (fun _ => ⟨hS.good _ _ _, by rw [hS.stage]; exact hS.within.2.1⟩)
        (fun e b now hstop hvalid => hS.char now b l e (of_decide_eq_false hstop) hvalid)
        (fun e b now hstop hvalid => hS.bad now b l e (of_decide_eq_false hstop) hvalid) heid hq
      obtain rfl : b = eidEndDelimiter := of_decide_eq_true hstop
      obtain ⟨e, rfl⟩ : ∃ e : EidText, e.chars = cs :=
        ⟨⟨cs, fun c hc => ⟨(hcs c hc).1, of_decide_eq_false (hcs c hc).2⟩⟩, rfl⟩
      rw [List.nil_append, hS.ended] at hend
      obtain ⟨b, now'', rest'', rfl, hrest''⟩ := (steps_good (hS.good _ _ _) hend).uncons hq
        (hS.good _ _ _) (by rw [hS.stage]; exact hS.within.2.2)
      rw [hS.separated] at hrest''
      have helement : chars ((eidStartDelimiter, now) :: rest) =
          e.text ++ b :: chars rest'' := by
        show eidStartDelimiter :: chars rest = _
        rw [htext, EidText.text]
        simp
      rcases steps_separatorOr (hS.good _ _ _) hrest'' hq with ⟨rfl, hnext⟩ | ⟨rfl, hnext⟩
      · -- one more EID
        rw [hS.moved] at hnext
        simp only [List.length_cons] at hlength
        obtain ⟨items, cur', rest₃, htext₃, hlength₃, hend₃⟩ :=
          ih rest''.length (by simp only [List.length_cons]; omega) (.inr rfl) hnext rfl
        refine ⟨.more e items, cur', rest₃, ?_, by simp only [List.length_cons]; omega, ?_⟩
        · rw [helement, htext₃, Items.text]
          simp
        · rw [Items.toList, List.map_cons, ← List.singleton_append, ← List.append_assoc]
          exact hend₃
      · rw [hS.moved] at hnext
        simp only [List.length_cons] at hlength
        refine ⟨.one e, _, rest'', ?_, by simp only [List.length_cons]; omega, hnext⟩
        rw [helement, Items.text]
        simp
    · rw [hS.closed now b l cur hb] at hrest
      obtain ⟨rfl, hnext⟩ := steps_expect (hS.good _ _ _) hrest hq
      rw [hS.moved] at hnext
      refine ⟨.done, cur, rest, rfl, Nat.lt_succ_self _, ?_⟩
      rw [Items.toList, List.map_nil, List.append_nil]
      exact hnext

/-- A parser that is within a command. -/
def within (type : CommandType) (sent : List RouterCommand) (ds : Str) (flag : Bool) (st : Stage)
    (n : Node) (cur : Option EidList) : Parser :=
  ⟨.good, st, ⟨type, n⟩, ds, cur, flag, sent⟩

theorem onLast_append {α : Type} (f : α → α) (l : List α) (x : α) :
    onLast f (l ++ [x]) = l ++ [f x] := by
  induction l with
  | nil => rfl
  | cons y l ih =>
      cases l with
      | nil => rfl
      | cons z l =>
          rw [List.cons_append, List.cons_append, onLast]
          exact congrArg (y :: ·) ih

section

variable {type : CommandType} {sent : List RouterCommand} {ds : Str} {flag : Bool} {n : Node}
  {cur : Option EidList} {cs : List Contact} {c : Contact}

/-- The stages of the endpoints of the node. -/
theorem endpoints_stages : ListStages longBits
    (fun st l cur => within type sent ds flag st { n with endpoints := l } cur)
    .endpoints .nodeStartDelimiter .nodeEid .nodeSeparator .nodesContactsSeparator where
  good _ _ _ := rfl
  stage _ _ _ := rfl
  within := ⟨nofun, nofun, nofun⟩
  moved _ _ _ _ := rfl
  opened now l cur hcur := by
    rcases hcur with ⟨rfl, rfl⟩ | rfl <;> rfl
  closed now b l cur hb := if_neg hb
  char now b l e hb hchar := by
    simp only [readCommand, within, if_neg hb, Parser.readEid, hchar, if_true, Parser.onEids,
      Parser.onNode, onLast_append]
  bad now b l e hb hchar := by
    simp [readCommand, within, if_neg hb, Parser.readEid, hchar]
  ended _ _ _ := rfl
  separated _ _ _ _ := rfl

/-- The stages of the endpoints of the last contact. -/
theorem contactEndpoints_stages : ListStages longBits
    (fun st l cur => within type sent ds true st
      { n with contacts := cs ++ [{ c with contactEndpoints := l }] } cur)
    .contactEndpoints .contactNodeStartDelimiter .contactNodeEid .contactNodeSeparator
    .contactEndDelimiter where
  good _ _ _ := rfl
  stage _ _ _ := rfl
  within := ⟨nofun, nofun, nofun⟩
  moved _ _ _ _ := rfl
  opened now l cur hcur := by
    rcases hcur with ⟨rfl, rfl⟩ | rfl <;>
      simp [readCommand, within, Parser.beginReadDataEid, Parser.onEids, Parser.onContact,
        Parser.onNode, onLast_append]
  closed now b l cur hb := if_neg hb
  char now b l e hb hchar := by
    simp only [readCommand, within, if_neg hb, Parser.readEid, hchar, if_true, Parser.onEids,
      Parser.onContact, Parser.onNode, onLast_append]
  bad now b l e hb hchar := by
    simp [readCommand, within, if_neg hb, Parser.readEid, hchar]
  ended _ _ _ := rfl
  separated _ _ _ _ := rfl

/-! ## Contacts -/

/-- Digits are collected up to the first other character. -/
theorem steps_digits {st : Stage} (stop : UInt8 → Bool) (hst : st ≠ .commandType)
    (hdigit : ∀ ds b now, stop b = false →
      readCommand longBits now (within type sent ds flag st n cur) b =
        (within type sent ds flag st n cur).readInteger b)
    (h : Steps longBits (within type sent [] flag st n cur) bs q) (hq : q.status = .done) :
    ∃ (d : Digits) (b : UInt8) (now : UInt64) (rest : List (UInt8 × UInt64)), stop b = true ∧
      chars bs = d.chars ++ b :: chars rest ∧ rest.length < bs.length ∧
      Steps longBits (settle (readCommand longBits now (within type sent d.chars flag st n cur) b))
        rest q := by
  obtain ⟨ds, b, now, rest, hds, hstop, htext, hlength, hend⟩ := steps_span
    (fun ds => within type sent ds flag st n cur) digitChar stop
    (fun _ => ⟨rfl, hst⟩)
    (fun ds b now hstop hvalid => by
      rw [hdigit ds b now hstop, Parser.readInteger, if_pos hvalid]
      rfl)
    (fun ds b now hstop hvalid => by
      rw [hdigit ds b now hstop, Parser.readInteger, if_neg (Bool.eq_false_iff.mp hvalid)])
    h hq
  exact ⟨⟨ds, fun c hc => (hds c hc).1⟩, b, now, rest, hstop, htext, hlength, hend⟩

/-- The end of the begin time. -/
theorem readCommand_startTime (ds : Str) :
    readCommand longBits now (within type sent ds true .contactStartTime
      { n with contacts := cs ++ [c] } cur) listElementSeparator =
    within type sent [] true .contactEndTime
      { n with contacts := cs ++ [{ c with fromTime := strtoull ds }] } cur := by
  simp only [readCommand, within, Parser.onContact, Parser.onNode, onLast_append, if_true,
    Parser.beginReadInteger]

/-- The end of the end time, unless the contact is over already. -/
theorem readCommand_endTime (ds : Str) :
    readCommand longBits now (within type sent ds true .contactEndTime
      { n with contacts := cs ++ [c] } cur) listElementSeparator =
    within type sent [] true .contactBitrate
      { n with contacts := cs ++ [{ c with toTime := strtoull ds }] } cur ∨
    (readCommand longBits now (within type sent ds true .contactEndTime
      { n with contacts := cs ++ [c] } cur) listElementSeparator).status = .error := by
  simp only [readCommand, within, Parser.onContact, Parser.onNode, onLast_append, if_true,
    Parser.beginReadInteger]
  split
  · exact .inl rfl
  · exact .inr rfl

/-- The end of the bitrate. -/
theorem readCommand_bitrate (ds : Str)
    (hb : b = listElementSeparator ∨ b = objectEndDelimiter) :
    readCommand longBits now (within type sent ds true .contactBitrate
      { n with contacts := cs ++ [c] } cur) b =
    within type sent [] true
      (if b = listElementSeparator then .contactNodeListStartDelimiter else .contactSeparator)
      { n with contacts := cs ++ [{ c with bitrate := strtoul longBits ds }] } cur := by
  have htest : (b = listElementSeparator || b = objectEndDelimiter) = true := by
    simpa using hb
  simp only [readCommand, within, htest, Parser.onContact, Parser.onNode, onLast_append, if_true,
    Parser.beginReadInteger]

/-- The endpoints of a contact, from the place of their list on. -/
theorem steps_endpoints (c : Contact) (hc : c.contactEndpoints = [])
    (h : Steps longBits (within type sent [] true .contactNodeListStartDelimiter
      { n with contacts := cs ++ [c] } none) bs q) (hq : q.status = .done) :
    ∃ (items : Items EidText) (cur' : Option EidList) (rest : List (UInt8 × UInt64)),
      chars bs = listStartDelimiter :: items.text EidText.text ++ objectEndDelimiter :: chars rest ∧
      rest.length < bs.length ∧
      Steps longBits (within type sent [] true .contactSeparator
        { n with
          contacts := cs ++ [{ c with contactEndpoints := items.toList.map EidText.chars }] }
        cur') rest q := by
  obtain ⟨b, now, rest₁, rfl, h₁⟩ := h.uncons hq rfl nofun
  obtain ⟨rfl, h₁⟩ := steps_expect (p := within type sent [] true .contactNodeListStartDelimiter
    { n with contacts := cs ++ [c] } none) rfl h₁ hq
  have hinit : c = { c with contactEndpoints := [] } := by rw [← hc]
  rw [hinit] at h₁
  obtain ⟨items, cur', rest₂, htext₂, hlength₂, h₂⟩ :=
    steps_items (contactEndpoints_stages (c := c)) (.inl ⟨rfl, rfl⟩) h₁ hq
  obtain ⟨b, now, rest₃, rfl, h₃⟩ := h₂.uncons hq rfl nofun
  obtain ⟨rfl, h₃⟩ := steps_expect (p := within type sent [] true .contactEndDelimiter _ cur')
    rfl h₃ hq
  refine ⟨items, cur', rest₃, congrArg (listStartDelimiter :: ·) htext₂, ?_, h₃⟩
  simp only [List.length_cons] at hlength₂ ⊢
  omega

/-- **One contact** from its begin time on. -/
theorem steps_contact
    (h : Steps longBits (within type sent [] true .contactStartTime
      { n with contacts := cs ++ [contactCreate] } none) bs q) (hq : q.status = .done) :
    ∃ (t : ContactText) (cur' : Option EidList) (rest : List (UInt8 × UInt64)),
      objectStartDelimiter :: chars bs = t.text ++ chars rest ∧ rest.length < bs.length ∧
      Steps longBits (within type sent [] true .contactSeparator
        { n with contacts := cs ++ [t.read longBits] } cur') rest q := by
  obtain ⟨f, b, now, rest₁, hb, htext₁, hlength₁, h₁⟩ := steps_digits
    (fun b => b = listElementSeparator)
    (by decide : Stage.contactStartTime ≠ .commandType)
    (fun ds b now hb => if_neg (of_decide_eq_false hb)) h hq
  obtain rfl : b = listElementSeparator := of_decide_eq_true hb
  rw [readCommand_startTime] at h₁
  obtain ⟨t, b, now, rest₂, hb, htext₂, hlength₂, h₂⟩ := steps_digits
    (fun b => b = listElementSeparator)
    (by decide : Stage.contactEndTime ≠ .commandType)
    (fun ds b now hb => if_neg (of_decide_eq_false hb)) (steps_good rfl h₁) hq
  obtain rfl : b = listElementSeparator := of_decide_eq_true hb
  rcases @readCommand_endTime longBits now type sent n none cs
    { contactCreate with fromTime := strtoull f.chars } t.chars with hgood | herror
  · rw [hgood] at h₂
    obtain ⟨r, b, now, rest₃, hb, htext₃, hlength₃, h₃⟩ := steps_digits
      (fun b => b = listElementSeparator || b = objectEndDelimiter)
      (by decide : Stage.contactBitrate ≠ .commandType)
      (fun ds b now hb => if_neg (Bool.eq_false_iff.mp hb)) (steps_good rfl h₂) hq
    have hb' : b = listElementSeparator ∨ b = objectEndDelimiter := by simpa using hb
    rw [readCommand_bitrate _ hb'] at h₃
    have h₃ := steps_good rfl h₃
    rcases hb' with rfl | rfl
    · obtain ⟨items, cur', rest₄, htext₄, hlength₄, h₄⟩ := steps_endpoints _ rfl h₃ hq
      refine ⟨⟨f, t, r, some items⟩, cur', rest₄, ?_, by omega, h₄⟩
      rw [htext₁, htext₂, htext₃, htext₄]
      simp [ContactText.text, endpointsText]
    · refine ⟨⟨f, t, r, none⟩, none, rest₃, ?_, by omega, h₃⟩
      rw [htext₁, htext₂, htext₃]
      simp [ContactText.text, endpointsText]
  · exact (not_steps_error herror h₂ hq).elim

/-- **The contacts** up to the closing bracket of their list. -/
theorem steps_contactItems (hflag : flag = true ∨ cs = [])
    (h : Steps longBits (within type sent ds flag .contactStartDelimiter
      { n with contacts := cs } cur) bs q) (hq : q.status = .done) :
    ∃ (items : Items ContactText) (ds' : Str) (flag' : Bool) (cur' : Option EidList)
      (rest : List (UInt8 × UInt64)), chars bs = items.text ContactText.text ++ chars rest ∧
      Steps longBits (within type sent ds' flag' .commandEndMarker
        { n with contacts := cs ++ items.toList.map (ContactText.read longBits) } cur') rest q := by
  induction hn : bs.length using Nat.strongRecOn generalizing bs cs ds flag cur with
  | ind k ih =>
    subst hn
    obtain ⟨b, now, rest₁, rfl, h₁⟩ := h.uncons hq rfl nofun
    by_cases hb : b = objectStartDelimiter
    · subst hb
      have hbegin : readCommand longBits now (within type sent ds flag .contactStartDelimiter
          { n with contacts := cs } cur) objectStartDelimiter =
          within type sent [] true .contactStartTime
            { n with contacts := cs ++ [contactCreate] } none := by
        rcases hflag with rfl | rfl
        · rfl
        · cases flag <;> rfl
      rw [hbegin] at h₁
      obtain ⟨t, cur', rest₂, htext₂, hlength₂, h₂⟩ := steps_contact (steps_good rfl h₁) hq
      obtain ⟨b, now, rest₃, rfl, h₃⟩ := h₂.uncons hq rfl nofun
      have htext : chars ((objectStartDelimiter, now) :: rest₁) = t.text ++ b :: chars rest₃ :=
        htext₂
      simp only [List.length_cons] at hlength₂
      rcases steps_separatorOr (p := within type sent [] true .contactSeparator _ cur') rfl h₃ hq
        with ⟨rfl, h₄⟩ | ⟨rfl, h₄⟩
      · -- one more contact
        obtain ⟨items, ds', flag', cur'', rest₄, htext₄, hend⟩ := ih rest₃.length
          (by simp only [List.length_cons]; omega) (.inl rfl) h₄ rfl
        refine ⟨.more t items, ds', flag', cur'', rest₄, ?_, ?_⟩
        · rw [Items.text, List.append_assoc, List.cons_append, ← htext₄]
          exact htext
        · rw [Items.toList, List.map_cons, ← List.singleton_append, ← List.append_assoc]
          exact hend
      · refine ⟨.one t, [], true, cur', rest₃, ?_, h₄⟩
        rw [Items.text, List.append_assoc]
        exact htext
    · have hclosed : readCommand longBits now (within type sent ds flag .contactStartDelimiter
          { n with contacts := cs } cur) b =
          (within type sent ds flag .contactStartDelimiter { n with contacts := cs } cur).expect b
            listEndDelimiter .commandEndMarker := if_neg hb
      rw [hclosed] at h₁
      obtain ⟨rfl, h₂⟩ := steps_expect (p := within type sent ds flag .contactStartDelimiter _ cur)
        rfl h₁ hq
      refine ⟨.done, ds, flag, cur, rest₁, rfl, ?_⟩
      rw [Items.toList, List.map_nil, List.append_nil]
      exact h₂

/-! ## The parts of a command -/

/-- What is read from the place of the contact list on. -/
def ContactsText.apply (longBits : Nat) (s : ContactsText) (n : Node) : Node :=
  { n with contacts := (contactsOf s.contacts).map (ContactText.read longBits) }

/-- The end of a command, or the next part. -/
def applyRest {α : Type} (apply : α → Node → Node) (o : Option α) (n : Node) : Node :=
  match o with
  | none => n
  | some s => apply s n

/-- What is read from the place of the endpoint list on. -/
def NodesText.apply (longBits : Nat) (s : NodesText) (n : Node) : Node :=
  applyRest (ContactsText.apply longBits) s.rest { n with endpoints := eidsOf s.endpoints }

/-- What is read from the place of the CLA address on. -/
def ClaText.apply (longBits : Nat) (s : ClaText) (n : Node) : Node :=
  applyRest (NodesText.apply longBits) s.rest { n with claAddr := s.addr.map ClaAddrText.chars }

/-- **The end of a command, or a separator and the next part.** -/
theorem steps_rest {α : Type} {part : α → Str} {apply : α → Node → Node} {st next : Stage}
    (h : Steps longBits (settle ((within type sent ds flag st n cur).endOr b next)) rest q)
    (hpart : ∀ rest, Steps longBits (within type sent ds flag next n cur) rest q →
      ∃ s, chars rest = part s ∧ q.routerCommand = ⟨type, apply s n⟩)
    (hq : q.status = .done) :
    ∃ o, b :: chars rest = restText part o ∧ q.routerCommand = ⟨type, applyRest apply o n⟩ := by
  rcases steps_endOr (p := within type sent ds flag st n cur) rfl h hq with
    ⟨rfl, rfl, hcommand⟩ | ⟨rfl, hnext⟩
  · exact ⟨none, rfl, hcommand⟩
  · obtain ⟨s, htext, hcommand⟩ := hpart rest hnext
    exact ⟨some s, congrArg (partSeparator :: ·) htext, hcommand⟩

/-- **From the place of the contact list on.** -/
theorem steps_contactsText (hn : n.contacts = [])
    (h : Steps longBits (within type sent ds false .contactListStartDelimiter n cur) bs q)
    (hq : q.status = .done) :
    ∃ s : ContactsText, chars bs = s.text ∧ q.routerCommand = ⟨type, s.apply longBits n⟩ := by
  obtain ⟨b, now, rest₁, rfl, h₁⟩ := h.uncons hq rfl nofun
  have hread : readCommand longBits now
      (within type sent ds false .contactListStartDelimiter n cur) b =
      if b = listStartDelimiter then
        within type sent ds false .contactStartDelimiter { n with contacts := [] } cur
      else if b = commandEndMarker then
        { within type sent ds false .contactListStartDelimiter n cur with status := .done }
      else
        { within type sent ds false .contactListStartDelimiter n cur with status := .error } := by
    rw [← hn]
    rfl
  rw [hread] at h₁
  split at h₁
  · next hb =>
    obtain ⟨items, ds', flag', cur', rest₂, htext₂, h₂⟩ :=
      steps_contactItems (.inr rfl) (steps_good rfl h₁) hq
    obtain ⟨b', now', rest₃, rfl, h₃⟩ := h₂.uncons hq rfl nofun
    unfold readCommand at h₃
    dsimp only [within] at h₃
    split at h₃
    · next hb' =>
      obtain ⟨rfl, rfl⟩ := steps_done rfl h₃
      refine ⟨⟨some items⟩, ?_, rfl⟩
      show b :: chars rest₁ = _
      rw [htext₂, hb]
      exact congrArg _ (congrArg (fun x => _ ++ [x]) hb')
    · exact (not_steps_error rfl h₃ hq).elim
  · split at h₁
    · next hb =>
      obtain ⟨rfl, rfl⟩ := steps_done rfl h₁
      refine ⟨⟨none⟩, congrArg (fun x => [x]) hb, ?_⟩
      unfold ContactsText.apply
      rw [contactsOf, List.map_nil, ← hn]
      rfl
    · exact (not_steps_error rfl h₁ hq).elim

/-- **From the place of the endpoint list on.** -/
theorem steps_nodesText (hendpoints : n.endpoints = []) (hcontacts : n.contacts = [])
    (h : Steps longBits (within type sent ds false .nodeListStartDelimiter n none) bs q)
    (hq : q.status = .done) :
    ∃ s : NodesText, chars bs = s.text ∧ q.routerCommand = ⟨type, s.apply longBits n⟩ := by
  have hpart : ∀ (m : Node) (cur : Option EidList) (rest : List (UInt8 × UInt64)),
      m.contacts = [] →
      Steps longBits (within type sent ds false .contactListStartDelimiter m cur) rest q →
      ∃ s : ContactsText, chars rest = s.text ∧ q.routerCommand = ⟨type, s.apply longBits m⟩ :=
    fun _ _ _ hm h => steps_contactsText hm h hq
  obtain ⟨b, now, rest₁, rfl, h₁⟩ := h.uncons hq rfl nofun
  by_cases hb : b = listStartDelimiter
  · subst hb
    have h₁ : Steps longBits
        (within type sent ds false .nodeStartDelimiter { n with endpoints := [] } none)
        rest₁ q := by
      rw [← hendpoints]
      exact steps_good rfl h₁
    obtain ⟨items, cur', rest₂, htext₂, _, h₂⟩ :=
      steps_items endpoints_stages (.inl ⟨rfl, rfl⟩) h₁ hq
    obtain ⟨b, now, rest₃, rfl, h₃⟩ := h₂.uncons hq rfl nofun
    have h₃ : Steps longBits (settle ((within type sent ds false .nodesContactsSeparator
        { n with endpoints := items.toList.map EidText.chars } cur').endOr b
        .contactListStartDelimiter)) rest₃ q := h₃
    obtain ⟨o, htext₃, hcommand⟩ :=
      steps_rest h₃ (fun rest h => hpart _ _ rest hcontacts h) hq
    refine ⟨⟨some items, o⟩, ?_, hcommand⟩
    show listStartDelimiter :: chars rest₁ = _
    rw [htext₂]
    exact congrArg (fun x => listStartDelimiter :: (items.text EidText.text ++ x)) htext₃
  · have hread : readCommand longBits now
        (within type sent ds false .nodeListStartDelimiter n none) b =
        (within type sent ds false .nodeListStartDelimiter n none).endOr b
          .contactListStartDelimiter := if_neg hb
    rw [hread] at h₁
    obtain ⟨o, htext, hcommand⟩ :=
      steps_rest h₁ (fun rest h => hpart _ _ rest hcontacts h) hq
    refine ⟨⟨none, o⟩, htext, ?_⟩
    have hsame : n = { n with endpoints := [] } := by rw [← hendpoints]
    rw [hcommand]
    unfold NodesText.apply
    dsimp only [eidsOf]
    rw [← hsame]

/-- **From the place of the CLA address on.** -/
theorem steps_claText (haddr : n.claAddr = none) (hendpoints : n.endpoints = [])
    (hcontacts : n.contacts = [])
    (h : Steps longBits (within type sent ds false .claAddrStartDelimiter n none) bs q)
    (hq : q.status = .done) :
    ∃ s : ClaText, chars bs = s.text ∧ q.routerCommand = ⟨type, s.apply longBits n⟩ := by
  have hpart : ∀ (m : Node) (rest : List (UInt8 × UInt64)), m.endpoints = [] → m.contacts = [] →
      Steps longBits (within type sent ds false .nodeListStartDelimiter m none) rest q →
      ∃ s : NodesText, chars rest = s.text ∧ q.routerCommand = ⟨type, s.apply longBits m⟩ :=
    fun _ _ hm hm' h => steps_nodesText hm hm' h hq
  obtain ⟨b, now, rest₁, rfl, h₁⟩ := h.uncons hq rfl nofun
  by_cases hb : b = eidStartDelimiter
  · subst hb
    have h₁ : Steps longBits (within type sent ds false .claAddr
        { n with claAddr := some [] } none) rest₁ q := steps_good rfl h₁
    obtain ⟨cs, b, now, rest₂, hcs, hstop, htext₂, _, h₂⟩ := steps_span
      (fun a => within type sent ds false .claAddr { n with claAddr := some a } none)
      claAddrChar (fun b => b = eidEndDelimiter)
      (fun _ => ⟨rfl, nofun⟩)
      (fun a b now hstop hvalid => by
        simp only [readCommand, within, if_neg (of_decide_eq_false hstop), Parser.readClaAddr,
          hvalid, if_true, Parser.onNode, Option.map_some])
      (fun a b now hstop hvalid => by
        simp [readCommand, within, if_neg (of_decide_eq_false hstop), Parser.readClaAddr, hvalid])
      h₁ hq
    obtain rfl : b = eidEndDelimiter := of_decide_eq_true hstop
    obtain ⟨a, rfl⟩ : ∃ a : ClaAddrText, a.chars = cs :=
      ⟨⟨cs, fun c hc => ⟨(hcs c hc).1, of_decide_eq_false (hcs c hc).2⟩⟩, rfl⟩
    have h₂ : Steps longBits (within type sent ds false .claAddrNodesSeparator
        { n with claAddr := some a.chars } none) rest₂ q := steps_good rfl h₂
    obtain ⟨b, now, rest₃, rfl, h₃⟩ := h₂.uncons hq rfl nofun
    have h₃ : Steps longBits (settle ((within type sent ds false .claAddrNodesSeparator
        { n with claAddr := some a.chars } none).endOr b .nodeListStartDelimiter)) rest₃ q := h₃
    obtain ⟨o, htext₃, hcommand⟩ :=
      steps_rest h₃ (fun rest h => hpart _ rest hendpoints hcontacts h) hq
    refine ⟨⟨some a, o⟩, ?_, hcommand⟩
    show eidStartDelimiter :: chars rest₁ = _
    rw [htext₂]
    show eidStartDelimiter :: (a.chars ++ eidEndDelimiter :: (b :: chars rest₃)) = _
    rw [htext₃]
    simp [ClaText.text, addrText, ClaAddrText.text]
  · have hread : readCommand longBits now
        (within type sent ds false .claAddrStartDelimiter n none) b =
        (within type sent ds false .claAddrStartDelimiter n none).endOr b
          .nodeListStartDelimiter := if_neg hb
    rw [hread] at h₁
    obtain ⟨o, htext, hcommand⟩ :=
      steps_rest h₁ (fun rest h => hpart _ rest hendpoints hcontacts h) hq
    refine ⟨⟨none, o⟩, htext, ?_⟩
    have hsame : n = { n with claAddr := none } := by rw [← haddr]
    rw [hcommand]
    unfold ClaText.apply
    dsimp only [Option.map_none]
    rw [← hsame]

/-- What is read from the place of the reliability on. -/
def applyReliability (longBits : Nat) (o : Option Digits) (n : Node) : Node :=
  match o with
  | none => n
  | some d => { n with reliability := atoi longBits d.chars }

/-- The end of the reliability. -/
theorem readCommand_reliability (hb : b = partSeparator ∨ b = commandEndMarker) :
    readCommand longBits now (within type sent ds false .nodeConfReliability n none) b =
      (within type sent [] false .claAddrStartDelimiter
        { n with reliability := atoi longBits ds } none).endOr b .claAddrStartDelimiter ∨
    (readCommand longBits now (within type sent ds false .nodeConfReliability n none) b).status =
      .error := by
  have htest : (b = partSeparator || b = commandEndMarker) = true := by simpa using hb
  have hread : readCommand longBits now (within type sent ds false .nodeConfReliability n none) b =
      if (decide (atoi longBits ds < 100) || decide (1000 < atoi longBits ds)) = true then
        { within type sent [] false .nodeConfReliability n none with status := .error }
      else
        let p := within type sent [] false .claAddrStartDelimiter
          { n with reliability := atoi longBits ds } none
        if b = commandEndMarker then { p with status := .done } else p := if_pos htest
  rw [hread]
  split
  · exact .inr rfl
  · rcases hb with rfl | rfl <;> exact .inl rfl

/-- **From the place of the reliability on.** -/
theorem steps_reliability (haddr : n.claAddr = none) (hendpoints : n.endpoints = [])
    (hcontacts : n.contacts = [])
    (h : Steps longBits (within type sent ds false .nodeConfReliabilitySeparator n none) bs q)
    (hq : q.status = .done) :
    ∃ (o : Option Digits) (s : Option ClaText),
      chars bs = reliabilityText o ++ restText ClaText.text s ∧
      q.routerCommand =
        ⟨type, applyRest (ClaText.apply longBits) s (applyReliability longBits o n)⟩ := by
  have hpart : ∀ (m : Node) (ds' : Str) (rest : List (UInt8 × UInt64)), m.claAddr = none →
      m.endpoints = [] → m.contacts = [] →
      Steps longBits (within type sent ds' false .claAddrStartDelimiter m none) rest q →
      ∃ s : ClaText, chars rest = s.text ∧ q.routerCommand = ⟨type, s.apply longBits m⟩ :=
    fun _ _ _ hm hm' hm'' h => steps_claText hm hm' hm'' h hq
  obtain ⟨b, now, rest₁, rfl, h₁⟩ := h.uncons hq rfl nofun
  by_cases hb : b = listElementSeparator
  · subst hb
    have h₁ : Steps longBits (within type sent [] false .nodeConfReliability n none) rest₁ q :=
      steps_good rfl h₁
    obtain ⟨d, b, now, rest₂, hstop, htext₂, _, h₂⟩ := steps_digits
      (fun b => b = partSeparator || b = commandEndMarker)
      (by decide : Stage.nodeConfReliability ≠ .commandType)
      (fun ds b now hb => if_neg (Bool.eq_false_iff.mp hb)) h₁ hq
    have hb' : b = partSeparator ∨ b = commandEndMarker := by simpa using hstop
    rcases @readCommand_reliability longBits b now type sent d.chars n hb' with hread | herror
    · rw [hread] at h₂
      obtain ⟨s, htext₃, hcommand⟩ :=
        steps_rest h₂ (fun rest h => hpart _ _ rest haddr hendpoints hcontacts h) hq
      refine ⟨some d, s, ?_, hcommand⟩
      show listElementSeparator :: chars rest₁ = _
      rw [htext₂]
      exact congrArg (fun x => listElementSeparator :: (d.chars ++ x)) htext₃
    · exact (not_steps_error herror h₂ hq).elim
  · have hread : readCommand longBits now
        (within type sent ds false .nodeConfReliabilitySeparator n none) b =
        (within type sent ds false .nodeConfReliabilitySeparator n none).endOr b
          .claAddrStartDelimiter := if_neg hb
    rw [hread] at h₁
    obtain ⟨s, htext, hcommand⟩ :=
      steps_rest h₁ (fun rest h => hpart _ _ rest haddr hendpoints hcontacts h) hq
    exact ⟨none, s, htext, hcommand⟩

theorem CommandType.ofCode_eq_some {code : UInt8} {t : CommandType}
    (h : CommandType.ofCode code = some t) : t ≠ .undefined ∧ code = t.code := by
  unfold CommandType.ofCode at h
  split at h
  · next hc => exact Option.some.inj h ▸ ⟨nofun, hc⟩
  · split at h
    · next hc => exact Option.some.inj h ▸ ⟨nofun, hc⟩
    · split at h
      · next hc => exact Option.some.inj h ▸ ⟨nofun, hc⟩
      · split at h
        · next hc => exact Option.some.inj h ▸ ⟨nofun, hc⟩
        · cases h

/-- The parts of a command together. -/
theorem read_eq (w : CommandText) :
    w.read longBits = ⟨w.type, applyRest (ClaText.apply longBits) w.rest
      (applyReliability longBits w.reliability { nodeCreate with eid := some w.eid.chars })⟩ := by
  obtain ⟨type, hne, eid, reliability, rest⟩ := w
  cases reliability <;> rcases rest with _ | ⟨addr, _ | ⟨endpoints, _ | ⟨contacts⟩⟩⟩ <;> rfl

/-- **A command**: the bytes up to its end are the text of a tree, and the command is what the
parser makes of this tree. -/
theorem steps_command (h : Steps longBits (Parser.fresh sent) bs q) (hq : q.status = .done) :
    ∃ w : CommandText, chars bs = w.text ∧ q.routerCommand = w.read longBits := by
  cases bs with
  | nil =>
      obtain rfl : Parser.fresh sent = q := h
      cases hq
  | cons x rest₁ =>
    obtain ⟨code, now⟩ := x
    obtain ⟨_, h₁⟩ := h
    have hread : configParserReadByte longBits now (Parser.fresh sent) code =
        settle (readCommandType (Parser.fresh sent) code) := rfl
    rw [hread] at h₁
    unfold readCommandType at h₁
    dsimp only at h₁
    split at h₁
    · next t ht =>
      obtain ⟨hne, rfl⟩ := CommandType.ofCode_eq_some ht
      have h₁ : Steps longBits
          (within t sent [] false .nodeConfStartDelimiter nodeCreate none) rest₁ q :=
        steps_good rfl h₁
      obtain ⟨b, now, rest₂, rfl, h₂⟩ := h₁.uncons hq rfl nofun
      by_cases hb : b = eidStartDelimiter
      · subst hb
        have h₂ : Steps longBits (within t sent [] false .nodeConfEid
            { nodeCreate with eid := some [] } none) rest₂ q := steps_good rfl h₂
        obtain ⟨cs, b, now, rest₃, hcs, hstop, htext₃, _, h₃⟩ := steps_span
          (fun e => within t sent [] false .nodeConfEid
            { nodeCreate with eid := some e } none)
          eidChar (fun b => b = eidEndDelimiter)
          (fun _ => ⟨rfl, nofun⟩)
          (fun e b now hstop hvalid => by
            simp only [readCommand, within, if_neg (of_decide_eq_false hstop),
              Parser.readNodeConfEid, hvalid, if_true, Parser.onNode, Option.map_some])
          (fun e b now hstop hvalid => by
            simp [readCommand, within, if_neg (of_decide_eq_false hstop), Parser.readNodeConfEid,
              hvalid])
          h₂ hq
        obtain rfl : b = eidEndDelimiter := of_decide_eq_true hstop
        obtain ⟨e, rfl⟩ : ∃ e : EidText, e.chars = cs :=
          ⟨⟨cs, fun c hc => ⟨(hcs c hc).1, of_decide_eq_false (hcs c hc).2⟩⟩, rfl⟩
        have h₃ : Steps longBits (within t sent [] false .nodeConfReliabilitySeparator
            { nodeCreate with eid := some e.chars } none) rest₃ q := steps_good rfl h₃
        obtain ⟨o, s, htext₄, hcommand⟩ := steps_reliability rfl rfl rfl h₃ hq
        refine ⟨⟨t, hne, e, o, s⟩, ?_, ?_⟩
        · show t.code :: eidStartDelimiter :: chars rest₂ = _
          rw [htext₃, htext₄]
          simp [CommandText.text, EidText.text]
        · rw [hcommand, read_eq]
      · have hbad : (readCommand longBits now
            (within t sent [] false .nodeConfStartDelimiter nodeCreate none) b).status =
            .error := by
          simp [readCommand, within, if_neg hb]
        exact (not_steps_error hbad h₂ hq).elim
    · exact (not_steps_error rfl h₁ hq).elim

end

end ConfigParser
