import ByteCursor.Proofs.Toml.Table
import ByteCursor.Proofs.Toml.Value

/-!
# Documents of the grammar

Whatever the grammar writes within the limits is read: each line up to its end, the lines one after
the other, and the table that their statements build is the table of the document.
-/

namespace ByteCursor.Toml

variable {text rest before behind remark ending : List Char} {statement : Statement}
  {statements : List Statement} {said : Option Statement}

/-! ## The ends of lines -/

/-- What ends a line before the rest of the text. -/
inductive EndsLine : (ending rest : List Char) → Prop where
  | newline {ending : List Char} (isNewline : IsNewline ending) (rest : List Char) :
      EndsLine ending rest
  | last : EndsLine [] []

theorem EndsLine.stops (ends : EndsLine ending rest) {inClass : Char → Bool}
    (noFeed : inClass '\n' = false) (noReturn : inClass '\r' = false) :
    Parser.Stops inClass (ending ++ rest) := by
  cases ends with
  | newline isNewline => exact isNewline.stops inClass noFeed noReturn rest
  | last => exact Parser.stops_nil inClass

theorem EndsLine.head?_ne_hash (ends : EndsLine ending rest) :
    (ending ++ rest).head? ≠ some '#' := by
  cases ends with
  | newline isNewline => cases isNewline <;> simp
  | last => simp

theorem EndsLine.endsValue (ends : EndsLine ending rest) : EndsValue (ending ++ rest) := by
  cases ends with
  | newline isNewline => cases isNewline <;> exact .of_mem (by decide) _
  | last => exact nofun

theorem IsRemark.endsValue (isRemark : IsRemark remark) (ends : EndsLine ending rest) :
    EndsValue (remark ++ (ending ++ rest)) := by
  cases isRemark with
  | nothing => exact ends.endsValue
  | comment => exact .of_mem (by decide) _

namespace Parser

theorem stops_remark (isRemark : IsRemark remark) (ends : EndsLine ending rest) :
    Stops isBlank (remark ++ (ending ++ rest)) := by
  cases isRemark with
  | nothing => exact ends.stops rfl rfl
  | comment => exact stops_cons (by decide) _

theorem newline_or_end (ends : EndsLine ending rest) :
    (newline <|> atEnd) (ending ++ rest) = some ((), rest) := by
  cases ends with
  | newline isNewline => exact orElse_of_some (newline_append isNewline rest)
  | last => rfl

theorem lineEnd_append (areBlanks : IsBlanks behind) (isRemark : IsRemark remark)
    (ends : EndsLine ending rest) :
    lineEnd (behind ++ (remark ++ (ending ++ rest))) = some ((), rest) := by
  have front := blanks_append areBlanks (stops_remark isRemark ends)
  have passed : ∃ found, optional comment (remark ++ (ending ++ rest)) =
      some (found, ending ++ rest) := by
    cases isRemark with
    | nothing =>
        have noComment : comment (ending ++ rest) = none :=
          bind_of_none (char_of_head?_ne ends.head?_ne_hash)
        exact ⟨_, optional_of_none noComment⟩
    | comment isPlain => exact ⟨_, optional_of_some (comment_append isPlain (ends.stops rfl rfl))⟩
  obtain ⟨found, passed⟩ := passed
  rw [lineEnd, bind_of_some front, bind_of_some passed]
  exact newline_or_end ends

/-! ## What lines say -/

theorem key_bracket {path : Key} (blanksBefore : IsBlanks before)
    (hasKey : WritesKey Document.limits text path) (blanksBehind : IsBlanks behind)
    (rest : List Char) :
    key (before ++ (text ++ (behind ++ ']' :: rest))) = some (path, ']' :: rest) :=
  key_append hasKey (Nat.le_refl _) blanksBefore blanksBehind
    (List.mem_cons_of_mem _ List.mem_cons_self)

theorem header_table {path : Key} (blanksBefore : IsBlanks before)
    (hasKey : WritesKey Document.limits text path) (blanksBehind : IsBlanks behind)
    (rest : List Char) :
    header ('[' :: (before ++ (text ++ (behind ++ ']' :: rest)))) = some (.table path, rest) := by
  have apart : char '[' (before ++ (text ++ (behind ++ ']' :: rest))) = none := by
    apply char_of_head?_ne
    cases before with
    | nil => exact (hasKey.names.startsName.append _).head?_ne (by decide) (by decide)
    | cons head tail => obtain rfl | rfl := blanksBefore head List.mem_cons_self <;> simp
  have noElement :
      word ['[', '['] ('[' :: (before ++ (text ++ (behind ++ ']' :: rest)))) = none := by
    rw [word_cons, bind_of_some (char_cons '[' _), word_cons, bind_of_none apart]
  rw [header, orElse_of_none (bind_of_none noElement), bind_of_some (char_cons '[' _),
    bind_of_some (key_bracket blanksBefore hasKey blanksBehind rest),
    bind_of_some (char_cons ']' _)]
  rfl

theorem header_element {path : Key} (blanksBefore : IsBlanks before)
    (hasKey : WritesKey Document.limits text path) (blanksBehind : IsBlanks behind)
    (rest : List Char) :
    header ('[' :: '[' :: (before ++ (text ++ (behind ++ ']' :: ']' :: rest)))) =
      some (.element path, rest) := by
  have opened (tail : List Char) : word ['[', '['] ('[' :: '[' :: tail) = some ((), tail) :=
    word_append ['[', '['] tail
  have closed : word [']', ']'] (']' :: ']' :: rest) = some ((), rest) :=
    word_append [']', ']'] rest
  apply orElse_of_some
  rw [bind_of_some (opened _), bind_of_some (key_bracket blanksBefore hasKey blanksBehind _),
    bind_of_some closed]
  rfl

theorem statement_of_startsName (starts : StartsName text) :
    Parser.statement text = ((fun entry => some (Statement.entry entry)) <$> entry) text := by
  have apart (other : Char) (notBare : isBareChar other = false) (noQuote : other ∉ ['"', '\'']) :
      text.head? ≠ some other := starts.head?_ne notBare noQuote
  have seen : peek text = some (text.head?, text) := rfl
  rw [Parser.statement, bind_of_some seen]
  apply congrFun
  split
  next empty =>
      obtain ⟨first, tail, rfl, -⟩ := starts
      cases empty
  next mark => exact absurd mark (apart '#' (by decide) (by decide))
  next mark => exact absurd mark (apart '\n' (by decide) (by decide))
  next mark => exact absurd mark (apart '\r' (by decide) (by decide))
  next mark => exact absurd mark (apart '[' (by decide) (by decide))
  next => rfl

theorem statement_append (writes : WritesStatement Document.limits text statement)
    (ends : EndsValue rest) : Parser.statement (text ++ rest) = some (some statement, rest) := by
  have bracket (tail : List Char) :
      Parser.statement ('[' :: tail) = (some <$> header) ('[' :: tail) := rfl
  cases writes with
  | entry writes =>
      have read := entryOf_append (readsValues nestingLimit) (Nat.le_refl _) writes ends
      exact (statement_of_startsName (writes.startsName.append rest)).trans (map_of_some read)
  | table blanksBefore hasKey blanksBehind =>
      simp only [List.cons_append, List.append_assoc, List.nil_append]
      exact (bracket _).trans (map_of_some (header_table blanksBefore hasKey blanksBehind rest))
  | element blanksBefore hasKey blanksBehind =>
      simp only [List.cons_append, List.append_assoc, List.nil_append]
      exact (bracket _).trans (map_of_some (header_element blanksBefore hasKey blanksBehind rest))

/-! ## Lines -/

theorem line_of_parts {middle last : List Char} (front : blanks text = some ((), middle))
    (speaks : Parser.statement middle = some (said, last)) (ends : lineEnd last = some ((), rest)) :
    line text = some (said, rest) := by
  rw [line, bind_of_some front, bind_of_some speaks, bind_of_some ends]
  rfl

theorem statement_of_silent (isRemark : IsRemark remark) (ends : EndsLine ending rest) :
    Parser.statement (remark ++ (ending ++ rest)) = some (none, remark ++ (ending ++ rest)) := by
  cases isRemark with
  | comment => rfl
  | nothing =>
      cases ends with
      | newline isNewline => cases isNewline <;> rfl
      | last => rfl

theorem stops_statement_append (writes : WritesStatement Document.limits text statement)
    (rest : List Char) : Stops isBlank (text ++ rest) := by
  cases writes with
  | entry writes => exact (writes.startsName.append rest).stops_isBlank
  | table | element => exact stops_cons (by decide) _

theorem line_append (writes : WritesLine Document.limits text said) (ends : EndsLine ending rest) :
    line (text ++ (ending ++ rest)) = some (said, rest) := by
  cases writes with
  | silent areBlanks isRemark =>
      have last := lineEnd_append (show IsBlanks [] from nofun) isRemark ends
      rw [List.nil_append] at last
      rw [List.append_assoc]
      exact line_of_parts (blanks_append areBlanks (stops_remark isRemark ends))
        (statement_of_silent isRemark ends) last
  | speaks blanksBefore writes blanksBehind isRemark =>
      have behind := (isRemark.endsValue ends).blanks_append blanksBehind
      simp only [List.append_assoc]
      exact line_of_parts (blanks_append blanksBefore (stops_statement_append writes _))
        (statement_append writes behind) (lineEnd_append blanksBehind isRemark ends)

theorem linesWithin_nil (rounds : Nat) : linesWithin rounds [] = some [] := by
  cases rounds <;> rfl

/-- The first line takes a round. -/
theorem linesWithin_succ {rounds : Nat} (nonempty : text ≠ [])
    (reads : line text = some (said, rest)) (later : linesWithin rounds rest = some statements) :
    linesWithin (rounds + 1) text = some (said.toList ++ statements) := by
  obtain ⟨head, tail, rfl⟩ := List.exists_cons_of_ne_nil nonempty
  change (line (head :: tail)).bind _ = _
  rw [reads, Option.bind_some]
  change (linesWithin rounds rest).bind _ = _
  rw [later]
  rfl

/-- Every line but the last takes a character, so there are enough rounds for all lines. -/
theorem linesWithin_eq (writes : WritesStatements Document.limits text statements) {rounds : Nat}
    (enough : text.length ≤ rounds) : linesWithin rounds text = some statements := by
  induction writes generalizing rounds with
  | @last text said writes =>
      have read := line_append writes .last
      rw [List.append_nil, List.append_nil] at read
      cases text with
      | nil =>
          have silent : line [] = some (none, []) := rfl
          cases silent.symm.trans read
          exact linesWithin_nil rounds
      | cons head tail =>
          rw [List.length_cons] at enough
          obtain ⟨rounds, rfl⟩ : ∃ fewer, rounds = fewer + 1 := ⟨rounds - 1, by omega⟩
          have taken := linesWithin_succ (List.cons_ne_nil head tail) read (linesWithin_nil rounds)
          rwa [List.append_nil] at taken
  | @newline text ending more said statements writes isNewline _ ih =>
      have read := line_append writes (.newline isNewline more)
      have nonempty : ending ++ more ≠ [] := List.append_ne_nil_of_left_ne_nil isNewline.ne_nil more
      have positive := List.length_pos_iff.mpr isNewline.ne_nil
      rw [List.length_append, List.length_append] at enough
      obtain ⟨rounds, rfl⟩ : ∃ fewer, rounds = fewer + 1 := ⟨rounds - 1, by omega⟩
      exact linesWithin_succ (List.append_ne_nil_of_right_ne_nil text nonempty) read
        (ih (by omega))

end Parser

/-! ## Documents -/

theorem head?_blanks_append_ne_mark (areBlanks : IsBlanks before)
    (apart : rest.head? ≠ some Document.byteOrderMark) :
    (before ++ rest).head? ≠ some Document.byteOrderMark := by
  cases before with
  | nil => exact apart
  | cons head tail =>
      obtain rfl | rfl := areBlanks head List.mem_cons_self <;> simp [Document.byteOrderMark]

/-- No line begins with the mark of a document. -/
theorem WritesLine.head?_ne_mark {limits : Limits} (writes : WritesLine limits text said)
    (ends : EndsLine ending rest) :
    (text ++ (ending ++ rest)).head? ≠ some Document.byteOrderMark := by
  cases writes with
  | silent areBlanks isRemark =>
      rw [List.append_assoc]
      apply head?_blanks_append_ne_mark areBlanks
      cases isRemark with
      | comment => simp [Document.byteOrderMark]
      | nothing =>
          cases ends with
          | newline isNewline => cases isNewline <;> simp [Document.byteOrderMark]
          | last => simp
  | speaks blanksBefore writes =>
      rw [List.append_assoc]
      apply head?_blanks_append_ne_mark blanksBefore
      rw [List.append_assoc]
      cases writes with
      | entry writes => exact (writes.startsName.append _).head?_ne (by decide) (by decide)
      | table | element => simp [Document.byteOrderMark]

theorem Document.withoutMark_eq {limits : Limits}
    (writes : WritesStatements limits text statements) : withoutMark text = text := by
  have apart : text.head? ≠ some byteOrderMark := by
    cases writes with
    | last line =>
        have apart := line.head?_ne_mark .last
        rwa [List.append_nil, List.append_nil] at apart
    | newline line isNewline => exact line.head?_ne_mark (.newline isNewline _)
  cases text with
  | nil => rfl
  | cons head tail => exact if_neg fun same => apart (congrArg some same)

theorem Document.read?_eq {text : String} (writes : WritesDocument limits text.toList statements) :
    read? text = Table.ofStatements? statements := by
  have lines : statements? (withoutMark text.toList) = some statements := by
    generalize text.toList = characters at writes
    cases writes with
    | plain writes =>
        rw [withoutMark_eq writes]
        exact Parser.linesWithin_eq writes (Nat.le_refl _)
    | marked writes => exact Parser.linesWithin_eq writes (Nat.le_refl _)
  rw [read?, lines]
  rfl

end ByteCursor.Toml
