import ByteCursor.Proofs.Call.Occurrence
import ByteCursor.Proofs.Call.Until
import ByteCursor.Proofs.Decimal.Canonical
import ByteCursor.Proofs.Hexadecimal.Derived
import ByteCursor.Proofs.Session.Reachable

/-!
# Scripts of steps

A step reads a token if it takes exactly the token off every text that starts with it and goes on
with the given rest.  A script is a list of steps that read one token after the other; it reads
their concatenation and gives their replies in order.

The second half says which token each call reads.  What follows a token matters where the call
looks for the longest run, so the rest is part of the statement.
-/

namespace ByteCursor

/-- The step answers with the reply and takes the token, where the token stands before the rest
under the options. -/
def Step.Reads (step : Step) (options : Options) (token rest : Bytes) (reply : Reply) : Prop :=
  ∀ session : Session, session.Valid → session.cursor.options = options →
    session.cursor.remaining = token ++ rest →
    (session.answer step).result = .ok reply ∧
      (session.after step).cursor = session.cursor.pass token.length

/-- Behind the token the session goes on with the rest. -/
theorem Step.Reads.leaves {step : Step} {options : Options} {token rest : Bytes} {reply : Reply}
    (reads : step.Reads options token rest reply) {session : Session} (valid : session.Valid)
    (optionsEq : session.cursor.options = options)
    (unread : session.cursor.remaining = token ++ rest) :
    (session.after step).cursor.options = options ∧
      (session.after step).cursor.remaining = rest := by
  have moved := (reads session valid optionsEq unread).2
  constructor
  · rw [moved, Cursor.options_pass, optionsEq]
  · rw [moved, Cursor.remaining_pass, unread, List.drop_left]

namespace Session

/-- The steps read the text from its start up to the rest, and these are their replies. -/
inductive Script (options : Options) (rest : Bytes) : List Step → Bytes → List Reply → Prop where
  | nil : Script options rest [] [] []
  | cons {step : Step} {steps : List Step} {token text : Bytes} {reply : Reply}
      {replies : List Reply} (first : step.Reads options token (text ++ rest) reply)
      (later : Script options rest steps text replies) :
      Script options rest (step :: steps) (token ++ text) (reply :: replies)

namespace Script

variable {options : Options} {rest text more : Bytes} {steps others : List Step}
  {replies moreReplies : List Reply}

/-- A script may be followed by one that reads on where it stops. -/
theorem append (first : Script options (more ++ rest) steps text replies)
    (second : Script options rest others more moreReplies) :
    Script options rest (steps ++ others) (text ++ more) (replies ++ moreReplies) := by
  induction first with
  | nil => exact second
  | cons reads later ih =>
      rw [List.append_assoc]
      refine .cons ?_ ih
      rw [List.append_assoc]
      exact reads

theorem singleton {step : Step} {token : Bytes} {reply : Reply}
    (reads : step.Reads options token rest reply) :
    Script options rest [step] token [reply] := by
  have script : Script options rest [step] (token ++ []) [reply] := .cons reads .nil
  rw [List.append_nil] at script
  exact script

/-- Steps that read the token of an item each read the tokens of all of them. -/
theorem map {α : Type} {items : List α} {step : α → Step} {token : α → Bytes} {reply : α → Reply}
    (reads : ∀ item ∈ items, ∀ more,
      (step item).Reads options (token item) more (reply item)) :
    Script options rest (items.map step) (items.flatMap token) (items.map reply) := by
  induction items with
  | nil => exact .nil
  | cons item items ih =>
      rw [List.forall_mem_cons] at reads
      rw [List.map_cons, List.flatMap_cons, List.map_cons]
      exact .cons (reads.1 _) (ih reads.2)

/-- A step that reads the token of each item reads the tokens of all of them. -/
theorem replicate {α : Type} {items : List α} {step : Step} {token : α → Bytes}
    {reply : α → Reply}
    (reads : ∀ item ∈ items, ∀ more, step.Reads options (token item) more (reply item)) :
    Script options rest (List.replicate items.length step) (items.flatMap token)
      (items.map reply) := by
  rw [← List.map_const']
  exact map reads

/-- Steps that read the tokens of items read them also joined by a mark, if one more step reads
the mark between any two of them.  `Follows` is what they ask of the octets behind a token. -/
theorem separated {α : Type} {items : List α} {step : α → Step} {token : α → Bytes}
    {reply : α → Reply} {between : Step} {mark : Bytes} {quiet : Reply} {Follows : Bytes → Prop}
    (reads : ∀ item ∈ items, ∀ more, Follows more →
      (step item).Reads options (token item) more (reply item))
    (readsMark : ∀ more, between.Reads options mark more quiet)
    (behind : ∀ more, Follows (mark ++ more)) (atEnd : Follows rest) :
    Script options rest ((items.map step).intersperse between)
      (mark.intercalate (items.map token)) ((items.map reply).intersperse quiet) := by
  induction items with
  | nil => exact .nil
  | cons item items ih =>
      rw [List.forall_mem_cons] at reads
      cases items with
      | nil =>
          simp only [List.map_singleton, List.intercalate_singleton]
          exact .singleton (reads.1 rest atEnd)
      | cons next items =>
          have later := ih reads.2
          simp only [List.map_cons, List.intersperse_cons_cons, List.intercalate_cons_cons,
            List.append_assoc] at later ⊢
          refine .cons (reads.1 _ ?_) (.cons (readsMark _) later)
          rw [List.append_assoc]
          exact behind _

/-- A script runs without a failure and stops at the rest. -/
theorem run (script : Script options rest steps text replies) {session : Session}
    (valid : session.Valid) (optionsEq : session.cursor.options = options)
    (unread : session.cursor.remaining = text ++ rest) :
    (session.run steps).1.map Answer.result = replies.map .ok ∧
      (session.run steps).2.cursor = session.cursor.pass text.length := by
  induction script generalizing session with
  | nil => exact ⟨rfl, rfl⟩
  | @cons step steps token text reply replies first later ih =>
      rw [List.append_assoc] at unread
      rcases first session valid optionsEq unread with ⟨answered, moved⟩
      obtain ⟨laterOptions, laterUnread⟩ := first.leaves valid optionsEq unread
      rcases ih (valid.after step) laterOptions laterUnread with ⟨results, stopped⟩
      constructor
      · rw [run_cons, List.map_cons, List.map_cons, answered, results]
      · rw [run_cons, stopped, moved, Cursor.pass_pass, List.length_append]

/-- A script leaves the rest unread. -/
theorem remaining_run (script : Script options rest steps text replies) {session : Session}
    (valid : session.Valid) (optionsEq : session.cursor.options = options)
    (unread : session.cursor.remaining = text ++ rest) :
    (session.run steps).2.cursor.remaining = rest := by
  rw [(script.run valid optionsEq unread).2, Cursor.remaining_pass, unread, List.drop_left]

end Script

/-- A step that reads the token of each item answers with the replies to all of them. -/
theorem run_replicate {session : Session} {rest : Bytes} {α : Type} {items : List α} {step : Step}
    {token : α → Bytes} {reply : α → Reply} (valid : session.Valid)
    (reads : ∀ item ∈ items, ∀ more,
      step.Reads session.cursor.options (token item) more (reply item))
    (unread : session.cursor.remaining = items.flatMap token ++ rest) :
    (session.run (List.replicate items.length step)).1.map Answer.result =
        items.map (fun item => .ok (reply item)) ∧
      (session.run (List.replicate items.length step)).2.cursor.remaining = rest := by
  have script : Script session.cursor.options rest _ _ _ := .replicate reads
  constructor
  · rw [(script.run valid rfl unread).1, List.map_map]
    rfl
  · exact script.remaining_run valid rfl unread

end Session

namespace Step

variable {options : Options} {token rest : Bytes} {reply : Reply}

theorem Reads.of_passes {call : Call}
    (passes : ∀ cursor : Cursor, cursor.Valid → cursor.options = options →
      cursor.remaining = token ++ rest → call.Passes cursor reply token.length) :
    (Step.call call).Reads options token rest reply := by
  intro session valid optionsEq unread
  have passed := passes session.cursor valid.cursor optionsEq unread
  exact ⟨passed.result, passed.cursor⟩

theorem Reads.of_took {call : Call}
    (took : ∀ cursor : Cursor, cursor.Valid → cursor.options = options →
      cursor.remaining = token ++ rest →
      ∃ events, call.run cursor = .took reply token.length (call.start cursor) events) :
    (Step.call call).Reads options token rest reply := by
  apply Reads.of_passes
  intro cursor valid optionsEq unread
  rcases took cursor valid optionsEq unread with ⟨events, ran⟩
  exact Call.passes_of_took ran

theorem Reads.of_raw_took {request : RawRequest}
    (took : ∀ cursor : Cursor, cursor.Valid → cursor.options = options →
      cursor.remaining = token ++ rest → ∃ output,
      request.run cursor = .took reply token.length { cursor := cursor, output := output } []) :
    (Step.raw request).Reads options token rest reply := by
  intro session valid optionsEq unread
  obtain ⟨output, ran⟩ := took session.cursor valid.cursor optionsEq unread
  constructor
  · exact congrArg Scan.Outcome.result ran
  · exact congrArg (fun outcome => outcome.state.cursor) ran

/-! ## What the calls read -/

theorem reads_readByte (byte : UInt8) :
    (Step.call .readByte).Reads options [byte] rest (.byte byte) := by
  apply Reads.of_passes
  intro cursor valid _ unread
  exact Call.passes_readByte valid unread

/-- As many octets as a slice has are read as the slice, unless there are none at all. -/
theorem reads_readSlice {slice : Bytes} (nonempty : slice ++ rest ≠ []) :
    (Step.call (.readSlice slice.length)).Reads options slice rest (.slice slice) := by
  apply Reads.of_took
  intro cursor valid _ unread
  have validStart : ((Call.readSlice slice.length).start cursor).cursor.Valid := valid
  have available : cursor.available ≠ 0 := by
    rw [ne_eq, ← Cursor.remaining_eq_nil_iff, unread]
    exact nonempty
  have scanned := Scan.run_readSlice slice.length validStart
  rw [Call.cursor_start, if_pos ⟨Cursor.length_le_available unread, available⟩, unread,
    List.take_left] at scanned
  exact ⟨[], Scan.run_map_of_took scanned⟩

theorem reads_skipPattern {pattern : Bytes} (nonempty : pattern ≠ []) :
    (Step.call (.skipPattern pattern)).Reads options pattern rest .nothing := by
  apply Reads.of_passes
  intro cursor valid _ unread
  exact Call.passes_skipPattern nonempty valid (unread ▸ List.prefix_append pattern rest)

theorem reads_advance (token : Bytes) :
    (Step.raw (.advance token.length)).Reads options token rest .nothing := by
  apply Reads.of_raw_took
  intro cursor valid _ unread
  have validStart : ((RawRequest.advance token.length).start cursor).cursor.Valid := valid
  exact ⟨_, Scan.run_map_of_took
    (Scan.run_advance_of_valid validStart (Cursor.length_le_available unread))⟩

theorem reads_fill {output : Bytes} (length : token.length = output.length) :
    (Step.raw (.fill output)).Reads options token rest .nothing := by
  apply Reads.of_raw_took
  intro cursor valid _ unread
  have validStart : ((RawRequest.fill output).start cursor).cursor.Valid := valid
  have fits := Cursor.length_le_available unread
  rw [length] at fits ⊢
  exact ⟨_, Scan.run_map_of_took (Scan.fillsOutput_fillOutput.fills validStart fits)⟩

/-- As many octets as a format has are read as an integer of the format. -/
theorem reads_takeInteger {format : BinaryFormat} (length : token.length = format.width.octets) :
    (Step.raw (.integer format)).Reads options token rest (.integer (format.decode token)) := by
  apply Reads.of_raw_took
  intro cursor valid _ unread
  have validStart : ((RawRequest.integer format).start cursor).cursor.Valid := valid
  have fits := Cursor.length_le_available unread
  rw [length] at fits
  have scanned := (Scan.takesOctets_takeInteger format).takes validStart fits
  rw [RawRequest.cursor_start, unread, ← length, List.take_left] at scanned
  exact ⟨_, Scan.run_map_of_took scanned⟩

theorem reads_skipByte (byte : UInt8) :
    (Step.call (.skipByte byte)).Reads options [byte] rest .nothing := by
  apply Reads.of_took
  intro cursor valid optionsEq unread
  exact ⟨[], Scan.run_map_of_took (Scan.run_skipByte_same valid unread)⟩

/-- Everything up to an octet is skipped, if it is its first occurrence. -/
theorem reads_skipPastByte {stop : UInt8} {before : Bytes} (absent : stop ∉ before) :
    (Step.call (.skipPastByte stop)).Reads options (before ++ [stop]) rest .nothing := by
  apply Reads.of_passes
  intro cursor valid _ unread
  rw [List.append_assoc, List.singleton_append] at unread
  rw [List.length_append, List.length_singleton]
  exact Call.passes_skipPastByte valid unread absent

/-- Everything up to a pattern is skipped, if the pattern can only occur at its own place. -/
theorem reads_skipPastPattern {first : UInt8} {others junk : Bytes} (unique : first ∉ others)
    (absent : ¬ first :: others <:+: junk) :
    (Step.call (.skipPastPattern (first :: others))).Reads options (junk ++ first :: others) rest
      .nothing := by
  apply Reads.of_took
  intro cursor valid optionsEq unread
  have validStart : ((Call.skipPastPattern (first :: others)).start cursor).cursor.Valid := valid
  have scanned := Scan.run_skipPastPattern (List.cons_ne_nil first others) validStart
  rw [Call.cursor_start, unread, List.append_assoc,
    Bytes.offsetOfPattern?_append unique absent rest] at scanned
  rw [List.length_append]
  exact ⟨[], Scan.run_map_of_took scanned⟩

/-- The search for a pattern that does not occur is answered with an error. -/
theorem misses_skipPastPattern {pattern : Bytes} (nonempty : pattern ≠ []) {session : Session}
    (valid : session.Valid) (absent : ¬ pattern <:+: session.cursor.remaining) :
    (session.answer (.call (.skipPastPattern pattern))).result =
        .error (.error (.parse "skip until substr" session.cursor.position)) ∧
      (session.after (.call (.skipPastPattern pattern))).cursor = session.cursor := by
  have validStart : ((Call.skipPastPattern pattern).start session.cursor).cursor.Valid :=
    valid.cursor
  have notFound : Bytes.offsetOfPattern? pattern session.cursor.remaining = none :=
    (Bytes.offsetOfPattern?_eq_none_iff nonempty).mpr fun _ occurs => absent occurs.isInfix
  have scanned := Scan.run_skipPastPattern nonempty validStart
  rw [Call.cursor_start, notFound] at scanned
  have ran := Scan.run_map_of_missed (f := fun _ => Reply.nothing) scanned
  constructor
  · exact congrArg Scan.Outcome.result ran
  · exact congrArg (fun outcome => outcome.state.cursor) ran

/-- The spaces are skipped up to an octet that is none, or up to the end of the text. -/
theorem reads_trimSpaces_longest (count : Nat) (longest : rest.head? ≠ some 0x20)
    (nonempty : List.replicate count 0x20 ++ rest ≠ []) :
    (Step.call .trimSpaces).Reads options (List.replicate count 0x20) rest (.count count) := by
  apply Reads.of_took
  intro cursor valid optionsEq unread
  have isSpace : ∀ byte ∈ List.replicate count (0x20 : UInt8), Bytes.isSpace byte = true :=
    fun _ member => beq_iff_eq.mpr (List.eq_of_mem_replicate member)
  have noSpace : ∀ other, rest.head? = some other → Bytes.isSpace other = false := by
    intro other otherNext
    rw [Bytes.isSpace, beq_eq_false_iff_ne]
    rintro rfl
    exact longest otherNext
  have unfinished : cursor.available ≠ 0 := by
    rw [ne_eq, ← Cursor.remaining_eq_nil_iff, unread]
    exact nonempty
  have validStart : (Call.trimSpaces.start cursor).cursor.Valid := valid
  have scanned := Scan.run_trimSpaces validStart
  rw [Call.cursor_start, if_neg unfinished, unread,
    Bytes.takeWhile_append_of_boundary isSpace noSpace, List.length_replicate] at scanned
  rw [List.length_replicate]
  exact ⟨[], Scan.run_map_of_took scanned⟩

theorem reads_trimSpaces (count : Nat) {byte : UInt8} (next : rest.head? = some byte)
    (stops : byte ≠ 0x20) :
    (Step.call .trimSpaces).Reads options (List.replicate count 0x20) rest (.count count) := by
  apply reads_trimSpaces_longest
  · rw [next, ne_eq, Option.some_inj]
    exact stops
  · apply List.append_ne_nil_of_right_ne_nil
    rintro rfl
    cases next

/-- A numeral with a value of the type is read with that value. -/
theorem reads_readDecimal {type : IntType} {numeral : Decimal.Numeral}
    (splits : numeral.SplitsOff type.isSigned (numeral.octets ++ rest) rest)
    (counted : numeral.IsCounted) (holds : type.Holds numeral.value) :
    (Step.call (.readDecimal type)).Reads options numeral.octets rest
      (.integer numeral.value) := by
  apply Reads.of_took
  intro cursor valid optionsEq unread
  have numeralEq : Decimal.Numeral.ofText type.isSigned cursor.remaining = numeral := by
    rw [unread]
    exact splits.ofText_eq
  have ran := Call.run_readDecimal type valid numeralEq
  rw [if_pos ⟨counted, holds.widened⟩, if_pos (.inl holds),
    IntType.truncate_of_holds holds] at ran
  exact ⟨[], ran⟩

/-- An integer of the type is read back, whatever padding it is written with, if its digits are
counted. -/
theorem reads_readDecimal_padded {type : IntType} {value : Int} {padding : Decimal.Padding}
    (counted : (Decimal.Numeral.padded padding value).IsCounted) (holds : type.Holds value)
    (apart : Decimal.StartsApart rest) :
    (Step.call (.readDecimal type)).Reads options (Decimal.Numeral.padded padding value).octets
      rest (.integer value) := by
  let numeral := Decimal.Numeral.padded padding value
  have valueEq : numeral.value = value := Decimal.Numeral.value_padded padding value
  have reads : (Step.call (.readDecimal type)).Reads options numeral.octets rest
      (.integer numeral.value) := by
    apply reads_readDecimal (Decimal.Numeral.splitsOff_padded holds.isSigned apart) counted
    rw [valueEq]
    exact holds
  rw [valueEq] at reads
  exact reads

theorem reads_readDecimal_canonical {type : IntType} {value : Int} (holds : type.Holds value)
    (apart : Decimal.StartsApart rest) :
    (Step.call (.readDecimal type)).Reads options (Bytes.ofString (toString value)) rest
      (.integer value) := by
  rw [← Decimal.Numeral.octets_canonical, ← Decimal.Numeral.padded_none]
  exact reads_readDecimal_padded (Decimal.Numeral.isCounted_canonical holds) holds apart

/-- A hexadecimal numeral with a number that the type accepts is read as a value of the type. -/
theorem reads_readHex {type : IntType} (order : ByteOrder) {numeral : Hexadecimal.Numeral}
    (splits : numeral.SplitsOff options (numeral.octets ++ rest) rest)
    (accepted : Hexadecimal.Accepts type options (Hexadecimal.number numeral.digits)) :
    (Step.call (.readHex type order)).Reads options numeral.octets rest
      (.integer (Scan.inOrder order type
        (type.truncate (Hexadecimal.number numeral.digits)))) := by
  apply Reads.of_took
  rintro cursor valid rfl unread
  have numeralEq : Hexadecimal.Numeral.ofText cursor.options cursor.remaining = numeral := by
    rw [unread]
    exact splits.ofText_eq
  have ran := Call.run_readHex type order valid numeralEq
  rw [if_neg splits.digits_ne_nil, if_pos accepted] at ran
  exact ⟨_, ran⟩

theorem reads_readHex_word {numeral : Hexadecimal.Numeral}
    (splits : numeral.SplitsOff options (numeral.octets ++ rest) rest) :
    (Step.call (.readHex .u32 .big)).Reads options numeral.octets rest
      (.integer (Hexadecimal.number numeral.digits)) := by
  have below : Hexadecimal.number numeral.digits < IntType.u32.size :=
    calc Hexadecimal.number numeral.digits
      _ < 16 ^ numeral.digits.length := Hexadecimal.number_lt splits.digits_mem
      _ ≤ 16 ^ 8 := Nat.pow_le_pow_right (by decide) splits.digits_length
  have reads := reads_readHex .big splits (.inl below)
  rw [IntType.truncate_of_lt rfl below] at reads
  exact reads

/-- The octets up to the next stop octet are read as they are. -/
theorem reads_readSliceUntil {stop : UInt8} {slice : Bytes} (absent : stop ∉ slice) :
    (Step.call (.readSliceUntil stop)).Reads options (slice ++ [stop]) rest (.slice slice) := by
  apply Reads.of_passes
  intro cursor valid _ unread
  rw [List.append_assoc, List.singleton_append] at unread
  rw [List.length_append, List.length_singleton]
  exact Call.passes_readSliceUntil valid unread absent

theorem reads_readTextUntil {stop : UInt8} {text : String} (absent : stop ∉ Bytes.ofString text) :
    (Step.call (.readTextUntil stop)).Reads options (Bytes.ofString text ++ [stop]) rest
      (.text text) := by
  apply Reads.of_passes
  intro cursor valid _ unread
  rw [List.append_assoc, List.singleton_append] at unread
  rw [List.length_append, List.length_singleton, Call.passes_readTextUntil_iff valid unread absent]
  exact ⟨text, rfl, rfl, rfl⟩

end Step

end ByteCursor
