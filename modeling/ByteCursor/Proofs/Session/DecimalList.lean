import ByteCursor.Proofs.Decimal.Language
import ByteCursor.Proofs.Session.Script

/-!
# Lists of decimal numbers

Integers of any of the types may be written behind each other with single commas between them, each
with blanks, a plus and zeros of its own before its digits.  A read stops at the comma, because a
comma does not go on a number, and the last one stops at the end of the text.

So the list is read back, unless a number has so many zeros that its digits are counted as none: the
read of that number misses.
-/

namespace ByteCursor.Decimal

/-- The octet between two numbers of a list. -/
def separator : UInt8 := 0x2c

/-- The octet behind a number of a list does not go on its digits. -/
theorem startsApart_separator (text : Bytes) : StartsApart ([separator] ++ text) := by
  rw [List.singleton_append, startsApart_cons]
  simp [IsDigit, separator]

/-- A number of a list with the type it is read as and its padding. -/
structure Entry where
  type : IntType
  value : Int
  padding : Padding
  holds : type.Holds value

namespace Entry

/-- The octets of the number. -/
def octets (entry : Entry) : Bytes := (Numeral.padded entry.padding entry.value).octets

/-- The step that reads the number. -/
def step (entry : Entry) : Step := .call (.readDecimal entry.type)

/-- The text of a list. -/
def text (entries : List Entry) : Bytes := [separator].intercalate (entries.map octets)

/-- The steps that read a list. -/
def steps (entries : List Entry) : List Step :=
  (entries.map step).intersperse (.call (.skipByte separator))

/-- The replies that tell the values of a list. -/
def replies (entries : List Entry) : List Reply :=
  (entries.map fun entry => .integer entry.value).intersperse .nothing

variable {options : Options} {rest : Bytes}

/-- The digits of the number, and the zeros before them, are not counted as none. -/
def IsCounted (entry : Entry) : Prop := (Numeral.padded entry.padding entry.value).IsCounted

instance (entry : Entry) : Decidable entry.IsCounted :=
  inferInstanceAs (Decidable (Numeral.IsCounted _))

theorem reads {entry : Entry} (counted : entry.IsCounted) (apart : StartsApart rest) :
    entry.step.Reads options entry.octets rest (.integer entry.value) :=
  Step.reads_readDecimal_padded counted entry.holds apart

/-- The steps read a list of counted numbers before anything that does not go on its last
number. -/
theorem script {entries : List Entry} (counted : ∀ entry ∈ entries, entry.IsCounted)
    (apart : StartsApart rest) :
    Session.Script options rest (steps entries) (text entries) (replies entries) := by
  refine .separated (fun entry member _ => reads (counted entry member))
    (fun _ => Step.reads_skipByte separator) startsApart_separator apart

variable {session : Session}

/-- A number whose digits are counted as none is not read. -/
theorem isCounted_of_answer {entry : Entry} {reply : Reply} (valid : session.Valid)
    (unread : session.cursor.remaining = entry.octets ++ rest) (apart : StartsApart rest)
    (answered : (session.answer entry.step).result = .ok reply) : entry.IsCounted := by
  have numeralEq : Numeral.ofText entry.type.isSigned session.cursor.remaining =
      Numeral.padded entry.padding entry.value := by
    rw [unread]
    exact (Numeral.splitsOff_padded entry.holds.isSigned apart).ofText_eq
  exact (Call.accepts_of_readDecimal valid.cursor numeralEq answered).1.1

/-- If the steps read a list, all of its numbers are counted. -/
theorem isCounted_of_results {entries : List Entry} (valid : session.Valid)
    (unread : session.cursor.remaining = text entries ++ rest) (apart : StartsApart rest)
    (results : (session.run (steps entries)).1.map Answer.result = (replies entries).map .ok) :
    ∀ entry ∈ entries, entry.IsCounted := by
  induction entries generalizing session with
  | nil => exact fun _ member => absurd member List.not_mem_nil
  | cons entry entries ih =>
      cases entries with
      | nil =>
          rw [text, List.map_singleton, List.intercalate_singleton] at unread
          have answered := (List.cons.inj results).1
          exact List.forall_mem_singleton.mpr (isCounted_of_answer valid unread apart answered)
      | cons next entries =>
          have textEq : text (entry :: next :: entries) ++ rest =
              entry.octets ++ ([separator] ++ (text (next :: entries) ++ rest)) := by
            simp only [text, List.map_cons, List.intercalate_cons_cons, List.append_assoc]
          rw [textEq] at unread
          obtain ⟨answered, behind⟩ := List.cons.inj results
          have apartBehind := startsApart_separator (text (next :: entries) ++ rest)
          have counted := isCounted_of_answer valid unread apartBehind answered
          obtain ⟨optionsEq, unreadSeparator⟩ := (reads counted apartBehind).leaves valid rfl unread
          have validBehind := valid.after entry.step
          obtain ⟨-, unreadBehind⟩ :=
            (Step.reads_skipByte separator).leaves validBehind optionsEq unreadSeparator
          exact List.forall_mem_cons.mpr
            ⟨counted, ih (validBehind.after _) unreadBehind (List.cons.inj behind).2⟩

end Entry

/-- A list that is the whole unread text is read back value by value under all options, with nothing
left of the text, exactly if the digits of all of its numbers are counted. -/
theorem lists_read_back {session : Session} (reachable : session.Reachable)
    (entries : List Entry) (unread : session.cursor.remaining = Entry.text entries) :
    let outcome := session.run (Entry.steps entries)
    (outcome.1.map Answer.result = (Entry.replies entries).map .ok ∧
        outcome.2.cursor.isEmpty = true) ↔
      ∀ entry ∈ entries, entry.IsCounted := by
  intro outcome
  have unreadAll : session.cursor.remaining = Entry.text entries ++ [] := by
    rw [List.append_nil]
    exact unread
  constructor
  · rintro ⟨results, -⟩
    exact Entry.isCounted_of_results reachable.valid unreadAll startsApart_nil results
  · intro counted
    have script : Session.Script session.cursor.options [] _ _ _ :=
      Entry.script counted startsApart_nil
    constructor
    · exact (script.run reachable.valid rfl unreadAll).1
    · rw [Cursor.isEmpty_iff, ← Cursor.remaining_eq_nil_iff]
      exact script.remaining_run reachable.valid rfl unreadAll

/-- The text `+4294967295`. -/
def Entry.greatest : Entry where
  type := .u32
  value := 4294967295
  padding := { Padding.none with hasPlus := true }
  holds := by decide

/-- The text ` -00128`. -/
def Entry.least : Entry where
  type := .i8
  value := -128
  padding :=
    { blanks := [0x20]
      hasPlus := false
      zeros := 2
      blanks_mem := by simp [blankBytes] }
  holds := by decide

/-- The text `+4294967295, -00128` is read in full, also where narrow reads wrap. -/
theorem lists_read_back_bounds :
    let text : Bytes :=
      [0x2b, 0x34, 0x32, 0x39, 0x34, 0x39, 0x36, 0x37, 0x32, 0x39, 0x35, 0x2c, 0x20, 0x2d, 0x30,
        0x30, 0x31, 0x32, 0x38]
    let session : Session :=
      { cursor := { bytes := text, position := 0, options := { narrowing := .permissive } } }
    let steps : List Step :=
      [.call (.readDecimal .u32), .call (.skipByte 0x2c), .call (.readDecimal .i8)]
    let replies : List Reply := [.integer 4294967295, .nothing, .integer (-128)]
    session.Reachable ∧ (session.run steps).1.map Answer.result = replies.map .ok ∧
      (session.run steps).2.cursor.isEmpty = true := by
  intro text session steps replies
  have reachable : session.Reachable := .ofText (by decide) (by decide) _
  have unread : session.cursor.remaining = Entry.text [.greatest, .least] := by decide
  have stepsEq : Entry.steps [.greatest, .least] = steps := rfl
  have repliesEq : Entry.replies [.greatest, .least] = replies := rfl
  have counted : ∀ entry ∈ [Entry.greatest, Entry.least], entry.IsCounted := by decide
  have readBack := (lists_read_back reachable [.greatest, .least] unread).mpr counted
  rw [stepsEq, repliesEq] at readBack
  exact ⟨reachable, readBack⟩

/-- The text of `2 ^ 32` zeros. -/
def Entry.uncounted : Entry where
  type := .u32
  value := 0
  padding := .ofZeros (2 ^ 32 - 1)
  holds := by decide

theorem answer_onZeros {zeros : Nat} (isWord : zeros + 2 < sizeLimit)
    (wraps : 2 ^ 32 ∣ zeros + 1) :
    (Session.answer { cursor := Cursor.onZeros zeros } (.call (.readDecimal .u32))).result =
      .error (.error (.parse "u32" 0)) := (misses_onZeros isWord wraps).result

/-- The list of the one number zero, written with `2 ^ 32` digits, is not read back. -/
theorem lists_miss_zeros :
    let session : Session := { cursor := Cursor.onZeros (2 ^ 32 - 1) }
    session.Reachable ∧ session.cursor.remaining = Entry.text [.uncounted] ∧
      (session.answer Entry.uncounted.step).result = .error (.error (.parse "u32" 0)) := by
  intro session
  have textEq : Entry.text [.uncounted] = Entry.uncounted.octets := by
    rw [Entry.text, List.map_singleton, List.intercalate_singleton]
  refine ⟨reachable_onZeros (by decide), ?unread, answer_onZeros (by decide) (by decide)⟩
  rw [textEq]
  exact remaining_onZeros _

end ByteCursor.Decimal
