import ByteCursor.Proofs.BinaryFormat
import ByteCursor.Proofs.Session.Bulk

/-!
# Streams of binary integers

Integers of any of the formats can stand behind each other without anything between them, and the
raw view reads them back in order.  Steps that fail may come between the reads, because they leave
the stream where it was.  A wide integer is read where two integers of half its width are read one
after the other, and where the second of these is missing, none of its octets is taken.
-/

namespace ByteCursor

/-- An integer of a stream with the format that it stands in. -/
structure BinaryEntry where
  format : BinaryFormat
  value : Int
  holds : format.Holds value

namespace BinaryEntry

/-- The octets of the integer. -/
def octets (entry : BinaryEntry) : Bytes := entry.format.encode entry.value

/-- The step that reads the integer. -/
def step (entry : BinaryEntry) : Step := .raw (.integer entry.format)

/-- What the reads of a stream answer from a position on: each integer, and the position behind
its octets. -/
def answers : (position : Nat) → List BinaryEntry → List (Except Failure Reply × Nat)
  | _, [] => []
  | position, entry :: entries =>
      let behind := position + entry.format.width.octets
      (.ok (.integer entry.value), behind) :: answers behind entries

@[simp] theorem length_octets (entry : BinaryEntry) :
    entry.octets.length = entry.format.width.octets := by
  rw [octets, BinaryFormat.length_encode]

theorem reads (entry : BinaryEntry) {options : Options} {rest : Bytes} :
    entry.step.Reads options entry.octets rest (.integer entry.value) := by
  have reads : entry.step.Reads options entry.octets rest _ :=
    Step.reads_takeInteger entry.length_octets
  rw [octets, BinaryFormat.decode_encode entry.holds] at reads
  exact reads

end BinaryEntry

namespace Session

/-- The steps read the entries one after the other, and the steps between them fail. -/
inductive Interleaves : Session → List BinaryEntry → List Step → Prop where
  | nil {session : Session} : Interleaves session [] []
  | read {session : Session} {entry : BinaryEntry} {entries : List BinaryEntry}
      {steps : List Step} (later : Interleaves (session.after entry.step) entries steps) :
      Interleaves session (entry :: entries) (entry.step :: steps)
  | failure {session : Session} {step : Step} {entries : List BinaryEntry} {steps : List Step}
      (fails : (session.answer step).succeeds = false)
      (later : Interleaves (session.after step) entries steps) :
      Interleaves session entries (step :: steps)

/-- Binary integers are read back from the unread octets in streams, in halves or not at all. -/
structure ReadsIntegers (session : Session) : Prop where
  stream : ∀ entries steps rest,
    session.cursor.remaining = entries.flatMap BinaryEntry.octets ++ rest →
    session.Interleaves entries steps →
      ((session.run steps).1.filter Answer.succeeds).map
          (fun answer => (answer.result, answer.position)) =
        BinaryEntry.answers session.cursor.position entries ∧
      (session.run steps).2.cursor.remaining = rest
  halves : ∀ full half : BinaryFormat, full.HasHalf half →
    session.Bundles (.raw (.integer full)) [.raw (.integer half), .raw (.integer half)]
      fun answer replies => ∃ first second,
        answer.result = .ok (.integer (full.order.join (2 ^ half.bits) first second)) ∧
          replies = [.integer first, .integer second]
  short : ∀ format : BinaryFormat, session.cursor.available < format.width.octets →
    (session.answer (.raw (.integer format))).result =
        .error (.breach (.shortRead session.cursor.available format.width.octets)) ∧
      session.after (.raw (.integer format)) = session

variable {session : Session}

/-- The reads of a stream are answered with its entries, whatever fails between them. -/
theorem Interleaves.run {entries : List BinaryEntry} {steps : List Step} {rest : Bytes}
    (interleaves : session.Interleaves entries steps) (valid : session.Valid)
    (unread : session.cursor.remaining = entries.flatMap BinaryEntry.octets ++ rest) :
    ((session.run steps).1.filter Answer.succeeds).map
        (fun answer => (answer.result, answer.position)) =
      BinaryEntry.answers session.cursor.position entries ∧
    (session.run steps).2.cursor.remaining = rest := by
  -- A read leaves the octets of the later entries, and a failure leaves all of them.
  induction interleaves with
  | nil => exact ⟨rfl, unread⟩
  | @read session entry entries steps later ih =>
      rw [List.flatMap_cons, List.append_assoc] at unread
      obtain ⟨answered, moved⟩ := entry.reads session valid rfl unread
      rw [entry.length_octets] at moved
      have position : (session.answer entry.step).position =
          session.cursor.position + entry.format.width.octets :=
        congrArg Cursor.position moved
      have behind : (session.after entry.step).cursor.remaining =
          entries.flatMap BinaryEntry.octets ++ rest := by
        rw [moved, Cursor.remaining_pass, unread, ← entry.length_octets, List.drop_left]
      obtain ⟨answers, left⟩ := ih (valid.after _) behind
      rw [moved, Cursor.position_pass] at answers
      refine ⟨?_, left⟩
      rw [run_cons, List.filter_cons_of_pos (succeeds_of_ok answered), List.map_cons, answered,
        position, answers, BinaryEntry.answers]
  | @failure session step entries steps fails later ih =>
      have unmoved := (similar_after valid fails).cursor
      rw [← unmoved] at unread
      obtain ⟨answers, left⟩ := ih (valid.after _) unread
      refine ⟨?_, left⟩
      rw [run_cons, List.filter_cons_of_neg (by simp [fails]), answers, unmoved]

theorem passesOver_takeInteger (format : BinaryFormat) :
    (Step.raw (.integer format)).PassesOver fun token => token.length = format.width.octets := by
  apply Step.PassesOver.of_raw
  intro token rest reply output takes
  cases takes with
  | integer length => exact length

/-- An integer without a sign is read where its halves are read one after the other. -/
theorem bundles_halves (valid : session.Valid) {full half : BinaryFormat}
    (hasHalf : full.HasHalf half) :
    session.Bundles (.raw (.integer full)) [.raw (.integer half), .raw (.integer half)]
      fun answer replies => ∃ first second,
        answer.result = .ok (.integer (full.order.join (2 ^ half.bits) first second)) ∧
          replies = [.integer first, .integer second] := by
  refine .of_reads (full.width.octets ≤ session.cursor.available) valid ?single ?several ?read
  case single =>
    rw [allSucceed_singleton]
    exact size_le_available (passesOver_takeInteger full) valid
  case several =>
    let formats := [half, half]
    intro (succeed : session.AllSucceed (formats.map fun format => .raw (.integer format)))
    rw [hasHalf.width]
    exact succeed.sum_le_available (fun format _ => passesOver_takeInteger format) valid
  case read =>
    intro fits
    rw [hasHalf.width] at fits
    obtain ⟨first, second, rest, unread, firstLength, secondLength⟩ := Cursor.exists_slices fits
    have length : (first ++ second).length = full.width.octets := by
      rw [List.length_append, firstLength, secondLength, hasHalf.width]
    refine ⟨first ++ second, rest, _, _, unread, Step.reads_takeInteger length,
      (Script.singleton (Step.reads_takeInteger firstLength)).append
        (.singleton (Step.reads_takeInteger secondLength)), ?_⟩
    intro result _
    rw [hasHalf.decode_append firstLength secondLength] at result
    exact ⟨_, _, result, rfl⟩

/-- With too few octets nothing is read. -/
theorem short_integer {format : BinaryFormat}
    (short : session.cursor.available < format.width.octets) :
    (session.answer (.raw (.integer format))).result =
        .error (.breach (.shortRead session.cursor.available format.width.octets)) ∧
      session.after (.raw (.integer format)) = session := by
  let request := RawRequest.integer format
  have ran : request.run session.cursor =
      .breached (.shortRead session.cursor.available format.width.octets)
        (request.start session.cursor) :=
    Scan.run_map_of_breached ((Scan.takesOctets_takeInteger format).refuses short)
  have unmoved : (request.run session.cursor).state.cursor = session.cursor := by
    rw [ran]
    rfl
  constructor
  · exact congrArg Scan.Outcome.result ran
  · rw [after, perform, unmoved]

/-- In every reachable session streams of binary integers are read back, with any failures between
the reads, a wide integer is its two halves, and too few octets are not read at all. -/
theorem binary_integers_read_back (reachable : session.Reachable) : session.ReadsIntegers where
  stream _ _ _ unread interleaves := interleaves.run reachable.valid unread
  halves _ _ hasHalf := bundles_halves reachable.valid hasHalf
  short _ tooFew := short_integer tooFew

/-- The octets of `-2` and of `0x01020304` are read around a comma that is not there, and the single
octet behind them is no half of an integer. -/
theorem binary_integers_read_back_mixed :
    let session : Session :=
      { cursor := { bytes := [0xff, 0xfe, 0x04, 0x03, 0x02, 0x01, 0x80], position := 0,
                    options := {} } }
    let steps : List Step :=
      [.raw (.integer ⟨.two, true, .big⟩), .call (.skipByte 0x2c),
        .raw (.integer ⟨.four, false, .little⟩)]
    let last := (session.run steps).2
    let wide : Step := .raw (.integer ⟨.two, false, .big⟩)
    session.Reachable ∧
      ((session.run steps).1.filter Answer.succeeds).map
          (fun answer => (answer.result, answer.position)) =
        [(.ok (.integer (-2)), 2), (.ok (.integer 0x01020304), 6)] ∧
      last.cursor.remaining = [0x80] ∧
      (last.answer wide).result = .error (.breach (.shortRead 1 2)) ∧ last.after wide = last := by
  intro session steps last wide
  have reachable : session.Reachable := .ofText (by decide) (by decide) {}
  let negative : BinaryEntry := ⟨⟨.two, true, .big⟩, -2, by decide⟩
  let swapped : BinaryEntry := ⟨⟨.four, false, .little⟩, 0x01020304, by decide⟩
  have unread : session.cursor.remaining =
      [negative, swapped].flatMap BinaryEntry.octets ++ [0x80] := by
    decide
  have later : (session.after negative.step).Interleaves [swapped] steps.tail :=
    .failure (by decide) (@Interleaves.read _ swapped _ _ .nil)
  have interleaves : session.Interleaves [negative, swapped] steps :=
    @Interleaves.read _ negative _ _ later
  obtain ⟨answers, left⟩ :=
    (binary_integers_read_back reachable).stream _ _ _ unread interleaves
  have single : last.cursor.available = 1 := by decide
  have tooFew : last.cursor.available < BinaryWidth.two.octets := by
    rw [single]
    decide
  have short := (binary_integers_read_back (reachable.run steps)).short ⟨.two, false, .big⟩ tooFew
  rw [single] at short
  exact ⟨reachable, answers, left, short⟩

end Session

end ByteCursor
