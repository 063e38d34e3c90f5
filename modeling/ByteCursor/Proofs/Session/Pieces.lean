import ByteCursor.Proofs.Session.Script

/-!
# Texts cut at an octet

A text up to an octet is read where the octets before it are well-formed UTF-8.  The search for the
octet does not know of characters, but no octet of a longer character looks like an ASCII
character: where all unread octets are well-formed, an ASCII octet cuts them between characters, and
a tail octet cuts them within one.
-/

namespace ByteCursor

/-- The text up to the first `stop` is read if and only if it is well-formed, and it has the
characters that its octets write. -/
structure Cursor.ReadsText (cursor : Cursor) (stop : UInt8) : Prop where
  succeeds_iff : (∃ reply count, (Call.readTextUntil stop).Passes cursor reply count) ↔
    ∃ before rest, cursor.remaining = before ++ stop :: rest ∧ stop ∉ before ∧
      Utf8.WellFormed before
  passes : ∀ reply count, (Call.readTextUntil stop).Passes cursor reply count →
    ∃ before rest text, (cursor.remaining = before ++ stop :: rest ∧ stop ∉ before) ∧
      (reply = .text text ∧ count = before.length + 1) ∧
        Bytes.ofString text = before ∧
          ∀ values, Utf8.Writes before values ↔ values = Utf8.scalars text
  passes_or_misses : (∃ reply count, (Call.readTextUntil stop).Passes cursor reply count) ∨
    (Call.readTextUntil stop).Misses cursor

/-- The text up to `stop` is read wherever `stop` occurs, and what it and the octets behind it
write are parts of what all unread octets write. -/
structure Cursor.CutsBetween (cursor : Cursor) (stop : UInt8) : Prop where
  succeeds_iff : (∃ reply count, (Call.readTextUntil stop).Passes cursor reply count) ↔
    stop ∈ cursor.remaining
  passes : ∀ text count, (Call.readTextUntil stop).Passes cursor (.text text) count →
    ∀ values, Utf8.Writes cursor.remaining values →
      ∃ later, values = Utf8.scalars text ++ stop.toNat :: later ∧
        Utf8.Writes (cursor.pass count).remaining later

/-- Read a text up to the octet, so many times. -/
def Session.readTexts (session : Session) (stop : UInt8) (times : Nat) : List Answer × Session :=
  session.run (List.replicate times (.call (.readTextUntil stop)))

/-- Reading texts up to `stop` gives the pieces and then fails, and the pieces and the octets that
are left are together the unread octets. -/
structure Session.SplitsInto (session : Session) (stop : UInt8) (pieces : List String) :
    Prop where
  results : (session.readTexts stop pieces.length).1.map Answer.result =
    pieces.map fun piece => .ok (.text piece)
  misses : (Call.readTextUntil stop).Misses (session.readTexts stop pieces.length).2.cursor
  joined : session.cursor.remaining =
    pieces.flatMap (fun piece => Bytes.ofString piece ++ [stop]) ++
      (session.readTexts stop pieces.length).2.cursor.remaining
  pieces_wellFormed : ∀ piece ∈ pieces,
    stop ∉ Bytes.ofString piece ∧ Utf8.WellFormed (Bytes.ofString piece)
  rest_wellFormed :
    stop ∉ (session.readTexts stop pieces.length).2.cursor.remaining ∧
      Utf8.WellFormed (session.readTexts stop pieces.length).2.cursor.remaining

variable {session : Session} {cursor : Cursor} {stop : UInt8} {reply : Reply} {count : Nat}

/-! ## One text -/

theorem Call.exists_text_of_passes (valid : cursor.Valid)
    (passes : (readTextUntil stop).Passes cursor reply count) :
    ∃ text rest, (cursor.remaining = Bytes.ofString text ++ stop :: rest ∧
        stop ∉ Bytes.ofString text) ∧
      (reply = .text text ∧ count = (Bytes.ofString text).length + 1) ∧
        (cursor.pass count).remaining = rest := by
  obtain ⟨token, rest, output, unread, rfl, takes⟩ := passes.exists_token valid
  have later : (cursor.pass token.length).remaining = rest := by
    rw [Cursor.remaining_pass, unread, List.drop_left]
  cases takes with
  | @readTextUntil _ text _ first =>
      rw [List.append_assoc, List.singleton_append] at unread
      exact ⟨text, rest, ⟨unread, first⟩, ⟨rfl, List.length_append⟩, later⟩

theorem Cursor.readsText (valid : cursor.Valid) (stop : UInt8) : cursor.ReadsText stop where
  succeeds_iff := by
    constructor
    · rintro ⟨reply, count, passes⟩
      obtain ⟨text, rest, ⟨unread, absent⟩, -⟩ := Call.exists_text_of_passes valid passes
      exact ⟨_, rest, unread, absent, Utf8.wellFormed_ofString text⟩
    · rintro ⟨before, rest, unread, absent, wellFormed⟩
      exact (Call.passes_readTextUntil_some_iff valid unread absent).mpr wellFormed
  passes := by
    intro reply count passes
    obtain ⟨text, rest, split, gives, -⟩ := Call.exists_text_of_passes valid passes
    exact ⟨_, rest, text, split, gives, rfl, fun _ => Utf8.writes_ofString_iff⟩
  passes_or_misses := Call.passes_or_misses valid rfl

/-! ## Well-formed octets -/

theorem Cursor.cutsBetween (valid : cursor.Valid) (ascii : stop.toNat < 0x80)
    (wellFormed : Utf8.WellFormed cursor.remaining) : cursor.CutsBetween stop where
  succeeds_iff := by
    obtain ⟨whole, octets⟩ := Utf8.wellFormed_iff.mp wellFormed
    constructor
    · rintro ⟨reply, count, passes⟩
      obtain ⟨text, rest, split, -⟩ := Call.exists_text_of_passes valid passes
      rw [split.1]
      exact List.mem_append_cons_self
    · intro present
      obtain ⟨before, rest, unread, absent⟩ := List.eq_append_cons_of_mem present
      obtain ⟨front, back, rfl, -⟩ :=
        Utf8.exists_texts_of_ascii ascii absent (octets.trans unread)
      rw [Call.passes_readTextUntil_some_iff valid unread absent]
      exact Utf8.wellFormed_ofString front
  passes := by
    intro text count passes values writes
    obtain ⟨found, rest, ⟨unread, absent⟩, ⟨replyEq, -⟩, later⟩ :=
      Call.exists_text_of_passes valid passes
    obtain ⟨whole, octets, rfl⟩ := writes.exists_text
    obtain ⟨front, back, frontEq, rfl, scalarsEq⟩ :=
      Utf8.exists_texts_of_ascii ascii absent (octets.symm.trans unread)
    cases replyEq
    cases Bytes.ofString_injective frontEq
    rw [later]
    exact ⟨Utf8.scalars back, scalarsEq, Utf8.writes_ofString back⟩

/-- A tail octet cuts well-formed octets within a character. -/
theorem Call.misses_readTextUntil_of_isTail (valid : cursor.Valid) (tail : Utf8.IsTail stop)
    (wellFormed : Utf8.WellFormed cursor.remaining) : (readTextUntil stop).Misses cursor := by
  rw [misses_iff valid rfl]
  rintro ⟨reply, count, passes⟩
  obtain ⟨text, rest, split, -⟩ := exists_text_of_passes valid passes
  rw [split.1] at wellFormed
  exact Utf8.not_wellFormed_of_isTail wellFormed tail (Utf8.wellFormed_ofString text)

/-! ## Pieces -/

/-- A text is cut at every occurrence of an ASCII octet. -/
theorem Utf8.exists_pieces (ascii : stop.toNat < 0x80) (text : String) :
    ∃ (pieces : List String) (rest : String),
      Bytes.ofString text =
          pieces.flatMap (fun piece => Bytes.ofString piece ++ [stop]) ++ Bytes.ofString rest ∧
        (∀ piece ∈ pieces, stop ∉ Bytes.ofString piece) ∧ stop ∉ Bytes.ofString rest := by
  by_cases present : stop ∈ Bytes.ofString text
  · obtain ⟨before, behind, split, absent⟩ := List.eq_append_cons_of_mem present
    obtain ⟨front, back, rfl, rfl, -⟩ := exists_texts_of_ascii ascii absent split
    have shorter : (Bytes.ofString back).length < (Bytes.ofString text).length := by
      rw [split, List.length_append, List.length_cons]
      omega
    obtain ⟨pieces, rest, joined, piecesAbsent, restAbsent⟩ := exists_pieces ascii back
    refine ⟨front :: pieces, rest, ?_, ?_, restAbsent⟩
    · rw [split, joined, List.flatMap_cons, List.append_assoc, List.append_assoc,
        List.singleton_append]
    · rw [List.forall_mem_cons]
      exact ⟨absent, piecesAbsent⟩
  · exact ⟨[], text, rfl, by simp, present⟩
termination_by (Bytes.ofString text).length

theorem Session.exists_splitsInto (valid : session.Valid) (ascii : stop.toNat < 0x80)
    (wellFormed : Utf8.WellFormed session.cursor.remaining) :
    ∃ pieces, session.SplitsInto stop pieces := by
  obtain ⟨text, octets⟩ := Utf8.wellFormed_iff.mp wellFormed
  obtain ⟨pieces, rest, joined, absent, restAbsent⟩ := Utf8.exists_pieces ascii text
  have unread := octets.symm.trans joined
  obtain ⟨results, left⟩ := run_replicate valid
    (fun piece member _ => Step.reads_readTextUntil (absent piece member)) unread
  have laterValid : (session.readTexts stop pieces.length).2.Valid := valid.run _
  refine ⟨pieces, results, ?misses, ?joined, ?pieces, ?rest⟩
  case misses =>
    apply Call.IsUntil.text.misses laterValid.cursor
    rw [readTexts, left]
    exact restAbsent
  case joined => rw [readTexts, left, unread]
  case pieces => exact fun piece member => ⟨absent piece member, Utf8.wellFormed_ofString piece⟩
  case rest =>
    rw [readTexts, left]
    exact ⟨restAbsent, Utf8.wellFormed_ofString rest⟩

namespace Session

/-- Texts are read up to an octet as the characters that they are.  Within well-formed octets an
ASCII octet splits them between characters, and up to a tail octet nothing is read. -/
theorem texts_split_between_characters (reachable : session.Reachable) (stop : UInt8) :
    session.cursor.ReadsText stop ∧
      (Utf8.WellFormed session.cursor.remaining →
        (stop.toNat < 0x80 →
            session.cursor.CutsBetween stop ∧ ∃ pieces, session.SplitsInto stop pieces) ∧
          (Utf8.IsTail stop → (Call.readTextUntil stop).Misses session.cursor)) := by
  have valid := reachable.valid
  refine ⟨Cursor.readsText valid.cursor stop, ?_⟩
  intro wellFormed
  constructor
  · intro ascii
    exact ⟨Cursor.cutsBetween valid.cursor ascii wellFormed,
      exists_splitsInto valid ascii wellFormed⟩
  · intro tail
    exact Call.misses_readTextUntil_of_isTail valid.cursor tail wellFormed

/-- The text `é,€,x` can be read up to its commas and not up to the octet 82 of the euro sign. -/
theorem texts_split_between_characters_euro :
    let text : Bytes := [0xc3, 0xa9, 0x2c, 0xe2, 0x82, 0xac, 0x2c, 0x78]
    let session : Session := { cursor := { bytes := text, position := 0, options := {} } }
    session.Reachable ∧ Utf8.WellFormed session.cursor.remaining ∧
      (0x2c : UInt8).toNat < 0x80 ∧ (∃ pieces, session.SplitsInto 0x2c pieces) ∧
      (∃ reply count, (Call.readTextUntil 0x2c).Passes session.cursor reply count) ∧
      Utf8.IsTail 0x82 ∧ (Call.readTextUntil 0x82).Misses session.cursor := by
  intro text session
  have reachable : session.Reachable := .ofText (by decide) (by decide) {}
  have wellFormed : Utf8.WellFormed session.cursor.remaining := by
    rw [Utf8.wellFormed_iff]
    refine ⟨"é,€,x", ?_⟩
    rw [Bytes.ofString_eq_flatMap]
    decide
  have comma := (texts_split_between_characters reachable 0x2c).2 wellFormed
  have tail := (texts_split_between_characters reachable 0x82).2 wellFormed
  have ascii : (0x2c : UInt8).toNat < 0x80 := by decide
  have isTail : Utf8.IsTail 0x82 := by simp [Utf8.IsTail]
  obtain ⟨cuts, splits⟩ := comma.1 ascii
  exact ⟨reachable, wellFormed, ascii, splits, cuts.succeeds_iff.mpr (by decide), isTail,
    tail.2 isTail⟩

end Session

end ByteCursor
