import ByteCursor.Proofs.Call.Word

/-!
# The events of calls

A call leaves its events in a fixed order: that a mark was looked for and is not there, then the
layers that went back, the innermost first, or the search that failed.  Which layers go back
depends on the word inside of the call: if the word succeeds, its own layer is not among them.
-/

namespace ByteCursor.Call

/-- The layers of a call that go back when they fail, the innermost first. -/
def layers : Call → List String
  | readDecimal type => Decimal.layers type
  | readHex type order => "u32 be" :: Hexadecimal.outerLayers type order
  | readBool => ["bool"]
  | skipByte _ => ["skip char"]
  | skipPastByte _ => ["skip until char"]
  | readTextUntil _ => ["read str until char"]
  | _ => []

/-- The layers that go back when the call fails on the cursor: all of them, or all but the
innermost if the word inside of the call succeeds. -/
def failedLayers (call : Call) (cursor : Cursor) : List String :=
  match call.word? with
  | some word => if (word.run cursor).result.isOk then call.layers.tail else call.layers
  | none => call.layers

/-- The event of a hexadecimal read that may skip a mark and finds none behind the spaces. -/
def markEvents (call : Call) (cursor : Cursor) : List Event :=
  match call with
  | readHex _ _ =>
      let unspaced := Hexadecimal.withoutSpaces cursor.options cursor.remaining
      if cursor.options.hexPrefix = true ∧ cursor.isEmpty = false ∧ ¬ [0x30, 0x78] <+: unspaced
      then
        [.substringNotAtCursor
          (cursor.position + (cursor.remaining.length - unspaced.length))]
      else []
  | _ => []

/-- The event of a search that fails. -/
def searchEvents (call : Call) (cursor : Cursor) : List Event :=
  match call with
  | skipPattern _ => [.substringNotAtCursor cursor.position]
  | skipPastPattern _ => [.substringNotFound cursor.position]
  | copyUntil output _ => [.stopNotFound cursor.position (min output.length cursor.available)]
  | _ => []

/-- The events of a miss, behind those of the mark. -/
def missEvents (call : Call) (cursor : Cursor) : List Event :=
  Scan.rollbacks (call.failedLayers cursor) cursor.position ++ call.searchEvents cursor

/-- The calls that leave no events at all. -/
def IsSilent : Call → Prop
  | readChar | readByte | copySlice _ _ | readSlice _ | readSliceUntil _ | trimSpaces => True
  | _ => False

variable {cursor : Cursor} {call : Call}

/-! ## Layers that fail -/

theorem failedLayers_of_ok {word : Call} (wordEq : call.word? = some word)
    (succeeds : (word.run cursor).result.isOk = true) :
    call.failedLayers cursor = call.layers.tail := by
  rw [failedLayers, wordEq]
  exact if_pos succeeds

theorem failedLayers_of_error {word : Call} (wordEq : call.word? = some word)
    (fails : (word.run cursor).result.isOk = false) :
    call.failedLayers cursor = call.layers := by
  rw [failedLayers, wordEq]
  exact if_neg (Bool.eq_false_iff.mp fails)

/-- A value that the word has and the type refuses is refused by the layer of the type alone. -/
theorem tail_layers_of_refused {type : IntType} {options : Options} {value : Int}
    (isWord : type.widened.Holds value) (refused : ¬ Decimal.Accepts type options value) :
    (Decimal.layers type).tail = [type.name] := by
  have narrow : type ≠ type.widened := by
    intro same
    rw [← same] at isWord
    exact refused (.inl isWord)
  rw [Decimal.layers, if_neg narrow, List.tail_cons]

variable {type : IntType}

/-- If the value is refused, the word inside has found it. -/
theorem missEvents_readDecimal_of_refused {numeral : Decimal.Numeral} (valid : cursor.Valid)
    (numeralEq : Decimal.Numeral.ofText type.isSigned cursor.remaining = numeral)
    (found : numeral.IsCounted ∧ type.widened.Holds numeral.value)
    (refused : ¬ Decimal.Accepts type cursor.options numeral.value) :
    (readDecimal type).missEvents cursor = Scan.rollbacks [type.name] cursor.position := by
  have word := run_word_readDecimal type valid numeralEq
  rw [if_pos found] at word
  have wordSucceeds : ((readDecimal type.widened).run cursor).result.isOk = true := by
    rw [word]
    rfl
  rw [missEvents, failedLayers_of_ok rfl wordSucceeds, layers,
    tail_layers_of_refused found.2 refused]
  rfl

theorem missEvents_readDecimal_of_missing {numeral : Decimal.Numeral} (valid : cursor.Valid)
    (numeralEq : Decimal.Numeral.ofText type.isSigned cursor.remaining = numeral)
    (missing : ¬ (numeral.IsCounted ∧ type.widened.Holds numeral.value)) :
    (readDecimal type).missEvents cursor =
      Scan.rollbacks (Decimal.layers type) cursor.position := by
  have word := run_word_readDecimal type valid numeralEq
  rw [if_neg missing] at word
  have wordFails : ((readDecimal type.widened).run cursor).result.isOk = false := by
    rw [word]
    rfl
  rw [missEvents, failedLayers_of_error rfl wordFails]
  exact List.append_nil _

theorem missEvents_readHex_of_missing (order : ByteOrder) {numeral : Hexadecimal.Numeral}
    (valid : cursor.Valid)
    (numeralEq : Hexadecimal.Numeral.ofText cursor.options cursor.remaining = numeral)
    (missing : numeral.digits = []) :
    (readHex type order).missEvents cursor =
      Scan.rollbacks ("u32 be" :: Hexadecimal.outerLayers type order) cursor.position := by
  have word := Hexadecimal.run_readHex_word valid numeralEq
  rw [if_pos missing] at word
  have wordFails : ((readHex .u32 .big).run cursor).result.isOk = false := by
    rw [word]
    rfl
  rw [missEvents, failedLayers_of_error rfl wordFails]
  exact List.append_nil _

theorem missEvents_readHex_of_refused (order : ByteOrder) {numeral : Hexadecimal.Numeral}
    (valid : cursor.Valid)
    (numeralEq : Hexadecimal.Numeral.ofText cursor.options cursor.remaining = numeral)
    (found : numeral.digits ≠ []) :
    (readHex type order).missEvents cursor =
      Scan.rollbacks (Hexadecimal.outerLayers type order) cursor.position := by
  have word := Hexadecimal.run_readHex_word valid numeralEq
  rw [if_neg found] at word
  have wordSucceeds : ((readHex .u32 .big).run cursor).result.isOk = true := by
    rw [word]
    rfl
  rw [missEvents, failedLayers_of_ok rfl wordSucceeds]
  exact List.append_nil _

/-- The mark that is left out of a numeral is one that may not be skipped or is not there. -/
theorem markOf_eq_nil_iff {options : Options} (skips : options.hexPrefix = true) (text : Bytes) :
    Hexadecimal.markOf options text = [] ↔ ¬ [0x30, 0x78] <+: text := by
  rw [Hexadecimal.markOf]
  split
  next starts => exact iff_of_false (List.cons_ne_nil _ _) (not_not_intro starts.2)
  next missing => exact iff_of_true rfl fun starts => missing ⟨skips, starts⟩

/-- The reader of the lead tells of the mark that is missing behind the spaces. -/
theorem leadEvents_eq (type : IntType) (order : ByteOrder) (cursor : Cursor) :
    Hexadecimal.leadEvents cursor = (readHex type order).markEvents cursor := by
  let numeral := Hexadecimal.Numeral.ofText cursor.options cursor.remaining
  obtain ⟨unspaced, unspacedEq⟩ :
      ∃ unspaced, Hexadecimal.withoutSpaces cursor.options cursor.remaining = unspaced :=
    ⟨_, rfl⟩
  have behindSpaces : cursor.remaining.drop numeral.spaces.length = unspaced :=
    (Hexadecimal.drop_spacesOf _ _).trans unspacedEq
  have spacesLength : numeral.spaces.length = cursor.remaining.length - unspaced.length := by
    have inside := (Hexadecimal.spacesOf_isPrefix cursor.options cursor.remaining).length_le
    change numeral.spaces.length ≤ cursor.remaining.length at inside
    rw [← behindSpaces, List.length_drop]
    omega
  have markEq : numeral.mark = Hexadecimal.markOf cursor.options unspaced := by
    rw [← behindSpaces]
    rfl
  have unread : cursor.remaining ≠ [] ↔ cursor.isEmpty = false := by
    rw [Cursor.isEmpty_eq_false_iff, ne_eq, Cursor.remaining_eq_nil_iff]
  have sameCondition :
      (cursor.remaining ≠ [] ∧ cursor.options.hexPrefix = true ∧ numeral.mark = []) ↔
        (cursor.options.hexPrefix = true ∧ cursor.isEmpty = false ∧
          ¬ [0x30, 0x78] <+: unspaced) := by
    rw [unread, and_left_comm, markEq]
    exact and_congr_right fun skips => and_congr_right fun _ => markOf_eq_nil_iff skips unspaced
  rw [Hexadecimal.leadEvents, markEvents]
  simp only [unspacedEq]
  exact if_congr sameCondition (by rw [← spacesLength]) rfl

end ByteCursor.Call
