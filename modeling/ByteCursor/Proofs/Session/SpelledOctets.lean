import ByteCursor.Proofs.BinaryFormat
import ByteCursor.Proofs.Session.Script

/-!
# Octets that are spelled in hexadecimal

Octets can stand in a text as they are, and they can be spelled with two digits each.  The integer
that a raw request decodes from the octets is the one that a hexadecimal read of the same width,
sign and byte order makes of the digits.
-/

namespace ByteCursor

/-- The step answers with the integer and passes over so many octets. -/
structure Session.Delivers (session : Session) (step : Step) (value : Int) (count : Nat) :
    Prop where
  result : (session.answer step).result = .ok (.integer value)
  cursor : (session.after step).cursor = session.cursor.pass count

theorem Step.Reads.delivers {step : Step} {token rest : Bytes} {value : Int} {session : Session}
    (reads : step.Reads session.cursor.options token rest (.integer value))
    (valid : session.Valid) (unread : session.cursor.remaining = token ++ rest) :
    session.Delivers step value token.length := by
  obtain ⟨result, cursor⟩ := reads session valid rfl unread
  exact ⟨result, cursor⟩

namespace Hexadecimal

/-- The text spells each of the octets with two digits, whose letters are small or capital. -/
inductive Spells : (text octets : Bytes) → Prop where
  | nil : Spells [] []
  | cons {high low octet : UInt8} {text octets : Bytes} (high_digit : IsDigit high)
      (low_digit : IsDigit low)
      (octet_eq : octet.toNat = 16 * digitNumber high + digitNumber low)
      (later : Spells text octets) : Spells (high :: low :: text) (octet :: octets)

/-- The numeral of digits without a lead. -/
def Numeral.plain (digits : Bytes) : Numeral where
  spaces := []
  mark := []
  digits := digits

variable {text octets rest : Bytes} {type : IntType} {options : Options}

namespace Spells

theorem length_eq (spells : Spells text octets) : text.length = 2 * octets.length := by
  induction spells with
  | nil => rfl
  | cons _ _ _ _ ih =>
      rw [List.length_cons, List.length_cons, List.length_cons, ih]
      omega

theorem isDigit (spells : Spells text octets) : ∀ digit ∈ text, IsDigit digit := by
  induction spells with
  | nil => exact fun _ impossible => nomatch impossible
  | cons high_digit low_digit _ _ ih =>
      rw [List.forall_mem_cons, List.forall_mem_cons]
      exact ⟨high_digit, low_digit, ih⟩

/-- The digits write the number of the octets, of which the first is the highest. -/
theorem number_eq (spells : Spells text octets) :
    number text = ByteOrder.value octets.reverse := by
  induction spells with
  | nil => rfl
  | @cons high low octet text octets _ _ octet_eq later ih =>
      have first : number [high, low] = octet.toNat := by
        rw [octet_eq, ← List.singleton_append, number_concat [high] low]
        rfl
      have alone : ByteOrder.value [octet] = octet.toNat := rfl
      have places : 16 ^ text.length = ByteOrder.capacity octets.length := by
        rw [ByteOrder.capacity_eq_pow, later.length_eq, pow_mul]
        rfl
      calc number ([high, low] ++ text)
        _ = number text + 16 ^ text.length * number [high, low] := number_append _ _
        _ = ByteOrder.value octets.reverse +
              ByteOrder.capacity octets.reverse.length * ByteOrder.value [octet] := by
            rw [ih, first, alone, places, List.length_reverse]
        _ = ByteOrder.value (octet :: octets).reverse := by
            rw [List.reverse_cons, ByteOrder.value_append]

/-- The digits are a numeral without a lead.  Less than eight digits end where no digit follows. -/
theorem splitsOff (spells : Spells text octets) (nonempty : octets ≠ [])
    (fits : octets.length ≤ 4)
    (stops : octets.length < 4 → ∀ byte, rest.head? = some byte → ¬ IsDigit byte) :
    (Numeral.plain text).SplitsOff options (text ++ rest) rest := by
  have length : (Numeral.plain text).digits.length = 2 * octets.length := spells.length_eq
  have positive := List.length_pos_iff.mpr nonempty
  constructor
  case text_eq => rfl
  case spaces_mem => exact fun _ impossible => nomatch impossible
  case spaces_allowed => exact fun _ => rfl
  case mark_mem => exact .inl rfl
  case mark_skipped =>
    intro _ _
    have two : 2 ≤ (Numeral.plain text).digits.length := by omega
    exact not_mark_isPrefix_of_two_le two spells.isDigit
  case digits_ne_nil =>
    apply List.ne_nil_of_length_pos
    omega
  case digits_mem => exact spells.isDigit
  case digits_length =>
    rw [length, maxDigits]
    omega
  case digits_longest =>
    intro short
    rw [length, maxDigits] at short
    exact stops (by omega)

end Spells

/-- A read in either order finds what the octets are in this order. -/
theorem inOrder_decode (order : ByteOrder) (length : octets.length = type.octets) :
    Scan.inOrder order type (ByteOrder.big.decode type.isSigned octets) =
      order.decode type.isSigned octets := by
  cases order with
  | big => rfl
  | little => rw [Scan.inOrder, IntType.reverseOctets, ← length, ByteOrder.encode_decode]

theorem Spells.reads (spells : Spells text octets) (order : ByteOrder)
    (length : octets.length = type.octets)
    (stops : octets.length < 4 → ∀ byte, rest.head? = some byte → ¬ IsDigit byte) :
    (Step.call (.readHex type order)).Reads options text rest
      (.integer (order.decode type.isSigned octets)) := by
  have nonempty : octets ≠ [] := List.ne_nil_of_length_pos (length ▸ type.octets_pos)
  have fits : octets.length ≤ 4 := length ▸ type.octets_le_four
  have numberEq : number (Numeral.plain text).digits =
      ByteOrder.value (ByteOrder.big.arrange octets) := spells.number_eq
  have below := ByteOrder.value_lt (ByteOrder.big.arrange octets)
  rw [ByteOrder.length_arrange, length] at below
  have accepted : Accepts type options (number (Numeral.plain text).digits) := by
    rw [numberEq]
    exact .inl below
  have reads := Step.reads_readHex order (spells.splitsOff nonempty fits stops) accepted
  rw [numberEq, IntType.truncate_value .big length, inOrder_decode order length] at reads
  exact reads

/-- Octets and the digits that spell them are read as the same integer, under all options.  The
digits may be followed by anything if they are eight, and else by anything but a digit. -/
theorem spelled_octets_agree {session raw : Session} (reachable : session.Reachable)
    (rawReachable : raw.Reachable) {order : ByteOrder} {format : BinaryFormat}
    (isOf : format.IsOf type order) (spells : Spells text octets)
    (length : octets.length = type.octets) {more : Bytes}
    (unread : session.cursor.remaining = text ++ rest)
    (stops : octets.length < 4 → ∀ byte, rest.head? = some byte → ¬ IsDigit byte)
    (rawUnread : raw.cursor.remaining = octets ++ more) :
    ∃ value, session.Delivers (.call (.readHex type order)) value (2 * octets.length) ∧
      raw.Delivers (.raw (.integer format)) value octets.length := by
  refine ⟨order.decode type.isSigned octets, ?_, ?_⟩
  · rw [← spells.length_eq]
    exact (spells.reads order length stops).delivers reachable.valid unread
  · have sameOrder : octets.length ≠ 1 → format.order = order := by
      rw [length]
      exact isOf.order
    have reads : (Step.raw (.integer format)).Reads raw.cursor.options octets more _ :=
      Step.reads_takeInteger (length.trans isOf.width.symm)
    rw [BinaryFormat.decode_eq_of_order sameOrder, isOf.isSigned] at reads
    exact reads.delivers rawReachable.valid rawUnread

/-- The text `8aFe` before a comma and the octets that it spells are `-374` in the little order. -/
theorem spelled_octets_agree_negative :
    let session : Session :=
      { cursor :=
          { bytes := [0x38, 0x61, 0x46, 0x65, 0x2c], position := 0,
            options := { narrowing := .permissive } } }
    let raw : Session := { cursor := { bytes := [0x8a, 0xfe], position := 0, options := {} } }
    session.Reachable ∧ raw.Reachable ∧
      session.Delivers (.call (.readHex .i16 .little)) (-374) 4 ∧
      raw.Delivers (.raw (.integer ⟨.two, true, .little⟩)) (-374) 2 := by
  intro session raw
  have reachable : session.Reachable := .ofText (by decide) (by decide) _
  have rawReachable : raw.Reachable := .ofText (by decide) (by decide) {}
  have isOf : BinaryFormat.IsOf ⟨.two, true, .little⟩ .i16 .little := ⟨rfl, rfl, fun _ => rfl⟩
  have spells : Spells [0x38, 0x61, 0x46, 0x65] [0x8a, 0xfe] :=
    .cons (by decide) (by decide) (by decide) (.cons (by decide) (by decide) (by decide) .nil)
  have stops : [0x8a, 0xfe].length < 4 → ∀ byte, [0x2c].head? = some byte → ¬ IsDigit byte := by
    rintro - byte ⟨⟩
    decide
  have rawUnread : raw.cursor.remaining = [0x8a, 0xfe] ++ [] := rfl
  obtain ⟨value, delivers, rawDelivers⟩ :=
    spelled_octets_agree reachable rawReachable isOf spells rfl rfl stops rawUnread
  have valueEq : value = -374 := by
    have result : (raw.answer (.raw (.integer ⟨.two, true, .little⟩))).result =
      .ok (.integer (-374)) := by decide
    rw [rawDelivers.result] at result
    cases result
    rfl
  subst valueEq
  exact ⟨reachable, rawReachable, delivers, rawDelivers⟩

end Hexadecimal

end ByteCursor
