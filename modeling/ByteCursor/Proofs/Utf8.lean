import ByteCursor.Proofs.Search
import ByteCursor.Proofs.Text

/-!
# Well-formed UTF-8

A scalar value is written with one to four octets, the first of which tells their number.  It is
written in the shortest way, and surrogates are not scalar values.

The grammar is stated on octets and numbers alone.  The octets of texts are exactly the ones that
write a sequence of scalar values, and the text tells the only such sequence.
-/

namespace ByteCursor.Utf8

/-- The numbers up to 10FFFF that are no surrogates. -/
def IsScalar (value : Nat) : Prop := value < 0xd800 ∨ 0xdfff < value ∧ value ≤ 0x10ffff

/-- The octets that can only follow the first octet of a scalar value. -/
def IsTail (byte : UInt8) : Prop := 0x80 ≤ byte.toNat ∧ byte.toNat ≤ 0xbf

/-- The octets write the scalar value. -/
inductive WritesScalar : Bytes → Nat → Prop where
  | one {first : UInt8} {value : Nat} (lead : first.toNat < 0x80)
      (value_eq : value = first.toNat) : WritesScalar [first] value
  | two {first second : UInt8} {value : Nat} (lead : 0xc0 ≤ first.toNat ∧ first.toNat < 0xe0)
      (tail : IsTail second)
      (value_eq : value = (first.toNat - 0xc0) * 0x40 + (second.toNat - 0x80))
      (shortest : 0x80 ≤ value) : WritesScalar [first, second] value
  | three {first second third : UInt8} {value : Nat}
      (lead : 0xe0 ≤ first.toNat ∧ first.toNat < 0xf0) (tail : IsTail second ∧ IsTail third)
      (value_eq : value =
        ((first.toNat - 0xe0) * 0x40 + (second.toNat - 0x80)) * 0x40 + (third.toNat - 0x80))
      (shortest : 0x800 ≤ value) (scalar : IsScalar value) :
      WritesScalar [first, second, third] value
  | four {first second third fourth : UInt8} {value : Nat}
      (lead : 0xf0 ≤ first.toNat ∧ first.toNat < 0xf8)
      (tail : IsTail second ∧ IsTail third ∧ IsTail fourth)
      (value_eq : value =
        (((first.toNat - 0xf0) * 0x40 + (second.toNat - 0x80)) * 0x40 +
          (third.toNat - 0x80)) * 0x40 + (fourth.toNat - 0x80))
      (shortest : 0x10000 ≤ value) (scalar : IsScalar value) :
      WritesScalar [first, second, third, fourth] value

/-- The octets write the scalar values one after the other. -/
inductive Writes : Bytes → List Nat → Prop where
  | nil : Writes [] []
  | cons {octets rest : Bytes} {value : Nat} {values : List Nat}
      (first : WritesScalar octets value) (later : Writes rest values) :
      Writes (octets ++ rest) (value :: values)

/-- The octets write some sequence of scalar values. -/
def WellFormed (bytes : Bytes) : Prop := ∃ values, Writes bytes values

/-- The scalar values of the characters of a text. -/
def scalars (text : String) : List Nat := text.toList.map Char.toNat

variable {bytes before rest octets : Bytes} {byte stop : UInt8} {value : Nat} {values : List Nat}
  {text : String} {character : Char}

/-! ## One character -/

theorem isScalar_toNat (character : Char) : IsScalar character.toNat := by
  rcases character.valid with low | ⟨above, below⟩
  · exact .inl low
  · exact .inr ⟨above, Nat.le_of_lt_succ below⟩

theorem toNat_ofNat_of_isScalar (scalar : IsScalar value) : (Char.ofNat value).toNat = value := by
  have isValid : value.isValidChar := by
    rcases scalar with low | ⟨above, below⟩
    · exact .inl low
    · exact .inr ⟨above, Nat.lt_succ_of_le below⟩
  rw [Char.ofNat, dif_pos isValid]
  rfl

theorem utf8EncodeChar_of_two (above : 0x80 ≤ character.toNat) (below : character.toNat < 0x800) :
    ∃ first second, String.utf8EncodeChar character = [first, second] ∧
      first.toNat = character.toNat / 0x40 + 0xc0 ∧
      second.toNat = character.toNat % 0x40 + 0x80 := by
  have notOne : ¬ character.val.toNat ≤ 0x7f := Nat.not_le.mpr above
  have two : character.val.toNat ≤ 0x7ff := Nat.le_of_lt_succ below
  refine ⟨_, _, (if_neg notOne).trans (if_pos two), ?_, ?_⟩ <;>
    rw [UInt8.toNat_ofNat', Char.toNat_val] <;> omega

theorem utf8EncodeChar_of_three (above : 0x800 ≤ character.toNat)
    (below : character.toNat < 0x10000) :
    ∃ first second third, String.utf8EncodeChar character = [first, second, third] ∧
      first.toNat = character.toNat / 0x1000 + 0xe0 ∧
      second.toNat = character.toNat / 0x40 % 0x40 + 0x80 ∧
      third.toNat = character.toNat % 0x40 + 0x80 := by
  have notOne : ¬ character.val.toNat ≤ 0x7f := by
    rw [Char.toNat_val]
    omega
  have notTwo : ¬ character.val.toNat ≤ 0x7ff := Nat.not_le.mpr above
  have three : character.val.toNat ≤ 0xffff := Nat.le_of_lt_succ below
  refine ⟨_, _, _, (if_neg notOne).trans ((if_neg notTwo).trans (if_pos three)), ?_, ?_, ?_⟩ <;>
    rw [UInt8.toNat_ofNat', Char.toNat_val] <;> omega

theorem utf8EncodeChar_of_four (above : 0x10000 ≤ character.toNat) :
    ∃ first second third fourth,
      String.utf8EncodeChar character = [first, second, third, fourth] ∧
        first.toNat = character.toNat / 0x40000 + 0xf0 ∧
        second.toNat = character.toNat / 0x1000 % 0x40 + 0x80 ∧
        third.toNat = character.toNat / 0x40 % 0x40 + 0x80 ∧
        fourth.toNat = character.toNat % 0x40 + 0x80 := by
  have notOne : ¬ character.val.toNat ≤ 0x7f := by
    rw [Char.toNat_val]
    omega
  have notTwo : ¬ character.val.toNat ≤ 0x7ff := by
    rw [Char.toNat_val]
    omega
  have notThree : ¬ character.val.toNat ≤ 0xffff := Nat.not_le.mpr above
  have scalar := isScalar_toNat character
  simp only [IsScalar] at scalar
  refine ⟨_, _, _, _, (if_neg notOne).trans ((if_neg notTwo).trans (if_neg notThree)),
    ?_, ?_, ?_, ?_⟩ <;> rw [UInt8.toNat_ofNat', Char.toNat_val] <;> omega

/-- Every character is written for its number. -/
theorem writesScalar_utf8EncodeChar (character : Char) :
    WritesScalar (String.utf8EncodeChar character) character.toNat := by
  have scalar := isScalar_toNat character
  rcases Nat.lt_or_ge character.toNat 0x80 with one | notOne
  · have lead : (Bytes.ofAscii character).toNat = character.toNat := by
      rw [Bytes.ofAscii, UInt8.toNat_ofNat', Nat.mod_eq_of_lt (by omega)]
    rw [Bytes.utf8EncodeChar_of_ascii one]
    exact .one (by omega) lead.symm
  rcases Nat.lt_or_ge character.toNat 0x800 with two | notTwo
  · obtain ⟨first, second, shown, lead, tail⟩ := utf8EncodeChar_of_two notOne two
    rw [shown]
    exact .two (by omega) (by constructor <;> omega) (by omega) notOne
  rcases Nat.lt_or_ge character.toNat 0x10000 with three | notThree
  · obtain ⟨first, second, third, shown, lead, tails⟩ := utf8EncodeChar_of_three notTwo three
    rw [shown]
    exact .three (by omega) (by simp only [IsTail]; omega) (by omega) notTwo scalar
  · obtain ⟨first, second, third, fourth, shown, lead, tails⟩ := utf8EncodeChar_of_four notThree
    have below : character.toNat ≤ 0x10ffff := by
      simp only [IsScalar] at scalar
      omega
    rw [shown]
    exact .four (by omega) (by simp only [IsTail]; omega) (by omega) notThree scalar

theorem WritesScalar.isScalar (writes : WritesScalar octets value) : IsScalar value := by
  cases writes with
  | one lead value_eq =>
      left
      omega
  | two lead tail value_eq shortest =>
      left
      have low := tail.2
      omega
  | three lead tail value_eq shortest scalar => exact scalar
  | four lead tail value_eq shortest scalar => exact scalar

/-- What writes a scalar value is what its character is written as. -/
theorem WritesScalar.exists_char (writes : WritesScalar octets value) :
    ∃ character : Char, octets = String.utf8EncodeChar character ∧ value = character.toNat := by
  obtain ⟨character, rfl⟩ : ∃ character : Char, value = character.toNat :=
    ⟨Char.ofNat value, (toNat_ofNat_of_isScalar writes.isScalar).symm⟩
  refine ⟨character, ?_, rfl⟩
  cases writes with
  | one lead value_eq =>
      rw [Bytes.utf8EncodeChar_of_ascii (by omega), Bytes.ofAscii, value_eq, UInt8.ofNat_toNat]
  | two lead tail value_eq shortest =>
      simp only [IsTail] at tail
      obtain ⟨first, second, shown, bits⟩ := utf8EncodeChar_of_two shortest (by omega)
      rw [shown]
      simp only [List.cons.injEq, and_true, ← UInt8.toNat_inj]
      omega
  | three lead tail value_eq shortest scalar =>
      simp only [IsTail] at tail
      obtain ⟨first, second, third, shown, bits⟩ := utf8EncodeChar_of_three shortest (by omega)
      rw [shown]
      simp only [List.cons.injEq, and_true, ← UInt8.toNat_inj]
      omega
  | four lead tail value_eq shortest scalar =>
      simp only [IsTail] at tail
      obtain ⟨first, second, third, fourth, shown, bits⟩ := utf8EncodeChar_of_four shortest
      rw [shown]
      simp only [List.cons.injEq, and_true, ← UInt8.toNat_inj]
      omega

/-- The octets of a character start with no tail octet. -/
theorem WritesScalar.not_isTail (writes : WritesScalar (byte :: rest) value) :
    ¬ IsTail byte := by
  rw [IsTail]
  cases writes <;> omega

/-- Where the octets of a character end is told by the octets themselves. -/
theorem utf8EncodeChar_append_inj {first second : Char}
    (same : String.utf8EncodeChar first ++ octets = String.utf8EncodeChar second ++ rest) :
    first = second ∧ octets = rest := by
  have decoded := congrArg (fun bytes => bytes.toByteArray.utf8DecodeChar? 0) same
  simp only [List.toByteArray_append, ByteArray.utf8DecodeChar?_utf8EncodeChar_append,
    Option.some.injEq] at decoded
  subst decoded
  exact ⟨rfl, List.append_cancel_left same⟩

/-! ## Texts -/

theorem writes_ofString (text : String) : Writes (Bytes.ofString text) (scalars text) := by
  rw [Bytes.ofString_eq_flatMap, scalars]
  induction text.toList with
  | nil => exact .nil
  | cons character rest ih => exact .cons (writesScalar_utf8EncodeChar character) ih

theorem Writes.exists_text (writes : Writes bytes values) :
    ∃ text, bytes = Bytes.ofString text ∧ values = scalars text := by
  induction writes with
  | nil => exact ⟨"", by simp [Bytes.ofString_eq_flatMap], rfl⟩
  | cons first later ih =>
      obtain ⟨character, rfl, rfl⟩ := first.exists_char
      obtain ⟨text, rfl, rfl⟩ := ih
      refine ⟨String.ofList (character :: text.toList), ?_, ?_⟩
      · simp only [Bytes.ofString_eq_flatMap, String.toList_ofList, List.flatMap_cons]
      · simp only [scalars, String.toList_ofList, List.map_cons]

/-- The octets of a text write its scalar values and no other ones. -/
theorem writes_ofString_iff : Writes (Bytes.ofString text) values ↔ values = scalars text := by
  constructor
  · intro writes
    obtain ⟨other, octets, rfl⟩ := writes.exists_text
    rw [Bytes.ofString_injective octets]
  · rintro rfl
    exact writes_ofString text

theorem wellFormed_iff : WellFormed bytes ↔ ∃ text, Bytes.ofString text = bytes := by
  constructor
  · rintro ⟨values, writes⟩
    obtain ⟨text, rfl, -⟩ := writes.exists_text
    exact ⟨text, rfl⟩
  · rintro ⟨text, rfl⟩
    exact ⟨_, writes_ofString text⟩

theorem wellFormed_ofString (text : String) : WellFormed (Bytes.ofString text) :=
  ⟨_, writes_ofString text⟩

/-! ## Parts of texts -/

theorem exists_characters_behind {characters others : List Char}
    (split : characters.flatMap String.utf8EncodeChar =
      others.flatMap String.utf8EncodeChar ++ rest) :
    ∃ back, characters = others ++ back ∧ rest = back.flatMap String.utf8EncodeChar := by
  induction others generalizing characters with
  | nil => exact ⟨characters, rfl, split.symm⟩
  | cons other others ih =>
      rw [List.flatMap_cons, List.append_assoc] at split
      cases characters with
      | nil =>
          rw [List.flatMap_nil, List.nil_eq_append_iff] at split
          exact absurd split.1 String.utf8EncodeChar_ne_nil
      | cons character characters =>
          obtain ⟨rfl, later⟩ := utf8EncodeChar_append_inj split
          obtain ⟨back, rfl, restEq⟩ := ih later
          exact ⟨back, rfl, restEq⟩

/-- What follows a well-formed part of well-formed octets is well-formed. -/
theorem WellFormed.behind (whole : WellFormed (before ++ rest)) (front : WellFormed before) :
    WellFormed rest := by
  rw [wellFormed_iff] at whole front ⊢
  obtain ⟨text, split⟩ := whole
  obtain ⟨front, rfl⟩ := front
  simp only [Bytes.ofString_eq_flatMap] at split
  obtain ⟨back, -, rfl⟩ := exists_characters_behind split
  exact ⟨String.ofList back, by rw [Bytes.ofString_eq_flatMap, String.toList_ofList]⟩

/-- Well-formed octets start with no tail octet. -/
theorem not_isTail_of_wellFormed (wellFormed : WellFormed (byte :: rest)) : ¬ IsTail byte := by
  obtain ⟨values, writes⟩ := wellFormed
  generalize same : byte :: rest = bytes at writes
  cases writes with
  | nil => cases same
  | @cons octets _ _ _ first later =>
      cases octets with
      | nil => cases first
      | cons _ _ =>
          cases same
          exact first.not_isTail

/-- Before a tail octet well-formed octets are cut within a character. -/
theorem not_wellFormed_of_isTail (whole : WellFormed (before ++ stop :: rest))
    (tail : IsTail stop) : ¬ WellFormed before := by
  intro front
  exact not_isTail_of_wellFormed (whole.behind front) tail

/-- An octet below 128 cuts a text between two of its characters. -/
theorem exists_texts_of_ascii (ascii : stop.toNat < 0x80) (absent : stop ∉ before)
    (split : Bytes.ofString text = before ++ stop :: rest) :
    ∃ front back, before = Bytes.ofString front ∧ rest = Bytes.ofString back ∧
      scalars text = scalars front ++ stop.toNat :: scalars back := by
  obtain ⟨character, number⟩ : ∃ character : Char, character.toNat = stop.toNat :=
    ⟨Char.ofNat stop.toNat, toNat_ofNat_of_isScalar (.inl (by omega))⟩
  have isAscii : character.toNat < 128 := number ▸ ascii
  have stopEq : Bytes.ofAscii character = stop := by
    rw [Bytes.ofAscii, number, UInt8.ofNat_toNat]
  have member : character ∈ text.toList := by
    rw [← Bytes.ofAscii_mem_ofString_iff isAscii, stopEq, split]
    exact List.mem_append_cons_self
  obtain ⟨front, back, characters, frontAbsent⟩ := List.eq_append_cons_of_mem member
  have octets :
      Bytes.ofString (String.ofList front) ++ stop :: Bytes.ofString (String.ofList back) =
        before ++ stop :: rest := by
    rw [← split]
    simp only [Bytes.ofString_eq_flatMap, String.toList_ofList, characters, List.flatMap_append,
      List.flatMap_cons, Bytes.utf8EncodeChar_of_ascii isAscii, stopEq, List.singleton_append]
  have frontOctets : stop ∉ Bytes.ofString (String.ofList front) := by
    rw [← stopEq, Bytes.ofAscii_mem_ofString_iff isAscii, String.toList_ofList]
    exact frontAbsent
  obtain ⟨rfl, rfl⟩ := Bytes.append_cons_inj_of_absent frontOctets absent octets
  refine ⟨_, _, rfl, rfl, ?_⟩
  simp only [scalars, String.toList_ofList, characters, List.map_append, List.map_cons, number]

end ByteCursor.Utf8
