import ByteCursor.Bytes

/-!
# Octets of texts

Writing a text in UTF-8 and reading the octets back are inverse to each other.  Characters below
128 are written as themselves, and no other character has octets below 128.
-/

namespace ByteCursor.Bytes

theorem toList_loop (array : ByteArray) (index : Nat) (reversed : Bytes) :
    ByteArray.toList.loop array index reversed =
      reversed.reverse ++ array.data.toList.drop index := by
  induction index, reversed using ByteArray.toList.loop.induct array with
  | case1 index reversed inside ih =>
      have insideList : index < array.data.toList.length := by
        rw [Array.length_toList]
        exact inside
      have next : array.get! index = array.data.toList[index] := by
        rw [Array.getElem_toList]
        exact getElem!_pos array.data index inside
      rw [ByteArray.toList.loop, if_pos inside, ih, List.reverse_cons, List.append_assoc,
        List.drop_eq_getElem_cons insideList, next]
      rfl
  | case2 index reversed outside =>
      have behind : array.data.toList.length ≤ index := by
        rw [Array.length_toList]
        exact Nat.not_lt.mp outside
      rw [ByteArray.toList.loop, if_neg outside, List.drop_of_length_le behind, List.append_nil]

theorem toByteArray_toList (array : ByteArray) : array.toList.toByteArray = array := by
  rw [ByteArray.toList, toList_loop, List.reverse_nil, List.nil_append, List.drop_zero]
  apply ByteArray.ext
  rw [List.data_toByteArray]

theorem toList_toByteArray (bytes : Bytes) : bytes.toByteArray.toList = bytes := by
  rw [ByteArray.toList, toList_loop, List.data_toByteArray]
  rfl

/-- The octets of a text that was read are the ones it was read from. -/
theorem ofString_of_toString? {bytes : Bytes} {text : String}
    (read : toString? bytes = some text) : ofString text = bytes := by
  rw [toString?, String.fromUTF8?] at read
  split at read
  next isValid =>
      cases read
      exact toList_toByteArray bytes
  next => cases read

/-- Every text is read from its octets. -/
theorem toString?_ofString (text : String) : toString? (ofString text) = some text := by
  rw [toString?, ofString, toByteArray_toList, String.toUTF8_eq_toByteArray, String.fromUTF8?,
    dif_pos text.isValidUTF8]
  rfl

theorem ofString_injective : Function.Injective ofString := by
  intro first second same
  exact Option.some.inj (by rw [← toString?_ofString, same, toString?_ofString])

/-! ## Characters in octets -/

theorem ofString_eq_flatMap (text : String) :
    ofString text = text.toList.flatMap String.utf8EncodeChar := by
  rw [ofString, String.toUTF8_eq_toByteArray, ← String.utf8Encode_toList, List.utf8Encode,
    toList_toByteArray]

theorem ofString_append (first second : String) :
    ofString (first ++ second) = ofString first ++ ofString second := by
  simp [ofString_eq_flatMap]

/-- The octet of a character below 128. -/
def ofAscii (character : Char) : UInt8 := UInt8.ofNat character.toNat

theorem utf8EncodeChar_of_ascii {character : Char} (isAscii : character.toNat < 128) :
    String.utf8EncodeChar character = [ofAscii character] :=
  if_pos (Nat.le_of_lt_succ isAscii)

/-- Characters from 128 on are written with octets from 128 on. -/
theorem le_of_mem_utf8EncodeChar {character : Char} (notAscii : 128 ≤ character.toNat)
    {byte : UInt8} (member : byte ∈ String.utf8EncodeChar character) : 128 ≤ byte.toNat := by
  have large : ¬ character.val.toNat ≤ 127 := Nat.not_le.mpr notAscii
  rw [String.utf8EncodeChar] at member
  simp only [large, if_false] at member
  have marked (lead : Nat) (above : 128 ≤ lead) (below : lead < 256) :
      128 ≤ (UInt8.ofNat lead).toNat := by
    rw [UInt8.toNat_ofNat', Nat.mod_eq_of_lt below]
    exact above
  split at member
  next =>
    simp only [List.mem_cons, List.not_mem_nil, or_false] at member
    rcases member with rfl | rfl <;> exact marked _ (by omega) (by omega)
  next =>
    split at member
    next =>
      simp only [List.mem_cons, List.not_mem_nil, or_false] at member
      rcases member with rfl | rfl | rfl <;> exact marked _ (by omega) (by omega)
    next =>
      simp only [List.mem_cons, List.not_mem_nil, or_false] at member
      rcases member with rfl | rfl | rfl | rfl <;> exact marked _ (by omega) (by omega)

theorem ofAscii_mem_utf8EncodeChar_iff {stop character : Char} (isAscii : stop.toNat < 128) :
    ofAscii stop ∈ String.utf8EncodeChar character ↔ character = stop := by
  have stopByte : (ofAscii stop).toNat = stop.toNat := by
    rw [ofAscii, UInt8.toNat_ofNat', Nat.mod_eq_of_lt (by omega)]
  rcases Nat.lt_or_ge character.toNat 128 with small | large
  · have byte : (ofAscii character).toNat = character.toNat := by
      rw [ofAscii, UInt8.toNat_ofNat', Nat.mod_eq_of_lt (by omega)]
    rw [utf8EncodeChar_of_ascii small, List.mem_singleton]
    constructor
    · intro same
      rw [← Char.toNat_inj, ← byte, ← same, stopByte]
    · rintro rfl
      rfl
  · constructor
    · intro member
      have high := le_of_mem_utf8EncodeChar large member
      omega
    · rintro rfl
      omega

/-- An octet below 128 stands in a text only where the text has that character. -/
theorem ofAscii_mem_ofString_iff {stop : Char} (isAscii : stop.toNat < 128) {text : String} :
    ofAscii stop ∈ ofString text ↔ stop ∈ text.toList := by
  rw [ofString_eq_flatMap, List.mem_flatMap]
  simp only [ofAscii_mem_utf8EncodeChar_iff isAscii, exists_eq_right]

theorem ofString_ofList_of_ascii {characters : List Char}
    (areAscii : ∀ character ∈ characters, character.toNat < 128) :
    ofString (String.ofList characters) = characters.map ofAscii := by
  rw [ofString_eq_flatMap, String.toList_ofList]
  induction characters with
  | nil => rfl
  | cons character rest ih =>
      rw [List.flatMap_cons, utf8EncodeChar_of_ascii (areAscii character List.mem_cons_self),
        ih fun other member => areAscii other (List.mem_cons_of_mem _ member)]
      rfl

end ByteCursor.Bytes
