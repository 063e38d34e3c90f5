import ByteCursor.Proofs.Hexadecimal.Written
import ByteCursor.Proofs.Session.Script

/-!
# Hexadecimal words without separators

Words that are written with eight digits can stand behind each other without anything between them.
A read takes eight digits and no more, so neither the digits nor the lead of the next word are taken
for a part of it.  The reads with a sign and in the little byte order find the same digits.
-/

namespace ByteCursor

/-- Repeating the step once for each integer answers with all of them and leaves the rest. -/
structure Session.Yields (session : Session) (step : Step) (integers : List Int) (rest : Bytes) :
    Prop where
  results : (session.run (List.replicate integers.length step)).1.map Answer.result =
    integers.map fun integer => .ok (.integer integer)
  left : (session.run (List.replicate integers.length step)).2.cursor.remaining = rest
  ends : rest = [] →
    (session.run (List.replicate integers.length step)).2.cursor.isEmpty = true

namespace Hexadecimal

/-- The word with its four octets in the opposite order. -/
def swapOctets (word : UInt32) : UInt32 :=
  .ofNat (2 ^ 24 * (word.toNat % 2 ^ 8) + 2 ^ 16 * (word.toNat / 2 ^ 8 % 2 ^ 8) +
    2 ^ 8 * (word.toNat / 2 ^ 16 % 2 ^ 8) + word.toNat / 2 ^ 24)

/-- The word that a read in the byte order makes of the digits of a word. -/
def ordered : ByteOrder → UInt32 → UInt32
  | .big, word => word
  | .little, word => swapOctets word

variable {options : Options} {rest : Bytes} {type : IntType}

/-! ## The octets of a word -/

/-- The number of the octets of a word, when the first of them is taken for the lowest. -/
theorem value_encode_word (word : UInt32) :
    ByteOrder.value (ByteOrder.big.encode 4 word.toNat) =
      2 ^ 24 * (word.toNat % 2 ^ 8) + 2 ^ 16 * (word.toNat / 2 ^ 8 % 2 ^ 8) +
        2 ^ 8 * (word.toNat / 2 ^ 16 % 2 ^ 8) + word.toNat / 2 ^ 24 := by
  have below := word.toNat_lt
  have kept : ((word.toNat : Int) % ByteOrder.capacity 4).toNat = word.toNat := by
    rw [Int.toNat_emod (Int.natCast_nonneg _) (Int.natCast_nonneg _)]
    exact Nat.mod_eq_of_lt below
  -- With the four octets written out, the rest is arithmetic.
  simp only [ByteOrder.encode, ByteOrder.arrange, kept, ByteOrder.octets, List.reverse_cons,
    List.reverse_nil, List.nil_append, List.cons_append, ByteOrder.value, UInt8.toNat_ofNat',
    Nat.div_div_eq_div_mul, Nat.reduceMul, Nat.reducePow, Nat.mod_mod] at below ⊢
  omega

theorem toNat_swapOctets (word : UInt32) :
    (swapOctets word).toNat = ByteOrder.value (ByteOrder.big.encode 4 word.toNat) := by
  have below := ByteOrder.value_lt (ByteOrder.big.encode 4 word.toNat)
  rw [ByteOrder.length_encode] at below
  rw [swapOctets, ← value_encode_word, UInt32.toNat_ofNat']
  exact Nat.mod_eq_of_lt below

/-- The octets of a value are those of any integer with its low bits. -/
theorem encode_truncate (order : ByteOrder) (type : IntType) (number : Int) :
    order.encode type.octets (type.truncate number) = order.encode type.octets number := by
  have same : type.truncate number % ByteOrder.capacity type.octets =
      number % ByteOrder.capacity type.octets := by
    rw [IntType.truncate, IntType.size]
    split
    next => exact Int.bmod_emod
    next => exact Int.emod_emod_of_dvd number (Int.dvd_refl _)
  rw [ByteOrder.encode, ByteOrder.encode, same]

/-- A read of 32 bits makes the same of the word in either byte order. -/
theorem inOrder_truncate (wide : type.octets = 4) (order : ByteOrder) (word : UInt32) :
    Scan.inOrder order type (type.truncate word.toNat) =
      type.truncate (ordered order word).toNat := by
  cases order with
  | big => rfl
  | little =>
      rw [Scan.inOrder, IntType.reverseOctets_eq_truncate, encode_truncate, wide, ordered,
        toNat_swapOctets]

theorem truncate_i32 (word : UInt32) : IntType.i32.truncate word.toNat = word.toInt32.toInt := by
  have pattern : BitVec.ofInt 32 word.toNat = word.toBitVec := by
    apply BitVec.eq_of_toNat_eq
    rw [BitVec.ofInt_natCast, BitVec.toNat_ofNat]
    exact Nat.mod_eq_of_lt word.toNat_lt
  rw [IntType.truncate_eq_toInt rfl]
  exact congrArg BitVec.toInt pattern

/-! ## Reading words -/

theorem WrittenWord.reads (written : WrittenWord options) (wide : type.octets = 4)
    (order : ByteOrder) :
    (Step.call (.readHex type order)).Reads options written.octets rest
      (.integer (type.truncate (ordered order written.word).toNat)) := by
  have accepted : Accepts type options (number written.numeral.digits) := by
    rw [written.number_digits]
    left
    rw [IntType.size_eq_pow, wide]
    exact written.word.toNat_lt
  have reads := Step.reads_readHex order (written.splitsOff rest) accepted
  rw [written.number_digits, inOrder_truncate wide] at reads
  exact reads

/-- Repeating a read of 32 bits reads all words. -/
theorem yields_words {session : Session} {integer : UInt32 → Int} (valid : session.Valid)
    (wide : type.octets = 4) (reading : ∀ word, type.truncate word.toNat = integer word)
    (order : ByteOrder) (words : List (WrittenWord session.cursor.options))
    (unread : session.cursor.remaining = words.flatMap WrittenWord.octets ++ rest) :
    session.Yields (.call (.readHex type order))
      (words.map fun written => integer (ordered order written.word)) rest := by
  simp only [← reading]
  obtain ⟨results, left⟩ := Session.run_replicate valid
    (fun (written : WrittenWord _) _ _ => written.reads wide order) unread
  constructor
  case results =>
    rw [List.length_map, results, List.map_map]
    rfl
  case left =>
    rw [List.length_map]
    exact left
  case ends =>
    rintro rfl
    rw [List.length_map, Cursor.isEmpty_iff, ← Cursor.remaining_eq_nil_iff]
    exact left

/-- Words that are written behind each other are read back, whatever follows them.  The reads in
the little byte order answer with swapped words, and the reads with a sign answer with the two's
complement readings of these. -/
theorem words_read_back {session : Session} (reachable : session.Reachable)
    (words : List (WrittenWord session.cursor.options)) (rest : Bytes)
    (unread : session.cursor.remaining = words.flatMap WrittenWord.octets ++ rest) :
    session.Yields (.call (.readHex .u32 .big)) (words.map fun written => written.word.toNat)
        rest ∧
      session.Yields (.call (.readHex .u32 .little))
        (words.map fun written => (swapOctets written.word).toNat) rest ∧
      session.Yields (.call (.readHex .i32 .big))
        (words.map fun written => written.word.toInt32.toInt) rest ∧
      session.Yields (.call (.readHex .i32 .little))
        (words.map fun written => (swapOctets written.word).toInt32.toInt) rest := by
  have valid := reachable.valid
  have unsigned (word : UInt32) : IntType.u32.truncate word.toNat = word.toNat :=
    (Scan.accepts_u32 session.cursor.options word).2
  exact ⟨yields_words valid rfl unsigned .big words unread,
    yields_words valid rfl unsigned .little words unread,
    yields_words valid rfl truncate_i32 .big words unread,
    yields_words valid rfl truncate_i32 .little words unread⟩

/-- The word `0x00C0FFEE` with a mark before it. -/
def WrittenWord.marked : WrittenWord {} where
  word := 0x00c0ffee
  isCapital := fun _ => true
  spaces := 0
  isMarked := true
  spaces_allowed := fun _ => rfl
  mark_allowed := fun skips => by cases skips

/-- The word `800000fF` behind a space. -/
def WrittenWord.spaced : WrittenWord {} where
  word := 0x800000ff
  isCapital := fun place => place == 7
  spaces := 1
  isMarked := false
  spaces_allowed := fun trims => by cases trims
  mark_allowed := fun _ => rfl

/-- The text `0x00C0FFEE 800000fF0` are two words and a digit that is left. -/
theorem words_read_back_pair :
    let text : Bytes :=
      [0x30, 0x78, 0x30, 0x30, 0x43, 0x30, 0x46, 0x46, 0x45, 0x45, 0x20, 0x38, 0x30, 0x30, 0x30,
        0x30, 0x30, 0x66, 0x46, 0x30]
    let session : Session := { cursor := { bytes := text, position := 0, options := {} } }
    session.Reachable ∧
      session.Yields (.call (.readHex .u32 .big)) [0x00c0ffee, 0x800000ff] [0x30] ∧
      session.Yields (.call (.readHex .u32 .little)) [0xeeffc000, 0xff000080] [0x30] ∧
      session.Yields (.call (.readHex .i32 .little)) [-0x11004000, -0xffff80] [0x30] := by
  intro text session
  have reachable : session.Reachable := .ofText (by decide) (by decide) {}
  have unread : session.cursor.remaining =
      [WrittenWord.marked, WrittenWord.spaced].flatMap WrittenWord.octets ++ [0x30] := by
    decide
  have swapped : swapOctets 0x00c0ffee = 0xeeffc000 ∧ swapOctets 0x800000ff = 0xff000080 := by
    decide
  obtain ⟨big, little, -, signed⟩ :=
    words_read_back reachable [WrittenWord.marked, WrittenWord.spaced] [0x30] unread
  simp only [List.map_cons, List.map_nil, WrittenWord.marked, WrittenWord.spaced, swapped]
    at little signed
  exact ⟨reachable, big, little, signed⟩

end Hexadecimal

end ByteCursor
