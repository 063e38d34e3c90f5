import ByteCursor.Proofs.Toml.Text
import ByteCursor.Toml.Entry

/-!
# Keys of the grammar

A name is read up to a blank, a dot or what follows its key, and a key name by name.  The blanks
around a name belong to the parser of the name, so they may as well stand around the whole key.
-/

namespace ByteCursor.Toml

variable {text rest before behind : List Char} {label : String} {labels : List String}

/-! ## How names begin and end -/

theorem isBareChar_iff {character : Char} :
    isBareChar character = true ↔
      character.isAlphanum = true ∨ character = '-' ∨ character = '_' := by
  have isUpper : character.isUpper = ('A' ≤ character && character ≤ 'Z') := Bool.decide_and _ _
  have classes : isBareChar character =
      (character.isAlphanum || character = '-' || character = '_') := by
    rw [isBareChar, ← isUpper]
    rfl
  rw [classes, Bool.or_eq_true, Bool.or_eq_true, decide_eq_true_eq, decide_eq_true_eq, or_assoc]

/-- The text begins with a quote or with a character of names without quotes. -/
def StartsName (text : List Char) : Prop :=
  ∃ first tail, text = first :: tail ∧ (isBareChar first = true ∨ first ∈ ['"', '\''])

theorem StartsName.append (starts : StartsName text) (rest : List Char) :
    StartsName (text ++ rest) := by
  obtain ⟨first, tail, rfl, isStart⟩ := starts
  exact ⟨first, tail ++ rest, rfl, isStart⟩

theorem StartsName.head?_ne (starts : StartsName text) {other : Char}
    (notBare : isBareChar other = false) (noQuote : other ∉ ['"', '\'']) :
    text.head? ≠ some other := by
  obtain ⟨first, tail, rfl, bare | quote⟩ := starts
  · rintro ⟨⟩
    exact Bool.noConfusion (notBare.symm.trans bare)
  · rintro ⟨⟩
    exact noQuote quote

theorem StartsName.stops_isBlank (starts : StartsName text) : Parser.Stops isBlank text :=
  Parser.stops_isBlank (starts.head?_ne (by decide) (by decide))
    (starts.head?_ne (by decide) (by decide))

theorem WritesName.startsName (writes : WritesName text label) : StartsName text := by
  cases writes with
  | bare nonempty bare =>
      obtain ⟨first, tail, rfl⟩ := List.exists_cons_of_ne_nil nonempty
      exact ⟨first, tail, rfl, .inl (isBareChar_iff.mpr (bare first List.mem_cons_self))⟩
  | basic basic =>
      obtain ⟨-⟩ := basic
      exact ⟨_, _, rfl, .inr (by decide)⟩
  | literal literal =>
      obtain ⟨-⟩ := literal
      exact ⟨_, _, rfl, .inr (by decide)⟩

theorem WritesNames.startsName (writes : WritesNames text labels) : StartsName text := by
  cases writes with
  | last hasName => exact hasName.startsName
  | dot hasName => exact hasName.startsName.append _

theorem WritesEntry.startsName {limits : Limits} {Inner : List Char → Value → Prop} {entry : Entry}
    (writes : WritesEntry limits Inner text entry) : StartsName text := by
  obtain ⟨hasKey, -, -, -⟩ := writes
  exact hasKey.names.startsName.append _

/-- What stands behind a name: a dot, the equals sign or the end of a header. -/
def EndsName (rest : List Char) : Prop := rest.head? ∈ [some '.', some '=', some ']']

theorem EndsName.stops (ends : EndsName rest) {inClass : Char → Bool}
    (noEnd : ['.', '=', ']'].any inClass = false) : Parser.Stops inClass rest := by
  intro next found
  rw [EndsName, found] at ends
  exact Bool.eq_false_iff.mpr (List.any_eq_false.mp noEnd next (by simpa using ends))

namespace Parser

/-! ## Names -/

theorem name_append (writes : WritesName text label) (stops : Stops isBareChar rest) :
    name (text ++ rest) = some (label, rest) := by
  have starts := writes.startsName
  cases writes with
  | bare nonempty bare =>
      have inside : ∀ character ∈ text, isBareChar character = true :=
        fun character member => isBareChar_iff.mpr (bare character member)
      have apart (quote : Char) (notBare : isBareChar quote = false) :
          char quote (text ++ rest) = none := by
        apply char_of_head?_ne
        obtain ⟨first, tail, rfl⟩ := List.exists_cons_of_ne_nil nonempty
        rintro ⟨⟩
        exact Bool.noConfusion (notBare.symm.trans (inside quote List.mem_cons_self))
      have noBasic : basicString (text ++ rest) = none :=
        seqLeft_of_none (seqRight_of_none (apart '"' (by decide)))
      have noLiteral : literalString (text ++ rest) = none :=
        seqLeft_of_none (seqRight_of_none (apart '\'' (by decide)))
      apply (bind_of_some _).trans rfl
      rw [orElse_of_none noBasic, orElse_of_none noLiteral]
      exact takeSome_append nonempty inside stops
  | basic basic => exact (bind_of_some (orElse_of_some (basicString_append basic rest))).trans rfl
  | literal literal =>
      have noBasic : basicString (text ++ rest) = none := by
        obtain ⟨-⟩ := literal
        rfl
      have read := literalString_append literal rest
      exact (bind_of_some ((orElse_of_none noBasic).trans (orElse_of_some read))).trans rfl

theorem stops_isBareChar_append (areBlanks : IsBlanks behind) (ends : EndsName rest) :
    Stops isBareChar (behind ++ rest) := by
  cases behind with
  | nil => exact ends.stops (by decide)
  | cons head tail =>
      obtain rfl | rfl := areBlanks head List.mem_cons_self <;> exact stops_cons (by decide) _

theorem spacedName_append (blanksBefore : IsBlanks before) (writes : WritesName text label)
    (blanksBehind : IsBlanks behind) (ends : EndsName rest) :
    (blanks *> name <* blanks) (before ++ (text ++ (behind ++ rest))) = some (label, rest) := by
  have front := blanks_append blanksBefore (writes.startsName.append (behind ++ rest)).stops_isBlank
  have read := name_append writes (stops_isBareChar_append blanksBehind ends)
  have back := blanks_append blanksBehind (ends.stops (by decide))
  exact seqLeft_of_some ((seqRight_of_some front).trans read) back

/-! ## Keys -/

/-- What stands behind a key: the equals sign or the end of a header. -/
def EndsKey (rest : List Char) : Prop := rest.head? ∈ [some '=', some ']']

theorem EndsKey.endsName (ends : EndsKey rest) : EndsName rest :=
  List.mem_cons_of_mem _ ends

theorem repeats_names (writes : WritesNames text labels) (blanksBefore : IsBlanks before)
    (blanksBehind : IsBlanks behind) (ends : EndsKey rest) :
    ∃ first others middle, labels = first :: others ∧
      (blanks *> name <* blanks) (before ++ (text ++ (behind ++ rest))) = some (first, middle) ∧
      middle.length ≤ (before ++ (text ++ (behind ++ rest))).length ∧
      Repeats (char '.' *> (blanks *> name <* blanks)) middle others rest := by
  induction writes generalizing before with
  | @last text label hasName =>
      have noDot : rest.head? ≠ some '.' := by
        intro found
        rw [EndsKey, found] at ends
        exact absurd ends (by decide)
      have read := spacedName_append blanksBefore hasName blanksBehind ends.endsName
      exact ⟨label, [], rest, rfl, read, by simp; omega,
        .done (seqRight_of_none (char_of_head?_ne noDot))⟩
  | @dot text spaces gap more label labels hasName blanksSpaces blanksGap _ ih =>
      obtain ⟨first, others, middle, rfl, later, shorter, repeats⟩ := ih blanksGap
      have dot : EndsName ('.' :: (gap ++ (more ++ (behind ++ rest)))) := List.mem_cons_self
      have read := spacedName_append blanksBefore hasName blanksSpaces dot
      simp only [List.append_assoc, List.cons_append]
      exact ⟨label, first :: others, _, rfl, read, by simp; omega,
        .step ((seqRight_of_some (char_cons '.' _)).trans later) (Nat.lt_succ_of_le shorter)
          repeats⟩

theorem key_append {limits : Limits} {path : Key} (writes : WritesKey limits text path)
    (short : limits.names ≤ keyLimit) (blanksBefore : IsBlanks before)
    (blanksBehind : IsBlanks behind) (ends : EndsKey rest) :
    key (before ++ (text ++ (behind ++ rest))) = some (path, rest) := by
  obtain ⟨first, others, middle, labels, read, -, repeats⟩ :=
    repeats_names writes.names blanksBefore blanksBehind ends
  have names := sepBySome_of_repeats read repeats
  rw [← labels] at names
  have fits : (path.parents ++ [path.name]).length < keyLimit :=
    Nat.lt_of_lt_of_le writes.short short
  rw [key, bind_of_some names, List.getLast?_concat]
  change (if _ then _ else failure : Parser Key) rest = _
  rw [if_pos fits, List.dropLast_concat]
  rfl

end Parser

end ByteCursor.Toml
