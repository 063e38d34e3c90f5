import ByteCursor.Bytes

/-!
# What the searches find

The search for an octet splits a text at the first hit, and the search for a pattern finds the
least offset at which the pattern stands.  Both fail only where there is no hit at all.
-/

namespace ByteCursor.Bytes

/-- The pattern stands in the text at the offset. -/
def OccursAt (pattern text : Bytes) (offset : Nat) : Prop := pattern <+: text.drop offset

variable {stop byte : UInt8} {pattern text rest : Bytes} {offset : Nat}

/-! ## Runs of one class -/

section Boundary

variable {α : Type} {inClass : α → Bool} {run rest : List α}

/-- A run before something of another class is the longest. -/
theorem takeWhile_append_of_boundary (inside : ∀ member ∈ run, inClass member = true)
    (boundary : ∀ next, rest.head? = some next → inClass next = false) :
    (run ++ rest).takeWhile inClass = run := by
  rw [List.takeWhile_append_of_pos inside]
  cases rest with
  | nil => rw [List.takeWhile_nil, List.append_nil]
  | cons next rest =>
      have stops := boundary next rfl
      rw [List.takeWhile_cons_of_neg (by simp [stops]), List.append_nil]

theorem dropWhile_append_of_boundary (inside : ∀ member ∈ run, inClass member = true)
    (boundary : ∀ next, rest.head? = some next → inClass next = false) :
    (run ++ rest).dropWhile inClass = rest := by
  rw [List.dropWhile_append_of_pos inside]
  cases rest with
  | nil => rfl
  | cons next rest =>
      have stops := boundary next rfl
      rw [List.dropWhile_cons_of_neg (by simp [stops])]

end Boundary

section Runs

variable {inClass : UInt8 → Bool}

theorem mem_takeWhile (member : byte ∈ text.takeWhile inClass) : inClass byte = true :=
  List.all_eq_true.mp List.all_takeWhile byte member

/-- Behind the longest run no octet of its class follows. -/
theorem head?_dropWhile (next : (text.dropWhile inClass).head? = some byte) :
    inClass byte = false := by
  have stops := List.head?_dropWhile_not inClass text
  rw [next] at stops
  exact stops

theorem drop_length_takeWhile (inClass : UInt8 → Bool) (text : Bytes) :
    text.drop (text.takeWhile inClass).length = text.dropWhile inClass := by
  calc text.drop (text.takeWhile inClass).length
      = (text.takeWhile inClass ++ text.dropWhile inClass).drop
          (text.takeWhile inClass).length := by rw [List.takeWhile_append_dropWhile]
    _ = text.dropWhile inClass := List.drop_left

/-- A start of a text and a start of what follows it are together a start of the text. -/
theorem append_isPrefix {first second : Bytes} (starts : first <+: text)
    (follows : second <+: text.drop first.length) : first ++ second <+: text := by
  rcases starts with ⟨behind, rfl⟩
  rw [List.drop_left] at follows
  exact (List.prefix_append_right_inj first).mpr follows

/-! ### Leading spaces -/

theorem eq_replicate_takeWhile_isSpace (text : Bytes) :
    text.takeWhile isSpace = List.replicate (text.takeWhile isSpace).length 0x20 := by
  apply List.eq_replicate_of_mem
  intro byte member
  have isSpace : isSpace byte = true := mem_takeWhile member
  exact beq_iff_eq.mp isSpace

/-- Every text is some spaces and what follows them. -/
theorem eq_spaces_append (text : Bytes) :
    text = List.replicate (text.takeWhile isSpace).length 0x20 ++ text.dropWhile isSpace := by
  rw [← eq_replicate_takeWhile_isSpace, List.takeWhile_append_dropWhile]

theorem head?_dropWhile_isSpace (text : Bytes) : (text.dropWhile isSpace).head? ≠ some 0x20 := by
  intro next
  have noSpace := head?_dropWhile next
  cases noSpace

end Runs

/-! ## One octet -/

@[simp] theorem offsetOf?_nil : offsetOf? stop [] = none := rfl

theorem offsetOf?_cons :
    offsetOf? stop (byte :: rest) =
      if byte = stop then some 0 else (offsetOf? stop rest).map (· + 1) := by
  simp only [offsetOf?, List.findIdx?_cons, beq_iff_eq]

theorem offsetOf?_eq_none_iff : offsetOf? stop text = none ↔ stop ∉ text := by
  simp only [offsetOf?, List.findIdx?_eq_none_iff, beq_eq_false_iff_ne]
  constructor
  · intro different member
    exact different stop member rfl
  · rintro absent byte member rfl
    exact absent member

/-- The octets before the first hit hold no hit. -/
theorem split_of_offsetOf? (found : offsetOf? stop text = some offset) :
    text = text.take offset ++ stop :: text.drop (offset + 1) ∧ stop ∉ text.take offset ∧
      offset < text.length := by
  induction text generalizing offset with
  | nil => cases found
  | cons byte rest ih =>
      rw [offsetOf?_cons] at found
      by_cases hit : byte = stop
      · rw [if_pos hit] at found
        cases found
        simp [hit]
      · rw [if_neg hit, Option.map_eq_some_iff] at found
        rcases found with ⟨earlier, found, rfl⟩
        rcases ih found with ⟨split, absent, inside⟩
        refine ⟨?_, ?_, Nat.succ_lt_succ inside⟩
        · rw [List.take_succ_cons, List.drop_succ_cons, List.cons_append, ← split]
        · rw [List.take_succ_cons, List.mem_cons]
          rintro (same | member)
          · exact hit same.symm
          · exact absent member

theorem eq_append_of_offsetOf? (found : offsetOf? stop text = some offset) :
    ∃ before rest, text = before ++ stop :: rest ∧ stop ∉ before ∧ before.length = offset := by
  rcases split_of_offsetOf? found with ⟨split, absent, inside⟩
  refine ⟨_, _, split, absent, ?_⟩
  rw [List.length_take]
  exact Nat.min_eq_left (Nat.le_of_lt inside)

/-- The octet behind a part without it is the first hit. -/
theorem offsetOf?_append (absent : stop ∉ text) :
    offsetOf? stop (text ++ stop :: rest) = some text.length := by
  induction text with
  | nil => rw [List.nil_append, offsetOf?_cons, if_pos rfl, List.length_nil]
  | cons byte text ih =>
      rw [List.mem_cons, not_or] at absent
      rw [List.cons_append, offsetOf?_cons, if_neg (Ne.symm absent.1), ih absent.2]
      rfl

/-- A text splits at its first hit in one way. -/
theorem append_cons_inj_of_absent {others more : Bytes} (absent : stop ∉ text)
    (alsoAbsent : stop ∉ others) (same : text ++ stop :: rest = others ++ stop :: more) :
    text = others ∧ rest = more := by
  have offsets := congrArg (offsetOf? stop) same
  rw [offsetOf?_append absent, offsetOf?_append alsoAbsent, Option.some.injEq] at offsets
  obtain ⟨texts, rests⟩ := List.append_inj same offsets
  exact ⟨texts, (List.cons.inj rests).2⟩

/-! ## A pattern -/

@[simp] theorem occursAt_zero : OccursAt pattern text 0 ↔ pattern <+: text := Iff.rfl

@[simp] theorem occursAt_succ_cons :
    OccursAt pattern (byte :: rest) (offset + 1) ↔ OccursAt pattern rest offset := Iff.rfl

/-- An occurrence lies within the text. -/
theorem OccursAt.le_length (occurs : OccursAt pattern text offset) (nonempty : pattern ≠ []) :
    offset + pattern.length ≤ text.length := by
  have shorter := occurs.length_le
  have positive := List.length_pos_iff.mpr nonempty
  rw [List.length_drop] at shorter
  omega

theorem not_occursAt_nil (nonempty : pattern ≠ []) (offset : Nat) :
    ¬ OccursAt pattern [] offset := by
  intro occurs
  have shorter := occurs.le_length nonempty
  have positive := List.length_pos_iff.mpr nonempty
  rw [List.length_nil] at shorter
  omega

/-- An occurrence splits the text. -/
theorem OccursAt.split (occurs : OccursAt pattern text offset) :
    text = text.take offset ++ pattern ++ text.drop (offset + pattern.length) := by
  rcases occurs with ⟨rest, same⟩
  have behind : text.drop (offset + pattern.length) = rest := by
    rw [← List.drop_drop, ← same, List.drop_left]
  rw [behind, List.append_assoc, same, List.take_append_drop]

/-- An occurrence stays one when the text goes on. -/
theorem OccursAt.append (occurs : OccursAt pattern text offset) (nonempty : pattern ≠ []) :
    OccursAt pattern (text ++ rest) offset := by
  have inside := occurs.le_length nonempty
  rw [OccursAt, List.drop_append_of_le_length (by omega)]
  exact occurs.trans (List.prefix_append _ _)

@[simp] theorem offsetOfPattern?_nil (pattern : Bytes) :
    offsetOfPattern? pattern [] = none := rfl

theorem offsetOfPattern?_cons :
    offsetOfPattern? pattern (byte :: rest) =
      if pattern <+: byte :: rest then some 0
      else (offsetOfPattern? pattern rest).map (· + 1) := by
  by_cases fits : pattern.length ≤ rest.length + 1
  · have same : (byte :: rest).take pattern.length = pattern ↔ pattern <+: byte :: rest := by
      rw [List.prefix_iff_eq_take, eq_comm]
    rw [offsetOfPattern?, windows_cons fits, List.findIdx?_cons]
    simp only [beq_iff_eq, same]
    rfl
  · have noPrefix : ¬ pattern <+: byte :: rest := by
      intro starts
      exact fits starts.length_le
    have notFound : offsetOfPattern? pattern rest = none := by
      rw [offsetOfPattern?, windows_of_length_lt (by omega)]
      rfl
    rw [if_neg noPrefix, notFound, offsetOfPattern?, windows_of_length_lt (by simpa using fits)]
    rfl

/-- The search for a pattern finds its first occurrence. -/
theorem offsetOfPattern?_eq_some_iff (nonempty : pattern ≠ []) :
    offsetOfPattern? pattern text = some offset ↔
      OccursAt pattern text offset ∧ ∀ earlier < offset, ¬ OccursAt pattern text earlier := by
  induction text generalizing offset with
  | nil =>
      constructor
      · intro found
        cases found
      · rintro ⟨occurs, -⟩
        exact absurd occurs (not_occursAt_nil nonempty offset)
  | cons byte rest ih =>
      rw [offsetOfPattern?_cons]
      by_cases starts : pattern <+: byte :: rest
      · rw [if_pos starts, Option.some_inj]
        constructor
        · rintro rfl
          exact ⟨starts, fun earlier impossible => absurd impossible (Nat.not_lt_zero _)⟩
        · rintro ⟨-, first⟩
          rcases Nat.eq_zero_or_pos offset with zero | positive
          · exact zero.symm
          · exact absurd starts (first 0 positive)
      · rw [if_neg starts]
        cases offset with
        | zero =>
            constructor
            · intro found
              simp at found
            · rintro ⟨occurs, -⟩
              exact absurd occurs starts
        | succ offset =>
            rw [Option.map_eq_some_iff]
            simp only [Nat.add_right_cancel_iff, exists_eq_right, ih, occursAt_succ_cons]
            refine and_congr_right fun _ => ?_
            constructor
            · intro first earlier smaller
              cases earlier with
              | zero => exact starts
              | succ earlier => exact first earlier (Nat.lt_of_succ_lt_succ smaller)
            · intro first earlier smaller
              exact first (earlier + 1) (Nat.succ_lt_succ smaller)

theorem OccursAt.isInfix (occurs : OccursAt pattern text offset) : pattern <:+: text :=
  (List.IsPrefix.isInfix occurs).trans (List.drop_suffix offset text).isInfix

theorem isInfix_iff_occursAt : pattern <:+: text ↔ ∃ offset, OccursAt pattern text offset := by
  constructor
  · rintro ⟨before, rest, rfl⟩
    refine ⟨before.length, ?_⟩
    rw [OccursAt, List.append_assoc, List.drop_left]
    exact List.prefix_append pattern rest
  · rintro ⟨offset, occurs⟩
    exact occurs.isInfix

/-- A pattern whose first octet does not come again cannot begin before itself. -/
theorem offsetOfPattern?_append {first : UInt8} {others junk : Bytes} (unique : first ∉ others)
    (absent : ¬ first :: others <:+: junk) (rest : Bytes) :
    offsetOfPattern? (first :: others) (junk ++ (first :: others ++ rest)) =
      some junk.length := by
  refine (offsetOfPattern?_eq_some_iff (List.cons_ne_nil first others)).mpr ⟨?found, ?first⟩
  case found =>
    rw [OccursAt, List.drop_left]
    exact List.prefix_append _ _
  case first =>
    intro earlier inside starts
    have suffix : junk.drop earlier <:+: junk := (List.drop_suffix earlier junk).isInfix
    rw [OccursAt, List.drop_append_of_le_length (Nat.le_of_lt inside)] at starts
    -- What is left of the junk and the pattern both start there, so one starts the other.
    rcases List.prefix_or_prefix_of_prefix starts (List.prefix_append _ _) with
      within | ⟨ending, patternEq⟩
    · exact absent (within.isInfix.trans suffix)
    · cases ending with
      | nil =>
          rw [List.append_nil] at patternEq
          exact absent (patternEq ▸ suffix)
      | cons next ending =>
          have again : next :: ending <+: first :: (others ++ rest) := by
            rw [← List.prefix_append_right_inj (junk.drop earlier), patternEq]
            exact starts
          rcases List.cons_prefix_cons.mp again with ⟨rfl, -⟩
          cases left : junk.drop earlier with
          | nil =>
              have behind := List.drop_eq_nil_iff.mp left
              omega
          | cons byte before =>
              rw [left, List.cons_append, List.cons.injEq] at patternEq
              apply unique
              rw [← patternEq.2]
              simp

/-- The first occurrence is the only one up to its own end. -/
theorem eq_append_of_offsetOfPattern? (nonempty : pattern ≠ [])
    (found : offsetOfPattern? pattern text = some offset) :
    ∃ before rest, text = before ++ pattern ++ rest ∧ before.length = offset ∧
      ∀ candidate, OccursAt pattern (before ++ pattern) candidate ↔
        candidate = before.length := by
  rcases (offsetOfPattern?_eq_some_iff nonempty).mp found with ⟨occurs, first⟩
  have inside := occurs.le_length nonempty
  have length : (text.take offset).length = offset := by
    rw [List.length_take]
    omega
  refine ⟨_, _, occurs.split, length, fun candidate => ?_⟩
  constructor
  · intro again
    have within := again.le_length nonempty
    rw [List.length_append, length] at within
    have inText : OccursAt pattern text candidate := by
      rw [occurs.split]
      exact again.append nonempty
    have notEarlier : ¬ candidate < offset := fun earlier => first candidate earlier inText
    omega
  · rintro rfl
    exact ⟨[], (List.append_nil pattern).trans List.drop_left.symm⟩

theorem offsetOfPattern?_eq_none_iff (nonempty : pattern ≠ []) :
    offsetOfPattern? pattern text = none ↔ ∀ offset, ¬ OccursAt pattern text offset := by
  induction text with
  | nil => exact iff_of_true rfl (not_occursAt_nil nonempty)
  | cons byte rest ih =>
      rw [offsetOfPattern?_cons]
      by_cases starts : pattern <+: byte :: rest
      · rw [if_pos starts]
        refine iff_of_false (Option.some_ne_none _) fun absent => absent 0 starts
      · rw [if_neg starts, Option.map_eq_none_iff, ih]
        constructor
        · intro absent offset
          cases offset with
          | zero => exact starts
          | succ offset => exact absent offset
        · intro absent offset
          exact absent (offset + 1)

end ByteCursor.Bytes
