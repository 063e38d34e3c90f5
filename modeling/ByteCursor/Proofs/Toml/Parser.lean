import ByteCursor.Proofs.Search
import ByteCursor.Toml.Parser

/-!
# Laws of parsers

A parser is known by what it makes of a text: it takes the front of it and leaves the rest, or it
refuses it.  The laws say how this passes from parts to the whole, so that no proof about a document
looks inside a parser.
-/

namespace ByteCursor.Toml.Parser

variable {α β : Type} {parser other : Parser α} {next : α → Parser β} {value result : α}
  {text middle rest : List Char}

/-! ## Sequences and alternatives -/

theorem bind_of_some (reads : parser text = some (value, rest)) :
    (parser >>= next) text = next value rest := by
  change (parser text).bind _ = _
  rw [reads, Option.bind_some]

theorem bind_of_none (refuses : parser text = none) : (parser >>= next) text = none := by
  change (parser text).bind _ = _
  rw [refuses, Option.bind_none]

theorem map_of_some {f : α → β} (reads : parser text = some (value, rest)) :
    (f <$> parser) text = some (f value, rest) := by
  change (parser text).bind _ = _
  rw [reads]
  rfl

theorem map_of_none {f : α → β} (refuses : parser text = none) : (f <$> parser) text = none := by
  change (parser text).bind _ = _
  rw [refuses, Option.bind_none]

theorem seqRight_of_some {last : Parser β} (reads : parser text = some (value, rest)) :
    (parser *> last) text = last rest :=
  bind_of_some reads

theorem seqRight_of_none {last : Parser β} (refuses : parser text = none) :
    (parser *> last) text = none :=
  bind_of_none refuses

theorem seqLeft_of_some {last : Parser β} {ignored : β} (reads : parser text = some (value, middle))
    (passes : last middle = some (ignored, rest)) :
    (parser <* last) text = some (value, rest) := by
  change (parser >>= fun value => last >>= fun _ => pure value) text = _
  rw [bind_of_some reads, bind_of_some passes]
  rfl

theorem seqLeft_of_none {last : Parser β} (refuses : parser text = none) :
    (parser <* last) text = none :=
  bind_of_none refuses

theorem orElse_of_some (reads : parser text = some (value, rest)) :
    (parser <|> other) text = some (value, rest) := by
  change (parser text <|> other text) = _
  rw [reads]
  rfl

theorem orElse_of_none (refuses : parser text = none) : (parser <|> other) text = other text := by
  change (parser text <|> other text) = _
  rw [refuses]
  cases other text <;> rfl

theorem optional_of_some (reads : parser text = some (value, rest)) :
    (optional parser : Parser (Option α)) text = some (some value, rest) :=
  orElse_of_some (map_of_some reads)

theorem optional_of_none (refuses : parser text = none) :
    (optional parser : Parser (Option α)) text = some (none, text) :=
  orElse_of_none (map_of_none refuses)

/-! ## Characters -/

theorem char_cons (expected : Char) (rest : List Char) :
    char expected (expected :: rest) = some ((), rest) := if_pos rfl

theorem char_of_head?_ne {expected : Char} (different : text.head? ≠ some expected) :
    char expected text = none := by
  cases text with
  | nil => rfl
  | cons head rest => exact if_neg fun same => different (congrArg some same)

theorem satisfy_cons {inClass : Char → Bool} {head : Char} (isIn : inClass head = true)
    (rest : List Char) : satisfy inClass (head :: rest) = some (head, rest) := if_pos isIn

theorem word_cons (head : Char) (expected : List Char) :
    word (head :: expected) = char head >>= fun _ => word expected := rfl

theorem word_append (expected rest : List Char) :
    word expected (expected ++ rest) = some ((), rest) := by
  induction expected with
  | nil => rfl
  | cons head expected ih =>
      rw [word_cons, List.cons_append, bind_of_some (char_cons head _)]
      exact ih

theorem word_of_not_isPrefix {expected : List Char} (apart : ¬ expected <+: text) :
    word expected text = none := by
  induction expected generalizing text with
  | nil => exact absurd List.nil_prefix apart
  | cons head expected ih =>
      rw [word_cons]
      cases text with
      | nil => exact bind_of_none rfl
      | cons first rest =>
          by_cases same : first = head
          · subst same
            rw [bind_of_some (char_cons first rest)]
            exact ih fun starts => apart (List.cons_prefix_cons.mpr ⟨rfl, starts⟩)
          · exact bind_of_none (if_neg same)

/-- What is taken from the front of a text makes it shorter. -/
theorem length_lt_append (nonempty : text ≠ []) (rest : List Char) :
    rest.length < (text ++ rest).length := by
  have positive := List.length_pos_iff.mpr nonempty
  rw [List.length_append]
  omega

/-! ## Runs -/

/-- The rest does not begin with a character of the class. -/
def Stops (inClass : Char → Bool) (rest : List Char) : Prop :=
  ∀ next, rest.head? = some next → inClass next = false

section Runs

variable {inClass : Char → Bool} {run : List Char}

theorem stops_nil (inClass : Char → Bool) : Stops inClass [] := nofun

theorem stops_cons {head : Char} (isOut : inClass head = false) (rest : List Char) :
    Stops inClass (head :: rest) := by
  rintro next ⟨⟩
  exact isOut

theorem satisfy_of_stops (stops : Stops inClass text) : satisfy inClass text = none := by
  cases text with
  | nil => rfl
  | cons head rest => simp [satisfy, stops head rfl]

theorem takeWhile_append (inside : ∀ character ∈ run, inClass character = true)
    (stops : Stops inClass rest) : takeWhile inClass (run ++ rest) = some (run, rest) := by
  rw [takeWhile, Bytes.takeWhile_append_of_boundary inside stops,
    Bytes.dropWhile_append_of_boundary inside stops]

theorem takeSome_append (nonempty : run ≠ []) (inside : ∀ character ∈ run, inClass character = true)
    (stops : Stops inClass rest) : takeSome inClass (run ++ rest) = some (run, rest) := by
  rw [takeSome, bind_of_some (takeWhile_append inside stops), if_neg (by simp [nonempty])]
  rfl

end Runs

/-! ## Repetitions -/

/-- The parser reads the values one after the other and then refuses the rest. -/
inductive Repeats (parser : Parser α) : List Char → List α → List Char → Prop where
  | done {rest : List Char} (refuses : parser rest = none) : Repeats parser rest [] rest
  | step {text middle rest : List Char} {value : α} {values : List α}
      (reads : parser text = some (value, middle)) (shorter : middle.length < text.length)
      (later : Repeats parser middle values rest) : Repeats parser text (value :: values) rest

theorem manyWithin_of_none (refuses : parser text = none) (rounds : Nat) :
    manyWithin parser rounds text = some ([], text) := by
  cases rounds with
  | zero => rfl
  | succ rounds => rw [manyWithin, bind_of_some (optional_of_none refuses)]; rfl

theorem manyWithin_of_some {values : List α} {rounds : Nat}
    (reads : parser text = some (value, middle))
    (later : manyWithin parser rounds middle = some (values, rest)) :
    manyWithin parser (rounds + 1) text = some (value :: values, rest) := by
  rw [manyWithin, bind_of_some (optional_of_some reads)]
  change (manyWithin parser rounds >>= fun values => pure (value :: values)) middle = _
  rw [bind_of_some later]
  rfl

/-- Every value takes a character, so there are enough rounds for all of them. -/
theorem Repeats.many_eq {values : List α} (repeats : Repeats parser text values rest) :
    many parser text = some (values, rest) := by
  have within (rounds : Nat) (enough : text.length ≤ rounds) :
      manyWithin parser rounds text = some (values, rest) := by
    induction repeats generalizing rounds with
    | done refuses => exact manyWithin_of_none refuses rounds
    | step reads shorter _ ih =>
        obtain ⟨rounds, rfl⟩ : ∃ fewer, rounds = fewer + 1 := ⟨rounds - 1, by omega⟩
        exact manyWithin_of_some reads (ih rounds (by omega))
  exact within text.length (Nat.le_refl _)

theorem sepBySome_of_repeats {values : List α} {separator : Parser Unit}
    (reads : parser text = some (value, middle))
    (later : Repeats (separator *> parser) middle values rest) :
    sepBySome parser separator text = some (value :: values, rest) := by
  rw [sepBySome, bind_of_some reads, bind_of_some later.many_eq]
  rfl

/-- The parser reads values with separators between them and perhaps one behind the last. -/
inductive RepeatsApart (parser : Parser α) (separator : Parser Unit) :
    List Char → List α → List Char → Prop where
  | done {rest : List Char} (refuses : parser rest = none) :
      RepeatsApart parser separator rest [] rest
  | last {text rest : List Char} {value : α} (reads : parser text = some (value, rest))
      (shorter : rest.length < text.length) (ends : separator rest = none) :
      RepeatsApart parser separator text [value] rest
  | step {text middle behind rest : List Char} {value : α} {values : List α}
      (reads : parser text = some (value, middle)) (shorter : behind.length < text.length)
      (separates : separator middle = some ((), behind))
      (later : RepeatsApart parser separator behind values rest) :
      RepeatsApart parser separator text (value :: values) rest

theorem RepeatsApart.sepEndBy_eq {values : List α} {separator : Parser Unit}
    (repeats : RepeatsApart parser separator text values rest) :
    sepEndBy parser separator text = some (values, rest) := by
  have within (rounds : Nat) (enough : text.length ≤ rounds) :
      sepEndByWithin parser separator rounds text = some (values, rest) := by
    induction repeats generalizing rounds with
    | done refuses =>
        cases rounds with
        | zero => rfl
        | succ rounds => rw [sepEndByWithin, bind_of_some (optional_of_none refuses)]; rfl
    | last reads shorter ends =>
        obtain ⟨rounds, rfl⟩ : ∃ fewer, rounds = fewer + 1 := ⟨rounds - 1, by omega⟩
        rw [sepEndByWithin, bind_of_some (optional_of_some reads)]
        exact (bind_of_some (optional_of_none ends)).trans rfl
    | step reads shorter separates _ ih =>
        obtain ⟨rounds, rfl⟩ : ∃ fewer, rounds = fewer + 1 := ⟨rounds - 1, by omega⟩
        rw [sepEndByWithin, bind_of_some (optional_of_some reads)]
        exact (bind_of_some (optional_of_some separates)).trans
          ((bind_of_some (ih rounds (by omega))).trans rfl)
  exact within text.length (Nat.le_refl _)

end ByteCursor.Toml.Parser
