import ByteCursor.Proofs.Toml.Grammar
import ByteCursor.Proofs.Toml.Parser

/-!
# Blanks, comments and strings of the grammar

What the grammar writes is read: behind a text that writes blanks, a comment or a string, a parser
goes on with the rest.  A parser that takes as much as it can needs a rest that does not go on with
the same characters.
-/

namespace ByteCursor.Toml

variable {text rest more characters ending : List Char} {character quote : Char}

/-! ## Classes of characters -/

theorem isBlank_iff : isBlank character = true ↔ character = ' ' ∨ character = '\t' := by
  simp [isBlank]

theorem isCommentChar_iff : isCommentChar character = true ↔ IsPlain character := by
  simp only [isCommentChar, isPrintable, isWide, IsPlain, Bool.or_eq_true, Bool.and_eq_true,
    decide_eq_true_eq, or_assoc]
  refine or_congr Iff.rfl ?_
  omega

theorem isBasicChar_iff :
    isBasicChar character = true ↔ IsPlain character ∧ character ≠ '"' ∧ character ≠ '\\' := by
  simp [isBasicChar, isCommentChar_iff, and_assoc]

theorem isLiteralChar_iff :
    isLiteralChar character = true ↔ IsPlain character ∧ character ≠ '\'' := by
  simp [isLiteralChar, isCommentChar_iff]

theorem IsBlanks.all_isBlank (areBlanks : IsBlanks text) :
    ∀ character ∈ text, isBlank character = true :=
  fun character member => isBlank_iff.mpr (areBlanks character member)

theorem IsNewline.head?_mem (isNewline : IsNewline ending) (rest : List Char) :
    (ending ++ rest).head? ∈ [some '\n', some '\r'] := by
  cases isNewline <;> simp

theorem IsNewline.ne_nil (isNewline : IsNewline ending) : ending ≠ [] := by
  cases isNewline <;> simp

theorem IsNewline.stops (isNewline : IsNewline ending) (inClass : Char → Bool)
    (noFeed : inClass '\n' = false) (noReturn : inClass '\r' = false) (rest : List Char) :
    Parser.Stops inClass (ending ++ rest) := by
  cases isNewline with
  | short => exact Parser.stops_cons noFeed _
  | long => exact Parser.stops_cons noReturn _

/-- The head of a text is known not to be one of some characters. -/
theorem head?_ne_of_not_mem {heads : List (Option Char)} {head : Option Char}
    (apart : text.head? ∉ heads) (member : head ∈ heads) : text.head? ≠ head :=
  fun same => apart (same ▸ member)

namespace Parser

/-! ## Blanks, comments and ends of lines -/

theorem blanks_append (areBlanks : IsBlanks text) (stops : Stops isBlank rest) :
    blanks (text ++ rest) = some ((), rest) := by
  rw [blanks, bind_of_some (takeWhile_append areBlanks.all_isBlank stops)]
  rfl

theorem newline_append (isNewline : IsNewline ending) (rest : List Char) :
    newline (ending ++ rest) = some ((), rest) := by
  cases isNewline with
  | short => exact orElse_of_some (char_cons '\n' rest)
  | long =>
      rw [newline, orElse_of_none (by rfl)]
      exact word_append ['\r', '\n'] rest

theorem newline_of_head? (apart : rest.head? ∉ [some '\n', some '\r']) : newline rest = none := by
  rw [newline, orElse_of_none (char_of_head?_ne (head?_ne_of_not_mem apart (by simp)))]
  exact bind_of_none (char_of_head?_ne (head?_ne_of_not_mem apart (by simp)))

/-- A comment ends where its line does. -/
theorem comment_append (isPlain : ∀ character ∈ text, IsPlain character)
    (stops : Stops isCommentChar rest) : comment ('#' :: (text ++ rest)) = some ((), rest) := by
  have inside (character : Char) (member : character ∈ text) : isCommentChar character = true :=
    isCommentChar_iff.mpr (isPlain character member)
  rw [comment, bind_of_some (char_cons '#' _), bind_of_some (takeWhile_append inside stops)]
  rfl

/-- The rest does not begin with a blank. -/
theorem stops_isBlank (noSpace : rest.head? ≠ some ' ') (noTab : rest.head? ≠ some '\t') :
    Stops isBlank rest := by
  intro next found
  rw [found] at noSpace noTab
  simpa [isBlank] using And.intro noSpace noTab

/-! ## Gaps -/

/-- The rest does not go on with blanks or ends of lines. -/
def EndsSpace (rest : List Char) : Prop :=
  rest.head? ∉ [some ' ', some '\t', some '\n', some '\r']

theorem space_blank (isBlank : character = ' ' ∨ character = '\t') (rest : List Char) :
    space (character :: rest) = some ((), rest) :=
  orElse_of_some ((bind_of_some (satisfy_cons (isBlank_iff.mpr isBlank) rest)).trans rfl)

theorem space_newline (isNewline : IsNewline ending) (rest : List Char) :
    space (ending ++ rest) = some ((), rest) := by
  have noBlank := satisfy_of_stops (isNewline.stops isBlank rfl rfl rest)
  exact (orElse_of_none (bind_of_none noBlank)).trans (newline_append isNewline rest)

theorem space_of_endsSpace (ends : EndsSpace rest) : space rest = none := by
  have noBlank : Stops isBlank rest :=
    stops_isBlank (head?_ne_of_not_mem ends (by simp)) (head?_ne_of_not_mem ends (by simp))
  have noNewline : rest.head? ∉ [some '\n', some '\r'] := fun member =>
    ends (List.mem_append_right [some ' ', some '\t'] member)
  exact (orElse_of_none (bind_of_none (satisfy_of_stops noBlank))).trans
    (newline_of_head? noNewline)

theorem repeats_space (isSpace : IsSpace text) (ends : EndsSpace rest) :
    ∃ read, Repeats space (text ++ rest) read rest := by
  induction isSpace with
  | nil => exact ⟨_, .done (space_of_endsSpace ends)⟩
  | blank isBlank _ ih =>
      obtain ⟨read, later⟩ := ih
      exact ⟨_, .step (space_blank isBlank _) (by simp) later⟩
  | newline isNewline _ ih =>
      obtain ⟨read, later⟩ := ih
      rw [List.append_assoc]
      exact ⟨_, .step (space_newline isNewline _) (length_lt_append isNewline.ne_nil _) later⟩

/-- The rest does not go on with blanks, ends of lines or a comment. -/
def EndsGap (rest : List Char) : Prop :=
  rest.head? ∉ [some ' ', some '\t', some '\n', some '\r', some '#']

theorem EndsGap.endsSpace (ends : EndsGap rest) : EndsSpace rest := fun member =>
  ends (List.mem_append_left [some '#'] member)

theorem repeats_gap (isGap : IsGap text) (ends : EndsGap rest) :
    ∃ read, Repeats (space <|> comment) (text ++ rest) read rest := by
  induction isGap with
  | nil =>
      have noComment : comment rest = none :=
        bind_of_none (char_of_head?_ne (head?_ne_of_not_mem ends (by simp)))
      exact ⟨_, .done ((orElse_of_none (space_of_endsSpace ends.endsSpace)).trans noComment)⟩
  | blank isBlank _ ih =>
      obtain ⟨read, later⟩ := ih
      exact ⟨_, .step (orElse_of_some (space_blank isBlank _)) (by simp) later⟩
  | @line remark ending more isRemark isNewline _ ih =>
      obtain ⟨read, later⟩ := ih
      have next : Repeats (space <|> comment) (ending ++ (more ++ rest)) (() :: read) rest :=
        .step (orElse_of_some (space_newline isNewline _)) (length_lt_append isNewline.ne_nil _)
          later
      cases isRemark with
      | nothing => exact ⟨_, by simpa using next⟩
      | comment isPlain =>
          have stops : Stops isCommentChar (ending ++ (more ++ rest)) :=
            isNewline.stops _ rfl rfl _
          have read := comment_append isPlain stops
          have noSpace (tail : List Char) : space ('#' :: tail) = none := rfl
          simp only [List.cons_append, List.append_assoc]
          exact ⟨_, .step ((orElse_of_none (noSpace _)).trans read)
            (length_lt_append (List.cons_ne_nil '#' _) _) next⟩

theorem gap_append (isGap : IsGap text) (ends : EndsGap rest) :
    gap (text ++ rest) = some ((), rest) := by
  obtain ⟨read, repeats⟩ := repeats_gap isGap ends
  rw [gap, bind_of_some repeats.many_eq]
  rfl

/-! ## Characters of strings -/

theorem codePoint_append {digits : List Char}
    (hexadecimal : ∀ digit ∈ digits, IsDigitOf 16 digit)
    (code : numeral 16 digits = character.toNat) (rest : List Char) :
    codePoint digits.length (digits ++ rest) = some (character, rest) := by
  have known : digits.all (fun digit => (hexDigit? digit).isSome) = true := by
    rw [List.all_eq_true]
    intro digit member
    obtain ⟨value, found, -⟩ := hexadecimal digit member
    rw [found, Option.isSome_some]
  have valid : character.toNat.isValidChar := character.valid
  simp [codePoint, known, code, valid]

theorem escape_append (writes : WritesEscape text character) (rest : List Char) :
    escape (text ++ rest) = some (character, rest) := by
  cases writes with
  | mark known =>
      simp only [escapes, List.mem_cons, Prod.mk.injEq, List.not_mem_nil, or_false] at known
      obtain ⟨rfl, rfl⟩ | ⟨rfl, rfl⟩ | ⟨rfl, rfl⟩ | ⟨rfl, rfl⟩ | ⟨rfl, rfl⟩ | ⟨rfl, rfl⟩ |
        ⟨rfl, rfl⟩ := known <;> rfl
  | code announced hexadecimal code =>
      have read := codePoint_append hexadecimal code rest
      simp only [List.mem_cons, Prod.mk.injEq, List.not_mem_nil, or_false] at announced
      obtain ⟨rfl, length⟩ | ⟨rfl, length⟩ := announced
      · rw [length] at read
        exact read
      · rw [length] at read
        exact read

/-- What stands behind the backslash of a join is no escape. -/
theorem escape_of_blanks (areBlanks : IsBlanks text) (isNewline : IsNewline ending)
    (rest : List Char) : escape (text ++ (ending ++ rest)) = none := by
  cases text with
  | nil => cases isNewline <;> rfl
  | cons head tail => obtain rfl | rfl := areBlanks head List.mem_cons_self <;> rfl

/-- The parser reads what the items write.  None of them begins with the quote. -/
structure ReadsItems (item : Parser Char) (Item : List Char → Char → Prop) (quote : Char) :
    Prop where
  reads : ∀ {text character}, Item text character → ∀ rest,
    item (text ++ rest) = some (character, rest)
  apart : ∀ {text character}, Item text character → text.head? ∉ [none, some quote]
  refuses : ∀ rest, item (quote :: rest) = none

theorem readsItems_basic : ReadsItems basicChar WritesBasic '"' where
  reads := by
    intro text character writes rest
    cases writes with
    | plain isPlain noQuote noEscape =>
        exact orElse_of_some (satisfy_cons (isBasicChar_iff.mpr ⟨isPlain, noQuote, noEscape⟩) rest)
    | escape writes =>
        have noChar (tail : List Char) : satisfy isBasicChar ('\\' :: tail) = none := rfl
        exact (orElse_of_none (noChar _)).trans
          ((seqRight_of_some (char_cons '\\' _)).trans (escape_append writes rest))
  apart := by
    intro text character writes
    cases writes with
    | plain isPlain noQuote noEscape => simpa using noQuote
    | escape writes => simp
  refuses := fun _ => rfl

theorem readsItems_literal : ReadsItems literalChar WritesLiteral '\'' where
  reads := by
    intro text character writes rest
    cases writes with
    | plain isPlain noQuote => exact satisfy_cons (isLiteralChar_iff.mpr ⟨isPlain, noQuote⟩) rest
  apart := by
    intro text character writes
    cases writes with
    | plain isPlain noQuote => simpa using noQuote
  refuses := fun _ => rfl

/-! ## Strings on one line -/

section Quoted

variable {item : Parser Char} {Item : List Char → Char → Prop}

theorem ReadsItems.ne_nil (items : ReadsItems item Item quote) (writes : Item text character) :
    text ≠ [] := by
  rintro rfl
  exact items.apart writes List.mem_cons_self

theorem repeats_run (items : ReadsItems item Item quote) (run : WritesRun Item text characters)
    (rest : List Char) : Repeats item (text ++ quote :: rest) characters (quote :: rest) := by
  induction run with
  | nil => exact .done (items.refuses rest)
  | cons writes _ ih =>
      rw [List.append_assoc]
      exact .step (items.reads writes _) (length_lt_append (items.ne_nil writes) _) ih

theorem quoted_append (items : ReadsItems item Item quote) (run : WritesRun Item text characters)
    (rest : List Char) :
    (char quote *> many item <* char quote) (quote :: (text ++ quote :: rest)) =
      some (characters, rest) := by
  have inside := (repeats_run items run rest).many_eq
  exact seqLeft_of_some ((seqRight_of_some (char_cons quote _)).trans inside) (char_cons quote rest)

/-- A string on one line does not begin with three quotes. -/
theorem word_of_quoted (items : ReadsItems item Item quote) (run : WritesRun Item text characters)
    (apart : rest.head? ≠ some quote) :
    word [quote, quote, quote] (quote :: (text ++ quote :: rest)) = none := by
  apply word_of_not_isPrefix
  intro starts
  have second := (List.cons_prefix_cons.mp starts).2
  cases run with
  | nil =>
      have third := (List.cons_prefix_cons.mp second).2
      cases rest with
      | nil => exact absurd third (by simp)
      | cons head rest => exact apart (congrArg some (List.cons_prefix_cons.mp third).1.symm)
  | @cons text more characters character writes later =>
      have notQuote := items.apart writes
      obtain ⟨head, tail, rfl⟩ := List.exists_cons_of_ne_nil (items.ne_nil writes)
      exact notQuote (by simp [(List.cons_prefix_cons.mp second).1])

end Quoted

theorem basicString_append (writes : WritesBasicString text characters) (rest : List Char) :
    basicString (text ++ rest) = some (characters, rest) := by
  obtain ⟨run⟩ := writes
  simpa [basicString] using quoted_append readsItems_basic run rest

theorem literalString_append (writes : WritesLiteralString text characters) (rest : List Char) :
    literalString (text ++ rest) = some (characters, rest) := by
  obtain ⟨run⟩ := writes
  simpa [literalString] using quoted_append readsItems_literal run rest

/-! ## Strings on several lines -/

section Block

variable {piece : Parser (List Char)} {Item : List Char → Char → Prop} {Join : List Char → Prop}

/-- The parser reads the pieces of a string on several lines other than ends of lines and
quotes. -/
structure ReadsPieces (piece : Parser (List Char)) (Item : List Char → Char → Prop)
    (Join : List Char → Prop) (quote : Char) : Prop where
  isQuote : quote ∈ ['"', '\'']
  item : ∀ {text character}, Item text character → ∀ rest,
    piece (text ++ rest) = some ([character], rest)
  itemNonempty : ∀ {text character}, Item text character → text ≠ []
  join : ∀ {text}, Join text → ∀ {rest}, EndsSpace rest → piece (text ++ rest) = some ([], rest)
  joinNonempty : ∀ {text}, Join text → text ≠ []
  refuses : ∀ {rest}, rest.head? ∈ [some '\n', some '\r', some quote] → piece rest = none

theorem single_of_some {parser : Parser Char} (reads : parser text = some (character, rest)) :
    single parser text = some ([character], rest) := by
  rw [single, bind_of_some reads]
  rfl

theorem single_of_none {parser : Parser Char} (refuses : parser text = none) :
    single parser text = none := bind_of_none refuses

theorem continuation_append (isJoin : IsJoin text) (ends : EndsSpace rest) :
    continuation (text ++ rest) = some ([], rest) := by
  obtain ⟨areBlanks, isNewline, isSpace⟩ := isJoin
  obtain ⟨read, repeats⟩ := repeats_space isSpace ends
  have stops := isNewline.stops isBlank rfl rfl
  simp only [List.cons_append, List.append_assoc]
  rw [continuation, bind_of_some (char_cons '\\' _),
    bind_of_some (blanks_append areBlanks (stops _)),
    bind_of_some (newline_append isNewline _), bind_of_some repeats.many_eq]
  rfl

theorem readsPieces_basic :
    ReadsPieces (single basicChar <|> continuation) WritesBasic IsJoin '"' where
  isQuote := List.mem_cons_self
  item := fun writes rest => orElse_of_some (single_of_some (readsItems_basic.reads writes rest))
  itemNonempty := readsItems_basic.ne_nil
  join := by
    intro text isJoin rest ends
    have noChar : basicChar (text ++ rest) = none := by
      obtain ⟨areBlanks, isNewline, -⟩ := isJoin
      have noEscape := escape_of_blanks areBlanks isNewline
      simp only [List.cons_append, List.append_assoc]
      exact (orElse_of_none rfl).trans ((seqRight_of_some (char_cons '\\' _)).trans (noEscape _))
    exact (orElse_of_none (single_of_none noChar)).trans (continuation_append isJoin ends)
  joinNonempty := by
    rintro text ⟨-, -, -⟩
    simp
  refuses := by
    intro rest member
    cases rest with
    | nil => simp at member
    | cons head rest =>
        simp only [List.head?_cons, List.mem_cons, Option.some_inj, List.not_mem_nil,
          or_false] at member
        obtain rfl | rfl | rfl := member <;> rfl

theorem readsPieces_literal :
    ReadsPieces (single literalChar) WritesLiteral (fun _ => False) '\'' where
  isQuote := List.mem_cons_of_mem _ List.mem_cons_self
  item := fun writes rest => single_of_some (readsItems_literal.reads writes rest)
  itemNonempty := readsItems_literal.ne_nil
  join := nofun
  joinNonempty := nofun
  refuses := by
    intro rest member
    cases rest with
    | nil => simp at member
    | cons head rest =>
        simp only [List.head?_cons, List.mem_cons, Option.some_inj, List.not_mem_nil,
          or_false] at member
        obtain rfl | rfl | rfl := member <;> rfl

theorem innerQuotes_of_fence (quote : Char) (rest : List Char) :
    innerQuotes quote (quote :: quote :: quote :: rest) = none := by
  have taken : takeSome (· = quote) (quote :: quote :: quote :: rest) =
      some (quote :: quote :: quote :: rest.takeWhile (· = quote), rest.dropWhile (· = quote)) := by
    have run : takeWhile (· = quote) (quote :: quote :: quote :: rest) =
        some (quote :: quote :: quote :: rest.takeWhile (· = quote),
          rest.dropWhile (· = quote)) := by
      simp [takeWhile]
    exact (bind_of_some run).trans rfl
  rw [innerQuotes, bind_of_some taken, if_neg (by simp)]
  rfl

theorem innerQuotes_append {quotes : List Char} (few : quotes ∈ [[quote], [quote, quote]])
    (apart : rest.head? ≠ some quote) :
    innerQuotes quote (quotes ++ rest) = some (quotes, rest) := by
  have stops : Stops (· = quote) rest := by
    intro next found
    have different : next ≠ quote := fun same => apart (same ▸ found)
    simpa using different
  simp only [List.mem_cons, List.not_mem_nil, or_false] at few
  obtain rfl | rfl := few
  · rw [innerQuotes, bind_of_some (takeSome_append (by simp) (by simp) stops)]
    rfl
  · rw [innerQuotes, bind_of_some (takeSome_append (by simp) (by simp) stops)]
    rfl

theorem closingQuotes_append {quotes : List Char}
    (few : quotes ∈ [[], [quote], [quote, quote]]) (apart : rest.head? ≠ some quote) :
    closingQuotes quote (quotes ++ quote :: quote :: quote :: rest) = some (quotes, rest) := by
  simp only [List.mem_cons, List.not_mem_nil, or_false] at few
  cases rest with
  | nil => obtain rfl | rfl | rfl := few <;> simp [closingQuotes]
  | cons head rest =>
      have different : head ≠ quote := fun same => apart (congrArg some same)
      obtain rfl | rfl | rfl := few <;> cases rest <;> simp [closingQuotes, different]

variable (pieces : ReadsPieces piece Item Join quote)

include pieces

theorem ReadsPieces.endsSpace (rest : List Char) : EndsSpace (quote :: rest) := by
  have isQuote := pieces.isQuote
  simp only [List.mem_cons, List.not_mem_nil, or_false] at isQuote
  obtain rfl | rfl := isQuote <;> simp [EndsSpace]

/-- Quotes are read as such only if they are fewer than three. -/
theorem ReadsPieces.orElse_eq (rest : List Char) :
    (piece <|> lineFeed <|> innerQuotes quote) (quote :: rest) =
      innerQuotes quote (quote :: rest) := by
  have noPiece : piece (quote :: rest) = none := pieces.refuses (by simp)
  have noFeed : lineFeed (quote :: rest) = none := bind_of_none <| newline_of_head? fun member =>
    pieces.endsSpace rest (List.mem_append_right [some ' ', some '\t'] member)
  rw [orElse_of_none noPiece, orElse_of_none noFeed]

/-- The inside of a string is read up to the quotes that end it, of which the first may still belong
to it. -/
theorem repeats_lines (lines : WritesLines quote Item Join text characters) (rest : List Char) :
    ∃ read quotes, quotes ∈ [[], [quote], [quote, quote]] ∧ read.flatten ++ quotes = characters ∧
      Repeats (piece <|> lineFeed <|> innerQuotes quote)
        (text ++ quote :: quote :: quote :: rest) read
        (quotes ++ quote :: quote :: quote :: rest) := by
  induction lines with
  | @last quotes few =>
      have refuses : (piece <|> lineFeed <|> innerQuotes quote)
          (quotes ++ quote :: quote :: quote :: rest) = none := by
        have few := few
        simp only [List.mem_cons, List.not_mem_nil, or_false] at few
        obtain rfl | rfl | rfl := few <;>
          exact (pieces.orElse_eq _).trans (innerQuotes_of_fence quote _)
      exact ⟨[], quotes, few, rfl, .done refuses⟩
  | item isItem _ ih =>
      obtain ⟨read, quotes, few, rfl, later⟩ := ih
      rw [List.append_assoc]
      exact ⟨_, quotes, few, by simp, .step (orElse_of_some (pieces.item isItem _))
        (length_lt_append (pieces.itemNonempty isItem) _) later⟩
  | @newline ending more _ isNewline _ ih =>
      obtain ⟨read, quotes, few, rfl, later⟩ := ih
      rw [List.append_assoc]
      have noPiece (behind : List Char) : piece (ending ++ behind) = none := pieces.refuses <|
        List.mem_append_left [some quote] (isNewline.head?_mem behind)
      have feed (behind : List Char) : lineFeed (ending ++ behind) = some (['\n'], behind) :=
        (bind_of_some (newline_append isNewline behind)).trans rfl
      exact ⟨_, quotes, few, by simp, .step
        ((orElse_of_none (noPiece _)).trans (orElse_of_some (feed _)))
        (length_lt_append isNewline.ne_nil _) later⟩
  | @quotes inner more _ run apart _ ih =>
      obtain ⟨read, quotes, few, rfl, later⟩ := ih
      rw [List.append_assoc]
      obtain ⟨head, tail, rfl⟩ : ∃ head tail, more = head :: tail :=
        List.exists_cons_of_ne_nil fun empty => apart (by simp [empty])
      have behind : ((head :: tail) ++ quote :: quote :: quote :: rest).head? ≠ some quote :=
        fun same => apart (by simpa using same)
      have taken := innerQuotes_append run behind
      obtain ⟨inside, innerEq⟩ : ∃ inside, inner = quote :: inside := by
        simp only [List.mem_cons, List.not_mem_nil, or_false] at run
        obtain rfl | rfl := run <;> exact ⟨_, rfl⟩
      subst innerEq
      exact ⟨_, quotes, few, by simp, .step ((pieces.orElse_eq _).trans taken)
        (length_lt_append (List.cons_ne_nil _ _) _) later⟩
  | @join text more _ isJoin apart _ ih =>
      obtain ⟨read, quotes, few, rfl, later⟩ := ih
      rw [List.append_assoc]
      have ends : EndsSpace (more ++ quote :: quote :: quote :: rest) := by
        cases more with
        | nil => exact pieces.endsSpace _
        | cons head tail => exact apart
      exact ⟨_, quotes, few, by simp, .step (orElse_of_some (pieces.join isJoin ends))
        (length_lt_append (pieces.joinNonempty isJoin) _) later⟩

theorem multiLine_append (block : WritesBlock quote Item Join text characters)
    (apart : rest.head? ≠ some quote) :
    multiLine quote piece (text ++ rest) = some (characters, rest) := by
  have front (more : List Char) := word_append [quote, quote, quote] more
  cases block with
  | @sameLine text _ noNewline lines =>
      obtain ⟨read, quotes, few, rfl, repeats⟩ := repeats_lines pieces lines rest
      have noFeed : newline (text ++ quote :: quote :: quote :: rest) = none := by
        apply newline_of_head?
        cases text with
        | nil => exact fun member =>
            pieces.endsSpace _ (List.mem_append_right [some ' ', some '\t'] member)
        | cons head tail => exact noNewline
      simp only [List.append_assoc, List.cons_append, List.nil_append] at front ⊢
      rw [multiLine, bind_of_some (front _), bind_of_some (optional_of_none noFeed),
        bind_of_some repeats.many_eq, bind_of_some (closingQuotes_append few apart)]
      rfl
  | nextLine isNewline lines =>
      obtain ⟨read, quotes, few, rfl, repeats⟩ := repeats_lines pieces lines rest
      simp only [List.append_assoc, List.cons_append, List.nil_append] at front ⊢
      rw [multiLine, bind_of_some (front _),
        bind_of_some (optional_of_some (newline_append isNewline _)),
        bind_of_some repeats.many_eq, bind_of_some (closingQuotes_append few apart)]
      rfl

end Block

/-! ## Any string -/

/-- What may not stand behind a string: another quote. -/
def EndsString (rest : List Char) : Prop := rest.head? ∉ [some '"', some '\'']

theorem string_append (writes : WritesString text characters) (ends : EndsString rest) :
    string (text ++ rest) = some (String.ofList characters, rest) := by
  apply (bind_of_some _).trans rfl
  have noBasic : rest.head? ≠ some '"' := head?_ne_of_not_mem ends (by simp)
  have noLiteral : rest.head? ≠ some '\'' := head?_ne_of_not_mem ends (by simp)
  have otherBlock (tail : List Char) : multiLineLiteralString ('"' :: tail) = none := rfl
  have otherBasicBlock (tail : List Char) : multiLineBasicString ('\'' :: tail) = none := rfl
  have otherBasic (tail : List Char) : basicString ('\'' :: tail) = none := rfl
  cases writes with
  | basic basic =>
      have read := basicString_append basic rest
      obtain ⟨run⟩ := basic
      have noBlock := word_of_quoted readsItems_basic run noBasic
      simp only [List.cons_append, List.append_assoc, List.nil_append] at read ⊢
      have noLines : multiLineBasicString _ = none := bind_of_none noBlock
      rw [orElse_of_none noLines, orElse_of_none (otherBlock _)]
      exact orElse_of_some read
  | literal literal =>
      have read := literalString_append literal rest
      obtain ⟨run⟩ := literal
      have noBlock := word_of_quoted readsItems_literal run noLiteral
      simp only [List.cons_append, List.append_assoc, List.nil_append] at read ⊢
      have noLines : multiLineLiteralString _ = none := bind_of_none noBlock
      rw [orElse_of_none (otherBasicBlock _), orElse_of_none noLines, orElse_of_none (otherBasic _)]
      exact read
  | basicBlock block => exact orElse_of_some (multiLine_append readsPieces_basic block noBasic)
  | literalBlock block =>
      have read := multiLine_append readsPieces_literal block noLiteral
      have otherHead : multiLineBasicString (text ++ rest) = none := by
        cases block <;> exact otherBasicBlock _
      exact (orElse_of_none otherHead).trans (orElse_of_some read)

end Parser

end ByteCursor.Toml
