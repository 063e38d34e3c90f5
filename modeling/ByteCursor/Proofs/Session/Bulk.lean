import ByteCursor.Proofs.Session.Conservation
import ByteCursor.Proofs.Session.Script

/-!
# Steps in bulk

A slice, a pattern, a run of spaces and the octets that the raw view hands over are each taken in
one step, and they could also be taken octet by octet.  Each of these steps has a test of its own
for the end of the text, and each of them agrees with the smaller steps.

Both ways are told by what has to stand there: the smaller steps pass over it one after the other
only if it does, and if it does, both read it.
-/

namespace ByteCursor

/-- Where the step succeeds it passes over octets that fit. -/
structure Step.PassesOver (step : Step) (Fits : Bytes → Prop) : Prop where
  forward : step.IsForward
  fits : ∀ session : Session, session.Valid → (session.answer step).succeeds = true →
    Fits (session.segment step)

namespace Session

/-- Every step of the run is answered with a reply. -/
def AllSucceed (session : Session) (steps : List Step) : Prop :=
  ∀ answer ∈ (session.run steps).1, answer.succeeds = true

/-- One step does what the other steps do one after the other, and it is undone if one of them
fails.  What its answer tells is related to their replies. -/
structure Bundles (session : Session) (bulk : Step) (steps : List Step)
    (Tells : Answer → List Reply → Prop) : Prop where
  succeeds_iff : (session.answer bulk).succeeds = true ↔ session.AllSucceed steps
  agrees : session.AllSucceed steps →
    (session.after bulk).cursor = (session.run steps).2.cursor ∧
      ∃ replies, (session.run steps).1.map Answer.result = replies.map .ok ∧
        Tells (session.answer bulk) replies
  undone : ¬ session.AllSucceed steps → (session.after bulk).cursor = session.cursor

/-- Two steps have one effect: the same replies, and the same cursor in any case. -/
structure Agree (session : Session) (first second : Step) : Prop where
  reply_iff : ∀ reply, (session.answer first).result = .ok reply ↔
    (session.answer second).result = .ok reply
  cursor : (session.after first).cursor = (session.after second).cursor

/-- Steps that take several octets agree with steps that take fewer. -/
structure BulkAgrees (session : Session) : Prop where
  slice : ∀ size, 0 < size →
    session.Bundles (.call (.readSlice size)) (List.replicate size (.call .readByte))
      fun answer replies =>
        ∃ slice, answer.result = .ok (.slice slice) ∧ replies = slice.map .byte
  advance : ∀ size,
    session.Bundles (.raw (.advance size)) (List.replicate size (.call .readByte))
      fun answer _ => answer.result = .ok .nothing
  fill : ∀ output,
    session.Bundles (.raw (.fill output)) (List.replicate output.length (.call .readByte))
      fun answer replies => answer.result = .ok .nothing ∧ replies = answer.output.map .byte
  pattern : ∀ pattern, pattern ≠ [] →
    session.Bundles (.call (.skipPattern pattern)) (pattern.map fun byte => .call (.skipByte byte))
      fun answer replies =>
        answer.result = .ok .nothing ∧ replies = pattern.map fun _ => .nothing
  spaces : session.cursor.isEmpty = false → ∃ count,
    let skip : Step := .call (.skipByte 0x20)
    let skipped := session.run (List.replicate count skip)
    (session.answer (.call .trimSpaces)).result = .ok (.count count) ∧
      session.AllSucceed (List.replicate count skip) ∧
      (skipped.2.answer skip).succeeds = false ∧
      (session.after (.call .trimSpaces)).cursor = skipped.2.cursor
  skip : ∀ byte, session.Agree (.call (.skipPattern [byte])) (.call (.skipByte byte))
  skipPast : ∀ byte,
    session.Agree (.call (.skipPastPattern [byte])) (.call (.skipPastByte byte))
  slices : ∀ first second, 0 < first → 0 < second →
    session.Bundles (.call (.readSlice (first + second)))
      [.call (.readSlice first), .call (.readSlice second)]
      fun answer replies => ∃ front back,
        answer.result = .ok (.slice (front ++ back)) ∧ replies = [.slice front, .slice back]
  patterns : ∀ first second, first ≠ [] → second ≠ [] →
    session.Bundles (.call (.skipPattern (first ++ second)))
      [.call (.skipPattern first), .call (.skipPattern second)]
      fun answer replies => answer.result = .ok .nothing ∧ replies = [.nothing, .nothing]
  /-- Only the slice asks whether there is any text left. -/
  noSlice : (session.answer (.call (.readSlice 0))).succeeds = false ↔
    session.cursor.isEmpty = true
  noAdvance : (session.answer (.raw (.advance 0))).succeeds = true
  noFill : (session.answer (.raw (.fill []))).succeeds = true

variable {session : Session} {step : Step} {steps : List Step}

/-! ## Runs without a failure -/

@[simp] theorem allSucceed_cons : session.AllSucceed (step :: steps) ↔
    (session.answer step).succeeds = true ∧ (session.after step).AllSucceed steps := by
  rw [AllSucceed, run_cons, List.forall_mem_cons]
  rfl

@[simp] theorem allSucceed_nil : session.AllSucceed [] := fun _ impossible => nomatch impossible

@[simp] theorem allSucceed_singleton :
    session.AllSucceed [step] ↔ (session.answer step).succeeds = true := by
  rw [allSucceed_cons, and_iff_left allSucceed_nil]

theorem succeeds_of_ok {reply : Reply} (result : (session.answer step).result = .ok reply) :
    (session.answer step).succeeds = true := by
  rw [Answer.succeeds, result]
  rfl

theorem allSucceed_of_results {replies : List Reply}
    (results : (session.run steps).1.map Answer.result = replies.map .ok) :
    session.AllSucceed steps := by
  intro answer member
  have known : answer.result ∈ replies.map Except.ok := results ▸ List.mem_map_of_mem member
  obtain ⟨reply, -, result⟩ := List.mem_map.mp known
  rw [Answer.succeeds, ← result]
  rfl

section Items

variable {α : Type} {items : List α} {step : α → Step} {Fits : α → Bytes → Prop}

/-- Steps that all succeed pass over one segment each, and each segment fits its step. -/
theorem AllSucceed.forall₂_segments
    (passes : ∀ item ∈ items, (step item).PassesOver (Fits item)) (valid : session.Valid)
    (succeed : session.AllSucceed (items.map step)) :
    List.Forall₂ Fits items (session.segments (items.map step)) := by
  -- The session changes with every step, but what is known of a step holds in every session.
  induction items generalizing session with
  | nil => exact .nil
  | cons item items ih =>
      rw [List.forall_mem_cons] at passes
      rw [List.map_cons, allSucceed_cons] at succeed
      rw [List.map_cons, segments, if_pos succeed.1]
      exact .cons (passes.1.fits session valid succeed.1)
        (ih passes.2 (valid.after _) succeed.2)

theorem remaining_eq_segments_append_of_passesOver
    (passes : ∀ item ∈ items, (step item).PassesOver (Fits item)) (valid : session.Valid) :
    session.cursor.remaining = (session.segments (items.map step)).flatten ++
      (session.run (items.map step)).2.cursor.remaining := by
  apply remaining_eq_segments_append valid
  rw [List.forall_mem_map]
  exact fun item member => (passes item member).forward

/-- Steps of known sizes succeed one after the other only if there are so many octets. -/
theorem AllSucceed.sum_le_available {size : α → Nat}
    (passes : ∀ item ∈ items, (step item).PassesOver fun token => token.length = size item)
    (valid : session.Valid) (succeed : session.AllSucceed (items.map step)) :
    (items.map size).sum ≤ session.cursor.available := by
  have sizes := succeed.forall₂_segments passes valid
  have sizesEq : (session.segments (items.map step)).map List.length = items.map size := by
    rw [← List.forall₂_eq_eq_eq, List.forall₂_map_left_iff, List.forall₂_map_right_iff]
    exact sizes.flip
  have split := congrArg List.length (remaining_eq_segments_append_of_passesOver passes valid)
  rw [Cursor.length_remaining, List.length_append, List.length_flatten, sizesEq] at split
  exact Nat.le.intro split.symm

/-- Steps with known tokens succeed one after the other only if these stand there. -/
theorem AllSucceed.flatMap_isPrefix {token : α → Bytes}
    (passes : ∀ item ∈ items, (step item).PassesOver fun octets => octets = token item)
    (valid : session.Valid) (succeed : session.AllSucceed (items.map step)) :
    items.flatMap token <+: session.cursor.remaining := by
  have tokens := succeed.forall₂_segments passes valid
  have tokensEq : session.segments (items.map step) = items.map token := by
    rw [← List.forall₂_eq_eq_eq, List.forall₂_map_right_iff]
    exact tokens.flip
  have split := remaining_eq_segments_append_of_passesOver passes valid
  rw [tokensEq, ← List.flatMap_def] at split
  exact ⟨_, split.symm⟩

end Items

/-! ## One step for several -/

/-- A step bundles others if both sides need the same octets and read them. -/
theorem Bundles.of_reads {bulk : Step} {Tells : Answer → List Reply → Prop} (Stands : Prop)
    (valid : session.Valid) (single : session.AllSucceed [bulk] → Stands)
    (several : session.AllSucceed steps → Stands)
    (read : Stands → ∃ token rest reply replies, session.cursor.remaining = token ++ rest ∧
      bulk.Reads session.cursor.options token rest reply ∧
      Script session.cursor.options rest steps token replies ∧
      ((session.answer bulk).result = .ok reply → session.segment bulk = token →
        Tells (session.answer bulk) replies)) :
    session.Bundles bulk steps Tells := by
  rw [allSucceed_singleton] at single
  constructor
  case succeeds_iff =>
    constructor
    · intro succeeds
      obtain ⟨token, rest, reply, replies, unread, -, script, -⟩ := read (single succeeds)
      exact allSucceed_of_results (script.run valid rfl unread).1
    · intro succeed
      obtain ⟨token, rest, reply, replies, unread, reads, -, -⟩ := read (several succeed)
      exact succeeds_of_ok (reads session valid rfl unread).1
  case agrees =>
    intro succeed
    obtain ⟨token, rest, reply, replies, unread, reads, script, tells⟩ := read (several succeed)
    obtain ⟨answered, moved⟩ := reads session valid rfl unread
    obtain ⟨results, stopped⟩ := script.run valid rfl unread
    exact ⟨moved.trans stopped.symm, replies, results,
      tells answered (segment_eq_token unread moved).1⟩
  case undone =>
    intro failed
    have fails : (session.answer bulk).succeeds = false := by
      rw [← Bool.not_eq_true]
      intro succeeds
      obtain ⟨token, rest, reply, replies, unread, -, script, -⟩ := read (single succeeds)
      exact failed (allSucceed_of_results (script.run valid rfl unread).1)
    exact (similar_after valid fails).cursor

/-- A step that bundles a single one and tells its reply agrees with it. -/
theorem Bundles.agree {bulk : Step}
    (bundles : session.Bundles bulk [step] fun answer replies =>
      ∃ reply, answer.result = .ok reply ∧ replies = [reply])
    (valid : session.Valid) : session.Agree bulk step := by
  have succeeds_iff := bundles.succeeds_iff
  rw [allSucceed_singleton] at succeeds_iff
  cases outcome : (session.answer step).succeeds with
  | true =>
      obtain ⟨moved, replies, results, reply, result, rfl⟩ :=
        bundles.agrees (allSucceed_singleton.mpr outcome)
      have stepResult : (session.answer step).result = .ok reply := List.head_eq_of_cons_eq results
      exact ⟨fun other => by rw [result, stepResult], moved⟩
  | false =>
      have fails : (session.answer bulk).succeeds = false := by
        rw [← Bool.not_eq_true, succeeds_iff, outcome]
        exact Bool.false_ne_true
      obtain ⟨failure, failed⟩ := Answer.exists_failure outcome
      obtain ⟨bulkFailure, bulkFailed⟩ := Answer.exists_failure fails
      refine ⟨fun reply => ?_, ?_⟩
      · rw [failed, bulkFailed]
        exact iff_of_false nofun nofun
      · rw [(similar_after valid fails).cursor, (similar_after valid outcome).cursor]

end Session

/-! ## What the steps pass over -/

namespace Step

variable {Fits : Bytes → Prop}

theorem PassesOver.of_call {call : Call}
    (fits : ∀ token rest reply output, call.Takes token rest reply output → Fits token) :
    (Step.call call).PassesOver Fits where
  forward := trivial
  fits session valid succeeds := by
    obtain ⟨reply, result⟩ := Answer.exists_reply succeeds
    exact fits _ _ _ _ (Session.takes_of_ok valid result)

theorem PassesOver.of_raw {request : RawRequest}
    (fits : ∀ token rest reply output, request.Takes token rest reply output → Fits token) :
    (Step.raw request).PassesOver Fits where
  forward := trivial
  fits session valid succeeds := by
    obtain ⟨reply, result⟩ := Answer.exists_reply succeeds
    exact fits _ _ _ _ (Session.takes_of_raw_ok valid result)

theorem passesOver_readByte :
    (Step.call .readByte).PassesOver fun token => token.length = 1 := by
  apply PassesOver.of_call
  rintro token rest reply output ⟨⟩
  rfl

theorem passesOver_readSlice (size : Nat) :
    (Step.call (.readSlice size)).PassesOver fun token => token.length = size := by
  apply PassesOver.of_call
  rintro token rest reply output ⟨⟩
  rfl

theorem passesOver_advance (size : Nat) :
    (Step.raw (.advance size)).PassesOver fun token => token.length = size := by
  apply PassesOver.of_raw
  rintro token rest reply output ⟨⟩
  rfl

theorem passesOver_fill (buffer : Bytes) :
    (Step.raw (.fill buffer)).PassesOver fun token => token.length = buffer.length := by
  apply PassesOver.of_raw
  intro token rest reply output takes
  cases takes with
  | fill length => exact length

theorem passesOver_skipByte (byte : UInt8) :
    (Step.call (.skipByte byte)).PassesOver fun token => token = [byte] := by
  apply PassesOver.of_call
  rintro token rest reply output ⟨⟩
  rfl

theorem passesOver_skipPattern (pattern : Bytes) :
    (Step.call (.skipPattern pattern)).PassesOver fun token => token = pattern := by
  apply PassesOver.of_call
  rintro token rest reply output ⟨⟩
  rfl

theorem passesOver_skipPastByte (stop : UInt8) :
    (Step.call (.skipPastByte stop)).PassesOver fun token => stop ∈ token := by
  apply PassesOver.of_call
  intro token rest reply output takes
  exact Call.IsUntil.skip.mem_of_takes takes

theorem passesOver_skipPastPattern (pattern : Bytes) :
    (Step.call (.skipPastPattern pattern)).PassesOver fun token => pattern <:+ token := by
  apply PassesOver.of_call
  rintro token rest reply output ⟨⟩
  exact List.suffix_append _ _

end Step

namespace Session

variable {session : Session} {options : Options} {rest : Bytes} {bulk step : Step}
  {Tells : Answer → List Reply → Prop}

theorem size_le_available {size : Nat}
    (passes : step.PassesOver fun token => token.length = size) (valid : session.Valid)
    (succeeds : (session.answer step).succeeds = true) : size ≤ session.cursor.available := by
  have used := available_eq_add valid passes.forward
  rw [passes.fits session valid succeeds] at used
  exact Nat.le.intro used.symm

theorem token_isPrefix {token : Bytes} (passes : step.PassesOver fun octets => octets = token)
    (valid : session.Valid) (succeeds : (session.answer step).succeeds = true) :
    token <+: session.cursor.remaining := by
  have split := remaining_eq_segment_append valid passes.forward
  rw [passes.fits session valid succeeds] at split
  exact ⟨_, split.symm⟩

/-! ## Octet by octet -/

theorem size_le_available_of_readBytes {size : Nat} (valid : session.Valid)
    (succeed : session.AllSucceed (List.replicate size (.call .readByte))) :
    size ≤ session.cursor.available := by
  -- The items only count the reads.
  have same : (List.range size).map (fun _ => Step.call .readByte) =
      List.replicate size (.call .readByte) := by
    rw [List.map_const', List.length_range]
  rw [← same] at succeed
  have total := succeed.sum_le_available (fun _ _ => Step.passesOver_readByte) valid
  rw [List.map_const', List.length_range, List.sum_replicate_nat, Nat.mul_one] at total
  exact total

theorem script_readBytes (slice : Bytes) :
    Script options rest (List.replicate slice.length (.call .readByte)) slice
      (slice.map .byte) := by
  have script : Script options rest _ (slice.flatMap fun byte => [byte]) _ :=
    .replicate fun byte _ _ => Step.reads_readByte byte
  rw [List.flatMap_singleton'] at script
  exact script

theorem script_skipBytes (pattern : Bytes) :
    Script options rest (pattern.map fun byte => .call (.skipByte byte)) pattern
      (pattern.map fun _ => .nothing) := by
  have script : Script options rest _ (pattern.flatMap fun byte => [byte]) _ :=
    .map fun byte _ _ => Step.reads_skipByte byte
  rw [List.flatMap_singleton'] at script
  exact script

/-- A step that takes so many octets does what reading them one by one does. -/
theorem bundles_readBytes {size : Nat} (reply : Bytes → Reply) (valid : session.Valid)
    (passes : bulk.PassesOver fun token => token.length = size)
    (reads : ∀ token rest, token.length = size →
      bulk.Reads session.cursor.options token rest (reply token))
    (tells : ∀ token, (session.answer bulk).result = .ok (reply token) →
      session.segment bulk = token → Tells (session.answer bulk) (token.map .byte)) :
    session.Bundles bulk (List.replicate size (.call .readByte)) Tells := by
  refine .of_reads (size ≤ session.cursor.available) valid ?single ?several ?read
  case single =>
    rw [allSucceed_singleton]
    exact size_le_available passes valid
  case several => exact size_le_available_of_readBytes valid
  case read =>
    intro fits
    obtain ⟨token, rest, unread, rfl, -⟩ := Cursor.exists_slice fits
    exact ⟨token, rest, reply token, _, unread, reads token rest rfl, script_readBytes token,
      tells token⟩

theorem bundles_readSlice (valid : session.Valid) {size : Nat} (positive : 0 < size) :
    session.Bundles (.call (.readSlice size)) (List.replicate size (.call .readByte))
      fun answer replies =>
        ∃ slice, answer.result = .ok (.slice slice) ∧ replies = slice.map .byte := by
  refine bundles_readBytes .slice valid (Step.passesOver_readSlice size) ?reads ?tells
  case reads =>
    rintro token rest rfl
    apply Step.reads_readSlice
    exact List.append_ne_nil_of_left_ne_nil (List.length_pos_iff.mp positive) rest
  case tells =>
    intro token result _
    exact ⟨token, result, rfl⟩

theorem bundles_advance (valid : session.Valid) (size : Nat) :
    session.Bundles (.raw (.advance size)) (List.replicate size (.call .readByte))
      fun answer _ => answer.result = .ok .nothing := by
  refine bundles_readBytes (fun _ => .nothing) valid (Step.passesOver_advance size) ?reads ?tells
  case reads =>
    rintro token rest rfl
    exact Step.reads_advance token
  case tells =>
    intro token result _
    exact result

theorem bundles_fill (valid : session.Valid) (output : Bytes) :
    session.Bundles (.raw (.fill output)) (List.replicate output.length (.call .readByte))
      fun answer replies =>
        answer.result = .ok .nothing ∧ replies = answer.output.map .byte := by
  refine bundles_readBytes (fun _ => .nothing) valid (Step.passesOver_fill output) ?reads ?tells
  case reads =>
    intro token rest length
    exact Step.reads_fill length
  case tells =>
    rintro token result rfl
    refine ⟨result, ?_⟩
    have takes := takes_of_raw_ok valid result
    generalize session.segment (.raw (.fill output)) = segment at takes
    cases takes
    rfl

/-! ## Patterns and spaces -/

theorem bundles_skipPattern (valid : session.Valid) {pattern : Bytes} (nonempty : pattern ≠ []) :
    session.Bundles (.call (.skipPattern pattern)) (pattern.map fun byte => .call (.skipByte byte))
      fun answer replies =>
        answer.result = .ok .nothing ∧ replies = pattern.map fun _ => .nothing := by
  refine .of_reads (pattern <+: session.cursor.remaining) valid ?single ?several ?read
  case single =>
    rw [allSucceed_singleton]
    exact token_isPrefix (Step.passesOver_skipPattern pattern) valid
  case several =>
    intro succeed
    have starts := succeed.flatMap_isPrefix (fun byte _ => Step.passesOver_skipByte byte) valid
    rw [List.flatMap_singleton'] at starts
    exact starts
  case read =>
    rintro ⟨rest, unread⟩
    exact ⟨pattern, rest, .nothing, _, unread.symm, Step.reads_skipPattern nonempty,
      script_skipBytes pattern, fun result _ => ⟨result, rfl⟩⟩

theorem trimSpaces_eq_skipSpaces (valid : session.Valid)
    (unfinished : session.cursor.isEmpty = false) : ∃ count,
    let skip : Step := .call (.skipByte 0x20)
    let skipped := session.run (List.replicate count skip)
    (session.answer (.call .trimSpaces)).result = .ok (.count count) ∧
      session.AllSucceed (List.replicate count skip) ∧
      (skipped.2.answer skip).succeeds = false ∧
      (session.after (.call .trimSpaces)).cursor = skipped.2.cursor := by
  let count := (session.cursor.remaining.takeWhile Bytes.isSpace).length
  let rest := session.cursor.remaining.dropWhile Bytes.isSpace
  have unread : session.cursor.remaining = List.replicate count 0x20 ++ rest :=
    Bytes.eq_spaces_append _
  have longest : rest.head? ≠ some 0x20 := Bytes.head?_dropWhile_isSpace _
  have nonempty : List.replicate count 0x20 ++ rest ≠ [] := by
    rw [← unread, ne_eq, Cursor.remaining_eq_nil_iff]
    exact Cursor.isEmpty_eq_false_iff.mp unfinished
  have script : Script session.cursor.options rest _ _ _ :=
    script_skipBytes (List.replicate count 0x20)
  rw [List.map_replicate] at script
  obtain ⟨results, stopped⟩ := script.run valid rfl unread
  obtain ⟨answered, moved⟩ :=
    Step.reads_trimSpaces_longest count longest nonempty session valid rfl unread
  refine ⟨count, answered, allSucceed_of_results results, ?_, moved.trans stopped.symm⟩
  rw [← Bool.not_eq_true]
  intro succeeds
  obtain ⟨behind, next⟩ :=
    token_isPrefix (Step.passesOver_skipByte 0x20) (valid.run _) succeeds
  rw [script.remaining_run valid rfl unread] at next
  rw [← next] at longest
  exact longest rfl

theorem agree_skipPattern (valid : session.Valid) (byte : UInt8) :
    session.Agree (.call (.skipPattern [byte])) (.call (.skipByte byte)) := by
  have bundles := bundles_skipPattern valid (List.cons_ne_nil byte [])
  refine Bundles.agree ⟨bundles.succeeds_iff, ?_, bundles.undone⟩ valid
  intro succeed
  obtain ⟨moved, replies, results, result, rfl⟩ := bundles.agrees succeed
  exact ⟨moved, _, results, .nothing, result, rfl⟩

theorem agree_skipPastPattern (valid : session.Valid) (stop : UInt8) :
    session.Agree (.call (.skipPastPattern [stop])) (.call (.skipPastByte stop)) := by
  -- The octet has to stand anywhere, and both searches then stop at its first occurrence.
  refine Bundles.agree (.of_reads (stop ∈ session.cursor.remaining) valid ?single ?several ?read)
    valid
  case single =>
    rw [allSucceed_singleton]
    intro succeeds
    have passes := Step.passesOver_skipPastPattern [stop]
    have ends := passes.fits session valid succeeds
    rw [remaining_eq_segment_append valid passes.forward]
    exact List.mem_append_left _ (ends.mem List.mem_cons_self)
  case several =>
    rw [allSucceed_singleton]
    intro succeeds
    have passes := Step.passesOver_skipPastByte stop
    rw [remaining_eq_segment_append valid passes.forward]
    exact List.mem_append_left _ (passes.fits session valid succeeds)
  case read =>
    intro present
    obtain ⟨before, rest, unread, absent⟩ := List.eq_append_cons_of_mem present
    have noPattern : ¬ [stop] <:+: before := by
      rw [List.singleton_infix_iff]
      exact absent
    have reads : (Step.call (.skipPastPattern [stop])).Reads session.cursor.options
        (before ++ [stop]) rest .nothing :=
      Step.reads_skipPastPattern List.not_mem_nil noPattern
    rw [List.append_cons] at unread
    exact ⟨before ++ [stop], rest, .nothing, _, unread, reads,
      .singleton (Step.reads_skipPastByte absent), fun result _ => ⟨.nothing, result, rfl⟩⟩

/-! ## Two steps in one -/

theorem bundles_readSlices (valid : session.Valid) {first second : Nat}
    (firstPositive : 0 < first) (secondPositive : 0 < second) :
    session.Bundles (.call (.readSlice (first + second)))
      [.call (.readSlice first), .call (.readSlice second)]
      fun answer replies => ∃ front back,
        answer.result = .ok (.slice (front ++ back)) ∧ replies = [.slice front, .slice back] := by
  refine .of_reads (first + second ≤ session.cursor.available) valid ?single ?several ?read
  case single =>
    rw [allSucceed_singleton]
    exact size_le_available (Step.passesOver_readSlice _) valid
  case several =>
    let sizes := [first, second]
    intro (succeed : session.AllSucceed (sizes.map fun size => .call (.readSlice size)))
    exact succeed.sum_le_available (fun size _ => Step.passesOver_readSlice size) valid
  case read =>
    intro fits
    obtain ⟨front, back, rest, unread, rfl, rfl⟩ := Cursor.exists_slices fits
    rw [← List.length_append]
    have frontNonempty : front ≠ [] := List.length_pos_iff.mp firstPositive
    have backNonempty : back ≠ [] := List.length_pos_iff.mp secondPositive
    exact ⟨front ++ back, rest, .slice (front ++ back), _, unread,
      Step.reads_readSlice (by simp [frontNonempty]),
      (Script.singleton (Step.reads_readSlice (by simp [frontNonempty]))).append
        (.singleton (Step.reads_readSlice (by simp [backNonempty]))),
      fun result _ => ⟨front, back, result, rfl⟩⟩

theorem bundles_skipPatterns (valid : session.Valid) {first second : Bytes}
    (firstNonempty : first ≠ []) (secondNonempty : second ≠ []) :
    session.Bundles (.call (.skipPattern (first ++ second)))
      [.call (.skipPattern first), .call (.skipPattern second)]
      fun answer replies => answer.result = .ok .nothing ∧ replies = [.nothing, .nothing] := by
  refine .of_reads (first ++ second <+: session.cursor.remaining) valid ?single ?several ?read
  case single =>
    rw [allSucceed_singleton]
    exact token_isPrefix (Step.passesOver_skipPattern _) valid
  case several =>
    let patterns := [first, second]
    intro (succeed : session.AllSucceed
      (patterns.map fun pattern => .call (.skipPattern pattern)))
    have starts :=
      succeed.flatMap_isPrefix (fun pattern _ => Step.passesOver_skipPattern pattern) valid
    rw [List.flatMap_cons, List.flatMap_singleton] at starts
    exact starts
  case read =>
    rintro ⟨rest, unread⟩
    have nonempty : first ++ second ≠ [] := List.append_ne_nil_of_left_ne_nil firstNonempty _
    exact ⟨first ++ second, rest, .nothing, _, unread.symm, Step.reads_skipPattern nonempty,
      (Script.singleton (Step.reads_skipPattern firstNonempty)).append
        (.singleton (Step.reads_skipPattern secondNonempty)),
      fun result _ => ⟨result, rfl⟩⟩

/-! ## Agreement -/

/-- A slice of no octets is refused at the end of the text only. -/
theorem fails_readSlice_zero_iff (valid : session.Valid) :
    (session.answer (.call (.readSlice 0))).succeeds = false ↔
      session.cursor.isEmpty = true := by
  cases empty : session.cursor.isEmpty with
  | true =>
      have validStart : ((Call.readSlice 0).start session.cursor).cursor.Valid := valid.cursor
      have scanned := Scan.run_readSlice 0 validStart
      have exhausted := (Cursor.isEmpty_iff _).mp empty
      rw [Call.cursor_start, if_neg fun readable => readable.2 exhausted] at scanned
      have misses : (Call.readSlice 0).Misses session.cursor :=
        Call.misses_of_missed (Scan.run_map_of_missed scanned)
      have failed : (session.answer (.call (.readSlice 0))).result = _ := misses.result
      rw [Answer.succeeds, failed]
      exact iff_of_true rfl rfl
  | false =>
      have nonempty : ([] : Bytes) ++ session.cursor.remaining ≠ [] := by
        rw [List.nil_append, ne_eq, Cursor.remaining_eq_nil_iff]
        exact Cursor.isEmpty_eq_false_iff.mp empty
      have reads : (Step.call (.readSlice 0)).Reads session.cursor.options []
          session.cursor.remaining (.slice []) := Step.reads_readSlice nonempty
      rw [succeeds_of_ok (reads session valid rfl rfl).1]
      simp

/-- Steps that take several octets succeed exactly where the smaller steps succeed one after the
other.  They then stop at the same place and tell the same octets, and they are undone if one of
the smaller steps fails, even if the earlier ones succeed. -/
theorem bulk_steps_agree (reachable : session.Reachable) : session.BulkAgrees := by
  have valid := reachable.valid
  constructor
  case slice => exact fun size positive => bundles_readSlice valid positive
  case advance => exact bundles_advance valid
  case fill => exact bundles_fill valid
  case pattern => exact fun pattern nonempty => bundles_skipPattern valid nonempty
  case spaces => exact trimSpaces_eq_skipSpaces valid
  case skip => exact agree_skipPattern valid
  case skipPast => exact agree_skipPastPattern valid
  case slices => exact fun _ _ firstPositive secondPositive =>
    bundles_readSlices valid firstPositive secondPositive
  case patterns => exact fun _ _ firstNonempty secondNonempty =>
    bundles_skipPatterns valid firstNonempty secondNonempty
  case noSlice => exact fails_readSlice_zero_iff valid
  case noAdvance => exact (bundles_advance valid 0).succeeds_iff.mpr allSucceed_nil
  case noFill => exact (bundles_fill valid []).succeeds_iff.mpr allSucceed_nil

/-- Of five octets two are read before four more, which is one too many: the slice of two is read
on its own, and a slice of six takes nothing. -/
theorem bulk_steps_agree_rolled_back :
    let session : Session :=
      { cursor := { bytes := [0x20, 0x20, 0x61, 0x62, 0x63], position := 0, options := {} } }
    let bulk : Step := .call (.readSlice (2 + 4))
    session.Reachable ∧
      (session.answer (.call (.readSlice 2))).result = .ok (.slice [0x20, 0x20]) ∧
      (session.answer bulk).succeeds = false ∧ (session.after bulk).cursor = session.cursor := by
  intro session bulk
  have reachable : session.Reachable := .ofText (by decide) (by decide) {}
  have slices := (bulk_steps_agree reachable).slices 2 4 (by decide) (by decide)
  have fails : (session.answer bulk).succeeds = false := by decide
  refine ⟨reachable, by decide, fails, slices.undone ?_⟩
  rw [← slices.succeeds_iff, Bool.not_eq_true]
  exact fails

end Session

end ByteCursor
