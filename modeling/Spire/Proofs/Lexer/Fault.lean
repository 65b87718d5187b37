import Spire.Proofs.Lexer.Beginning
import Spire.Proofs.Lexer.Names
import Mathlib.Data.List.DropRight

/-!
# Where the lexer stops

A lexer may be told to split characters out of words that stand for no operator. It hands out
tokens until it comes to the first such character in a word of the source, and stops there with a
fault. Whatever stands in strings and comments does not count, and neither do characters beyond
the basic plane, which are never split out.

In front of a fault the operators cannot be longer than one character: a longer operator would
have to be all that is left of a row of operator characters, the faulty one included, and each
character of an operator is an operator by itself. So the row in front of the fault is handed out
character by character.

## Main definitions

* `Lexer.Faulty` — the chosen characters that stand for no operator
* `Lexer.FaultSite` — the first faulty character in the words of a source, and what is around it
* `OperatorRun.OneByOne` — operators of one character each that make up a run

## Main results

* `OperatorRun.split_of_unspelled` — the tokens inside a word in front of its first faulty character
* `Lexer.tokens_of_site` — the tokens of a source in front of the fault
* `Lexer.stops_at_first_faulty` — when the lexer stops, where, and what it has handed out by then
-/

namespace Spire

namespace Spelling

variable {text : List Char} {kind : Token.Kind} {c : Char}

/-- Each character of an operator is an operator by itself. -/
theorem operator?_singleton_ne_none (found : operator? text = some kind) (inside : c ∈ text) :
    operator? [c] ≠ none := by
  have characters : operators.all (fun entry =>
      entry.1.toList.all fun d => (operator? [d]).isSome) = true := by
    decide
  have spelled := List.all_eq_true.mp characters _ (mem_operators found)
  rw [String.toList_ofList] at spelled
  exact Option.isSome_iff_ne_none.mp (List.all_eq_true.mp spelled c inside)

end Spelling

namespace OperatorRun

variable {isOperator : Char → Bool} {p : Position} {run head behind word : List Char} {c : Char}
  {ts : List Token}

instance : DecidablePred (IsUnspelled isOperator) := fun c =>
  inferInstanceAs (Decidable (isOperator c = true ∧ Spelling.operator? [c] = none))

/-! ### A single run -/

/-- Operators of one character each, which make up a run. -/
def OneByOne (run : List Char) (ts : List Token) : Prop :=
  List.Forall₂ (fun c t => t.raw = String.ofList [c] ∧ Spelling.operator? [c] = some t.kind) run ts

/-- In front of a character that is no operator by itself, a run is read character by character. -/
theorem read_of_unspelled (p : Position) (behind : List Char)
    (spelled : ∀ d ∈ run, Spelling.operator? [d] ≠ none)
    (unspelled : Spelling.operator? [c] = none) :
    ∃ ts, read p (run ++ c :: behind) = ⟨ts, some ⟨c⟩⟩ ∧ OneByOne run ts := by
  -- What is left of the run is no operator as a whole as long as the faulty character is in it.
  have notWhole (rest : List Char) (inside : c ∈ rest) : Spelling.operator? rest = none := by
    cases found : Spelling.operator? rest with
    | none => rfl
    | some kind => exact absurd unspelled (Spelling.operator?_singleton_ne_none found inside)
  induction run generalizing p with
  | nil =>
    refine ⟨[], ?_, .nil⟩
    rw [List.nil_append, read, notWhole _ (List.mem_cons_self ..), unspelled]
  | cons d run ih =>
    have whole : Spelling.operator? (d :: (run ++ c :: behind)) = none := by
      apply notWhole
      simp
    obtain ⟨kind, single⟩ := Option.ne_none_iff_exists'.mp (spelled d (List.mem_cons_self ..))
    obtain ⟨ts, others, each⟩ :=
      ih (p.right 1) fun e member => spelled e (List.mem_cons_of_mem _ member)
    refine ⟨⟨kind, String.ofList [d], p⟩ :: ts, ?_, .cons ⟨rfl, single⟩ each⟩
    rw [List.cons_append, read, whole, single, others]
    rfl

/-- Operators of one character each are left alone when words are named and noise is dropped. -/
theorem OneByOne.kept (each : OneByOne run ts) :
    ts.map Lexer.classify = ts ∧ ts.filter Lexer.isContent = ts := by
  induction each with
  | nil => exact ⟨rfl, rfl⟩
  | @cons c t run ts single _ ih =>
    obtain ⟨-, -, known, content⟩ := Spelling.kind_of_operator single.2
    rw [List.map_cons, List.filter_cons_of_pos (Lexer.isContent_iff.mpr content),
      Lexer.classify_of_not_unknown known, ih.1, ih.2]
    exact ⟨rfl, rfl⟩

/-! ### Words -/

theorem readAll_append (p : Position) (runs others : List (List Char)) :
    readAll isOperator p (runs ++ others) =
      readAll isOperator p runs ++ readAll isOperator (p.right runs.flatten.length) others := by
  induction runs generalizing p with
  | nil => rfl
  | cons run runs ih =>
    rw [List.cons_append, readAll, readAll, ih, Transcript.append_assoc, Position.right_right,
      List.flatten_cons, List.length_append]

/-- A word falls apart where operator characters and others meet. -/
theorem split_append_split (p : Position) (front rest : List Char)
    (differ : ∀ c ∈ front.getLast?, ∀ d ∈ rest.head?, isOperator c ≠ isOperator d) :
    split isOperator p (front ++ rest) =
      split isOperator p front ++ split isOperator (p.right front.length) rest := by
  have apart : runs isOperator (front ++ rest) = runs isOperator front ++ runs isOperator rest := by
    apply List.splitBy_append
    intro c isLast d isFirst
    exact beq_eq_false_iff_ne.mpr (differ c isLast d isFirst)
  have whole : (runs isOperator front).flatten = front := List.flatten_splitBy _ _
  rw [split, apart, readAll_append, whole]
  rfl

/-- A word without faulty characters is split without a fault. -/
theorem fault?_split (p : Position) (oneLine : '\n' ∉ word)
    (spelled : ∀ c ∈ word, ¬ IsUnspelled isOperator c) :
    (split isOperator p word).fault? = none := by
  cases fault : (split isOperator p word).fault? with
  | none => rfl
  | some cause =>
    obtain ⟨isFaulty, rest, same⟩ := (covers_split p oneLine).text_tokens_of_fault fault
    refine absurd isFaulty (spelled _ ?_)
    rw [same]
    exact List.mem_append_right _ (List.mem_cons_self ..)

/-- The tokens inside a word in front of its first faulty character: what stands in front of the
run with this character is split by itself, and the run is handed out character by character. -/
theorem split_of_unspelled (p : Position) (behind : List Char) (oneLine : '\n' ∉ head)
    (starts : ∀ d ∈ head.getLast?, isOperator d = false)
    (operators : ∀ d ∈ run, isOperator d = true)
    (spelled : ∀ d ∈ head ++ run, ¬ IsUnspelled isOperator d)
    (unspelled : IsUnspelled isOperator c) :
    ∃ earlier ts, split isOperator p (head ++ run ++ c :: behind) = ⟨earlier ++ ts, some ⟨c⟩⟩ ∧
      OneByOne run ts := by
  have headSpelled := fault?_split p oneLine fun d member =>
    spelled d (List.mem_append_left run member)
  have inRun : ∀ d ∈ run ++ c :: behind.takeWhile isOperator, isOperator d = true := by
    intro d member
    rcases List.mem_append.mp member with inFront | fromFault
    · exact operators d inFront
    rcases List.mem_cons.mp fromFault with rfl | later
    · exact unspelled.1
    · exact List.mem_takeWhile_imp later
  have runEnds : ∀ d ∈ (behind.dropWhile isOperator).head?, isOperator d ≠ true := by
    intro d isNext
    simp [Segment.head?_dropWhile d isNext]
  have whole : head ++ run ++ c :: behind = head ++ ((run ++ c :: behind.takeWhile isOperator) ++
      behind.dropWhile isOperator) := by
    simp
  have apart : ∀ d ∈ head.getLast?, ∀ e ∈ ((run ++ c :: behind.takeWhile isOperator) ++
      behind.dropWhile isOperator).head?, isOperator d ≠ isOperator e := by
    intro d isLast e isFirst
    obtain ⟨first, others, begins⟩ :=
      List.exists_cons_of_ne_nil (List.append_ne_nil_of_right_ne_nil run
        (List.cons_ne_nil c (behind.takeWhile isOperator)))
    rw [begins] at isFirst inRun
    obtain rfl : first = e := by simpa using isFirst
    rw [starts d isLast, inRun first (List.mem_cons_self ..)]
    exact Bool.false_ne_true
  obtain ⟨ts, read, each⟩ := read_of_unspelled (p.right head.length) (behind.takeWhile isOperator)
    (fun d member none => spelled d (List.mem_append_right head member)
      ⟨operators d member, none⟩) unspelled.2
  refine ⟨(split isOperator p head).tokens, ts, ?_, each⟩
  rw [whole, split_append_split p _ _ apart,
    split_append _ (List.append_ne_nil_of_right_ne_nil run (List.cons_ne_nil c _)) inRun runEnds,
    readRun, if_pos rfl, read, Transcript.mk_some_append,
    Transcript.append_of_fault?_eq_none headSpelled]

/-- The operator characters at the end of a text, and what is in front of them. -/
theorem exists_run (isOperator : Char → Bool) (front : List Char) :
    ∃ head run, head ++ run = front ∧ (∀ d ∈ run, isOperator d = true) ∧
      ∀ d ∈ head.getLast?, isOperator d = false := by
  refine ⟨front.rdropWhile isOperator, front.rtakeWhile isOperator,
    List.rdropWhile_append_rtakeWhile, fun d => List.mem_rtakeWhile_imp, ?_⟩
  intro d isLast
  have nonempty := List.ne_nil_of_mem (List.mem_of_getLast? isLast)
  have stopped := List.rdropWhile_last_not isOperator front nonempty
  rw [List.getLast?_eq_some_getLast nonempty] at isLast
  cases isLast
  simpa using stopped

end OperatorRun

/-! ### Sources -/

/-- Without a fault in any of them, the replacements of tokens come one behind the other. -/
theorem Transcript.flatMap_of_fault?_eq_none {f : Token → Transcript} {ts : List Token}
    (noFault : ∀ t ∈ ts, (f t).fault? = none) :
    flatMap f ⟨ts, none⟩ = ⟨ts.flatMap fun t => (f t).tokens, none⟩ := by
  induction ts with
  | nil => rfl
  | cons t ts ih =>
    have first := noFault t (List.mem_cons_self ..)
    have others := ih fun u member => noFault u (List.mem_cons_of_mem _ member)
    have whole : flatMap f ⟨t :: ts, none⟩ = f t ++ flatMap f ⟨ts, none⟩ := rfl
    rw [whole, others, append_of_fault?_eq_none first, List.flatMap_cons]

namespace Lexer

variable {lexer : Lexer} {source : String} {c : Char} {keepNoise : Bool}

/-- A character that was chosen as an operator character, can be split out of words, and stands
for no operator. -/
def Faulty (lexer : Lexer) (c : Char) : Prop :=
  c ∈ lexer.operatorChars ∧ c.toNat ≤ 0xFFFF ∧ Spelling.operator? [c] = none

theorem faulty_iff : lexer.Faulty c ↔ OperatorRun.IsUnspelled lexer.isOperator c := by
  rw [Faulty, OperatorRun.IsUnspelled, isOperator_iff, and_assoc]

/-- The first faulty character in the words of a source, with what is around it: the segments in
front of its word and behind it, and in the word the characters in front of it and behind it. Of
those in front, the operator characters of the same run are set apart. -/
structure FaultSite (lexer : Lexer) (source : String) (c : Char) where
  before : List Token
  word : Token
  after : List Token
  head : List Char
  run : List Char
  behind : List Char
  segments : (Lexer.segments source).transcript.tokens = before ++ word :: after
  isWord : word.kind = .unknown
  text : word.raw.toList = head ++ run ++ c :: behind
  faulty : lexer.Faulty c
  noneBefore : ∀ w ∈ before, w.kind = .unknown → ∀ d ∈ w.raw.toList, ¬ lexer.Faulty d
  noneInFront : ∀ d ∈ head ++ run, ¬ lexer.Faulty d
  operators : ∀ d ∈ run, lexer.isOperator d = true
  starts : ∀ d ∈ head.getLast?, lexer.isOperator d = false

instance : DecidablePred lexer.Faulty := fun c =>
  inferInstanceAs (Decidable (c ∈ lexer.operatorChars ∧ c.toNat ≤ 0xFFFF ∧
    Spelling.operator? [c] = none))

/-- If there is a faulty character in the words of a source, there is a first one. -/
theorem exists_site {u : Token} (segment : u ∈ (segments source).transcript.tokens)
    (isWord : u.kind = .unknown) (inside : c ∈ u.raw.toList) (faulty : lexer.Faulty c) :
    ∃ d, Nonempty (FaultSite lexer source d) := by
  let isBad (w : Token) : Bool := w.kind = .unknown ∧ ∃ d ∈ w.raw.toList, lexer.Faulty d
  have bad : isBad u = true := decide_eq_true ⟨isWord, c, inside, faulty⟩
  obtain ⟨word, before, after, noneBefore, isFirst, segments, -⟩ :=
    List.exists_of_eraseP segment bad
  obtain ⟨isUnknown, e, member, isFaulty⟩ := of_decide_eq_true isFirst
  obtain ⟨d, front, behind, noneInFront, firstFaulty, text, -⟩ :=
    List.exists_of_eraseP (p := fun d => lexer.Faulty d) member (decide_eq_true isFaulty)
  obtain ⟨head, run, rfl, operators, starts⟩ := OperatorRun.exists_run lexer.isOperator front
  refine ⟨d, ⟨⟨before, word, after, head, run, behind, segments, isUnknown, text,
    of_decide_eq_true firstFaulty, ?_, ?_, operators, starts⟩⟩⟩
  · intro w inFront unknown a inWord aFaulty
    exact noneBefore w inFront (decide_eq_true ⟨unknown, a, inWord, aFaulty⟩)
  · intro a inFront aFaulty
    exact noneInFront a inFront (decide_eq_true aFaulty)

/-! ### The tokens in front of a fault -/

theorem transcript_tokens_words (lexer : Lexer) (source : String) :
    (lexer.tokens source true).transcript =
      (Segment.pieces lexer.isOperator {} source.toList).map classify :=
  transcript_stream lexer source .words

theorem fault?_tokens_eq (lexer : Lexer) (source : String) (keepNoise : Bool) :
    (lexer.tokens source keepNoise).transcript.fault? =
      (Segment.pieces lexer.isOperator {} source.toList).fault? := by
  cases keepNoise with
  | true => rw [transcript_tokens_words, Transcript.map]
  | false => rw [transcript_tokens]

theorem newline_notMem_of_segment {u : Token}
    (segment : u ∈ (segments source).transcript.tokens) (isWord : u.kind = .unknown) :
    '\n' ∉ u.raw.toList := by
  rw [segments, Segment.transcript_stream] at segment
  exact Segment.newline_notMem_raw segment isWord

/-- A word without faulty characters has no fault in it, and neither has what is no word. -/
theorem fault?_pieces {u : Token} (oneLine : u.kind = .unknown → '\n' ∉ u.raw.toList)
    (spelled : u.kind = .unknown → ∀ d ∈ u.raw.toList, ¬ lexer.Faulty d) :
    (OperatorRun.pieces lexer.isOperator u).fault? = none := by
  by_cases isWord : u.kind = .unknown
  · rw [OperatorRun.pieces_of_unknown isWord]
    apply OperatorRun.fault?_split _ (oneLine isWord)
    intro d member isUnspelled
    exact spelled isWord d member (faulty_iff.mpr isUnspelled)
  · rw [OperatorRun.pieces_of_not_unknown isWord]

/-- Without a faulty character in its words, a source has no fault in it. -/
theorem fault?_segments
    (spelled : ∀ u ∈ (segments source).transcript.tokens, u.kind = .unknown →
      ∀ d ∈ u.raw.toList, ¬ lexer.Faulty d) :
    (Segment.pieces lexer.isOperator {} source.toList).fault? = none := by
  rw [Segment.pieces, Transcript.flatMap_of_fault?_eq_none]
  intro u member
  have segment : u ∈ (segments source).transcript.tokens := by
    rwa [segments, Segment.transcript_stream]
  exact fault?_pieces (newline_notMem_of_segment segment) (spelled u segment)

/-- The pieces of a source in front of its first faulty character. -/
theorem pieces_of_site (site : FaultSite lexer source c) :
    ∃ earlier ts, Segment.pieces lexer.isOperator {} source.toList =
      ⟨earlier ++ ts, some ⟨c⟩⟩ ∧ OperatorRun.OneByOne site.run ts := by
  have wordIn : site.word ∈ (segments source).transcript.tokens := by
    rw [site.segments]
    exact List.mem_append_right _ (List.mem_cons_self ..)
  have oneLine : '\n' ∉ site.head := by
    intro member
    apply newline_notMem_of_segment wordIn site.isWord
    rw [site.text]
    simp [member]
  obtain ⟨earlier, ts, same, each⟩ := OperatorRun.split_of_unspelled site.word.position
    site.behind oneLine site.starts site.operators
    (fun d member isUnspelled => site.noneInFront d member (faulty_iff.mpr isUnspelled))
    (faulty_iff.mp site.faulty)
  rw [← site.text, ← OperatorRun.pieces_of_unknown site.isWord] at same
  have front : ∀ w ∈ site.before, (OperatorRun.pieces lexer.isOperator w).fault? = none := by
    intro w member
    have segment : w ∈ (segments source).transcript.tokens := by
      rw [site.segments]
      exact List.mem_append_left _ member
    exact fault?_pieces (newline_notMem_of_segment segment) (site.noneBefore w member)
  have cut : Segment.cut {} source.toList = site.before ++ site.word :: site.after := by
    rw [← site.segments, segments, Segment.transcript_stream]
  refine ⟨(site.before.flatMap fun w => (OperatorRun.pieces lexer.isOperator w).tokens) ++ earlier,
    ts, ?_, each⟩
  rw [Segment.pieces, cut, Transcript.flatMap_append, Transcript.flatMap_of_fault?_eq_none front]
  change _ ++ (OperatorRun.pieces lexer.isOperator site.word ++ _) = _
  rw [same, Transcript.mk_some_append, Transcript.mk_none_append, List.append_assoc]

/-- The tokens of a source in front of its first faulty character. -/
theorem tokens_of_site (site : FaultSite lexer source c) (keepNoise : Bool) :
    ∃ earlier ts, (lexer.tokens source keepNoise).transcript = ⟨earlier ++ ts, some ⟨c⟩⟩ ∧
      OperatorRun.OneByOne site.run ts := by
  obtain ⟨earlier, ts, pieces, each⟩ := pieces_of_site site
  obtain ⟨named, content⟩ := each.kept
  have words : (lexer.tokens source true).transcript =
      ⟨earlier.map classify ++ ts, some ⟨c⟩⟩ := by
    rw [transcript_tokens_words, pieces, Transcript.map, List.map_append, named]
  cases keepNoise with
  | true => exact ⟨_, ts, words, each⟩
  | false =>
    refine ⟨(earlier.map classify).filter isContent, ts, ?_, each⟩
    have dropped := transcript_tokens_content lexer source
    rw [words, Transcript.filter, List.filter_append] at dropped
    rw [dropped]
    change (⟨_ ++ ts.filter isContent, _⟩ : Transcript) = _
    rw [content]
    rfl

/-! ### Characters that are never split out -/

/-- A lexer is known by the characters that it splits out of words. -/
theorem stream_congr {other : Lexer} (same : lexer.isOperator = other.isOperator)
    (source : String) (stage : Stage) : lexer.stream source stage = other.stream source stage := by
  cases stage with
  | segments => rfl
  | operators | words | content => simp only [stream, splitOperators, same]

theorem isOperator_filter (lexer : Lexer) :
    (Lexer.mk (lexer.operatorChars.filter (·.toNat ≤ 0xFFFF))).isOperator = lexer.isOperator := by
  funext c
  rw [Bool.eq_iff_iff, isOperator_iff, isOperator_iff]
  simp

/-! ### Faults -/

/-- **Faults.** A lexer stops with a fault if and only if a word of the source has a faulty
character in it. The fault names the first one, and the operator characters of its run in front
of it are the last tokens, one by one. Characters beyond the basic plane make no difference, and
with the usual operator characters there is no fault. -/
theorem stops_at_first_faulty (lexer : Lexer) (source : String) (keepNoise : Bool) :
    ((∃ cause, (lexer.tokens source keepNoise).transcript.fault? = some cause) ↔
      ∃ u ∈ (segments source).transcript.tokens, u.kind = .unknown ∧
        ∃ c ∈ u.raw.toList, lexer.Faulty c) ∧
    (∀ cause, (lexer.tokens source keepNoise).transcript.fault? = some cause →
      ∃ (site : FaultSite lexer source cause.char) (earlier operators : List Token),
        (lexer.tokens source keepNoise).transcript.tokens = earlier ++ operators ∧
          OperatorRun.OneByOne site.run operators) ∧
    lexer.tokens source keepNoise =
      (Lexer.mk (lexer.operatorChars.filter (·.toNat ≤ 0xFFFF))).tokens source keepNoise ∧
    (({} : Lexer).tokens source keepNoise).transcript.fault? = none := by
  have exists_of_fault (cause : LexFault)
      (fault : (lexer.tokens source keepNoise).transcript.fault? = some cause) :
      ∃ u ∈ (segments source).transcript.tokens, u.kind = .unknown ∧
        ∃ c ∈ u.raw.toList, lexer.Faulty c := by
    by_contra noneFaulty
    have noFault : (Segment.pieces lexer.isOperator {} source.toList).fault? = none := by
      apply fault?_segments
      intro u segment isWord c inside faulty
      exact noneFaulty ⟨u, segment, isWord, c, inside, faulty⟩
    rw [fault?_tokens_eq, noFault] at fault
    cases fault
  refine ⟨⟨?_, ?_⟩, ?_, ?_, fault?_tokens source keepNoise⟩
  · rintro ⟨cause, fault⟩
    exact exists_of_fault cause fault
  · rintro ⟨u, segment, isWord, c, inside, faulty⟩
    obtain ⟨d, ⟨site⟩⟩ := exists_site segment isWord inside faulty
    obtain ⟨earlier, operators, same, -⟩ := tokens_of_site site keepNoise
    exact ⟨⟨d⟩, by rw [same]⟩
  · intro cause fault
    obtain ⟨u, segment, isWord, c, inside, faulty⟩ := exists_of_fault cause fault
    obtain ⟨d, ⟨site⟩⟩ := exists_site segment isWord inside faulty
    obtain ⟨earlier, operators, same, each⟩ := tokens_of_site site keepNoise
    rw [same] at fault ⊢
    cases fault
    exact ⟨site, earlier, operators, rfl, each⟩
  · exact stream_congr (isOperator_filter lexer).symm _ _

/-- The character is met in the word only, not in the string, and behind a character beyond the
basic plane and an operator. -/
theorem stops_at_first_faulty_in_word :
    ((Lexer.mk ['@', '𝒳', '+']).tokens "\"@\" 𝒳+@@" true).transcript.fault? = some ⟨'@'⟩ ∧
      ∃ (site : FaultSite ⟨['@', '𝒳', '+']⟩ "\"@\" 𝒳+@@" '@') (earlier operators : List Token),
        ((Lexer.mk ['@', '𝒳', '+']).tokens "\"@\" 𝒳+@@" true).transcript.tokens =
            earlier ++ operators ∧
          OperatorRun.OneByOne site.run operators := by
  have fault : ((Lexer.mk ['@', '𝒳', '+']).tokens "\"@\" 𝒳+@@" true).transcript.fault? =
      some ⟨'@'⟩ := by
    decide +kernel
  exact ⟨fault, (stops_at_first_faulty _ _ true).2.1 _ fault⟩

end Lexer

end Spire
