import Spire.Proofs.Lexer.Words
import Spire.Proofs.Lexer.Fidelity

/-!
# What a text means to the grammar

The tokens that mean something to the grammar come out of the segments one by one: each segment
has its content, whatever its place. So the content of a text is that of its first segment and
that of the text behind it, blanks and line ends can be skipped, and a word in front of a
separator counts for itself.

## Main definitions

* `Lexer.contentOf`, `Lexer.content` — the tokens in a segment and in a text that are no noise,
  without their places

## Main results

* `Lexer.unplaced_tokens` — the content of a source is what the lexer makes of it
* `Lexer.content_append`, `Lexer.content_separator` — content segment by segment
* `Lexer.fault?_tokens` — the lexer with the usual operator characters has no fault
-/

namespace Spire

namespace OperatorRun

variable {isOperator : Char → Bool}

/-! ### Pieces do not depend on places -/

theorem unplaced_read (p q : Position) (run : List Char) :
    (read p run).unplaced = (read q run).unplaced := by
  induction run generalizing p q with
  | nil => rfl
  | cons c rest ih =>
    rw [read, read]
    split
    · rfl
    split
    · rw [Transcript.unplaced_cons, Transcript.unplaced_cons, ih (p.right 1) (q.right 1)]
      rfl
    · rfl

theorem unplaced_readAll (p q : Position) (runs : List (List Char)) :
    (readAll isOperator p runs).unplaced = (readAll isOperator q runs).unplaced := by
  induction runs generalizing p q with
  | nil => rfl
  | cons run others ih =>
    rw [readAll, readAll, Transcript.unplaced_append, Transcript.unplaced_append,
      ih (p.right run.length) (q.right run.length)]
    congr 1
    split
    · exact unplaced_read p q run
    · rfl

/-- The pieces of a token do not depend on its place. -/
theorem unplaced_pieces (t : Token) :
    (pieces isOperator t.unplaced).unplaced = (pieces isOperator t).unplaced := by
  have sameKind : t.unplaced.kind = t.kind := rfl
  by_cases unknown : t.kind = .unknown
  · rw [pieces_of_unknown unknown, pieces_of_unknown (sameKind.trans unknown)]
    exact unplaced_readAll _ _ _
  · rw [pieces_of_not_unknown unknown, pieces_of_not_unknown (by rwa [sameKind])]
    rfl

end OperatorRun

namespace Lexer

variable {lexer : Lexer} {kind : Token.Kind} {text rest : List Char} {t : Token} {c : Char}

theorem unplaced_classify (t : Token) : (classify t).unplaced = classify t.unplaced := by
  by_cases unknown : t.kind = .unknown
  · simp [classify, unknown, Token.unplaced]
  · simp [classify, unknown]

/-! ### Content -/

/-- The tokens in a segment that mean something to the grammar, without their places. -/
def contentOf (lexer : Lexer) (t : Token) : Transcript :=
  (((OperatorRun.pieces lexer.isOperator t).map classify).filter isContent).unplaced

/-- The tokens in a text that mean something to the grammar, without their places. -/
def content (lexer : Lexer) (text : List Char) : Transcript :=
  Transcript.flatMap lexer.contentOf ⟨Segment.cut {} text, none⟩

/-- Apart from places, the tokens of a source are its content. -/
theorem unplaced_tokens (lexer : Lexer) (source : String) :
    (lexer.tokens source).transcript.unplaced = lexer.content source.toList := by
  have stages : (lexer.tokens source).transcript = Stage.content.run lexer source :=
    transcript_stream lexer source .content
  rw [stages, Stage.run, Transcript.map_flatMap, Transcript.filter_flatMap,
    Transcript.unplaced_flatMap]
  rfl

theorem map_unplaced_tokens (lexer : Lexer) (source : String) :
    (lexer.tokens source).transcript.tokens.map Token.unplaced =
      (lexer.content source.toList).tokens := by
  rw [← unplaced_tokens]
  rfl

/-- The stages behind the pieces see kinds and texts only. -/
theorem unplaced_words (ts : Transcript) :
    ((ts.map classify).filter isContent).unplaced =
      ((ts.unplaced.map classify).filter isContent) := by
  have sameTokens : (ts.tokens.map classify).map Token.unplaced =
      (ts.tokens.map Token.unplaced).map classify := by
    rw [List.map_map, List.map_map]
    exact List.map_congr_left fun t _ => unplaced_classify t
  have sameTest : isContent ∘ Token.unplaced = isContent := funext fun _ => rfl
  simp only [Transcript.unplaced, Transcript.map, Transcript.filter, ← sameTokens,
    List.filter_map, sameTest]

theorem contentOf_unplaced (lexer : Lexer) (t : Token) :
    lexer.contentOf t.unplaced = lexer.contentOf t := by
  rw [contentOf, contentOf, unplaced_words, unplaced_words, OperatorRun.unplaced_pieces]

/-- Segments that differ in their places only have the same content. -/
theorem flatMap_contentOf_unplaced (ts : List Token) :
    Transcript.flatMap lexer.contentOf ⟨ts.map Token.unplaced, none⟩ =
      Transcript.flatMap lexer.contentOf ⟨ts, none⟩ := by
  simp only [Transcript.flatMap, List.foldr_map, contentOf_unplaced]

/-- Where a text starts makes no difference to its content. -/
theorem flatMap_contentOf_cut (p : Position) (text : List Char) :
    Transcript.flatMap lexer.contentOf ⟨Segment.cut p text, none⟩ = lexer.content text := by
  have same : (Segment.cut p text).map Token.unplaced =
      (Segment.cut {} text).map Token.unplaced := by
    -- The segments at one place are well-formed, so their text is cut into them at the other too.
    have again : (Segment.cut p (Token.text (Segment.cut {} text))).map Token.unplaced =
        (Segment.cut {} text).map Token.unplaced :=
      Segment.cut_text (Segment.wellFormed_cut {} text)
    rwa [Segment.text_cut] at again
  rw [content, ← flatMap_contentOf_unplaced (Segment.cut p text), same, flatMap_contentOf_unplaced]

@[simp] theorem content_nil : lexer.content [] = {} := by
  rw [content, Segment.cut_nil]
  rfl

/-- The content of a text is that of its first segment and that of what is behind it. -/
theorem content_append (shaped : Segment.Shaped kind text (.ofText rest)) :
    lexer.content (text ++ rest) =
      lexer.contentOf ⟨kind, String.ofList text, {}⟩ ++ lexer.content rest := by
  have whole := Segment.cut_append {} shaped
  rw [content, whole, ← flatMap_contentOf_cut (({} : Position).advance text) rest]
  rfl

/-- A segment that is no word has itself as content, if it means something. -/
theorem contentOf_of_not_unknown (known : t.kind ≠ .unknown) :
    lexer.contentOf t = ⟨if isContent t then [t.unplaced] else [], none⟩ := by
  rw [contentOf, OperatorRun.pieces_of_not_unknown known]
  by_cases content : isContent t
  · simp [Transcript.map, Transcript.filter, Transcript.unplaced, classify, known, content]
  · simp [Transcript.map, Transcript.filter, Transcript.unplaced, classify, known, content]

/-- What is no noise means something to the grammar. -/
theorem isContent_iff : isContent t = true ↔ t.kind.isNoise = false := by
  rw [isContent, Bool.not_eq_true']

/-- Noise has no content. -/
theorem contentOf_of_noise (noise : t.kind.isNoise = true) : lexer.contentOf t = {} := by
  have known : t.kind ≠ .unknown := by
    intro unknown
    rw [unknown] at noise
    cases noise
  have dropped : isContent t = false := by
    rw [isContent, noise]
    rfl
  rw [contentOf_of_not_unknown known, dropped]
  rfl

theorem content_append_of_noise (shaped : Segment.Shaped kind text (.ofText rest))
    (noise : kind.isNoise = true) : lexer.content (text ++ rest) = lexer.content rest := by
  rw [content_append shaped, contentOf_of_noise noise]
  exact Transcript.nil_append

/-- Blanks in front of a text may be dropped. -/
theorem content_dropWhile_isBlank (text : List Char) :
    lexer.content (text.dropWhile isBlank) = lexer.content text := by
  by_cases none : text.takeWhile isBlank = []
  · have whole := List.takeWhile_append_dropWhile (p := isBlank) (l := text)
    rw [none, List.nil_append] at whole
    rw [whole]
  · have gap : Segment.Shaped .space (text.takeWhile isBlank)
        (.ofText (text.dropWhile isBlank)) := by
      refine ⟨none, fun d inside => List.mem_takeWhile_imp inside, ?_⟩
      rw [Segment.Boundary.ofText_ne_blank_iff]
      exact Segment.head?_dropWhile
    rw [← content_append_of_noise gap rfl, List.takeWhile_append_dropWhile]

/-- A blank or a line end in front of a text may be dropped. -/
theorem content_separator (separates : isSeparator c = true) :
    lexer.content (c :: rest) = lexer.content rest := by
  rw [isSeparator, Bool.or_eq_true, beq_iff_eq] at separates
  rcases separates with gap | rfl
  · rw [← content_dropWhile_isBlank (c :: rest), ← content_dropWhile_isBlank rest,
      List.dropWhile_cons_of_pos gap]
  · have lineEnd : Segment.Shaped .newline ['\n'] (.ofText rest) := rfl
    exact content_append_of_noise lineEnd rfl

/-! ### The usual operator characters -/

/-- All of the usual operator characters are in the basic plane. -/
theorem isOperator_default (c : Char) :
    ({} : Lexer).isOperator c = Spelling.operatorChars.contains c := by
  have basic : Spelling.operatorChars.all (fun d => d.toNat ≤ 0xFFFF) = true := by decide
  rw [Bool.eq_iff_iff, isOperator_iff, List.contains_iff_mem]
  exact and_iff_left_of_imp fun listed => by simpa using List.all_eq_true.mp basic c listed

/-- Each of the usual operator characters is an operator, so there is no fault. -/
theorem fault?_tokens (source : String) (keepNoise : Bool) :
    (({} : Lexer).tokens source keepNoise).transcript.fault? = none := by
  have words : (({} : Lexer).tokens source true).transcript.fault? = none := by
    have covers : (({} : Lexer).tokens source true).transcript.Covers
        (OperatorRun.IsUnspelled ({} : Lexer).isOperator) {} source.toList :=
      covers_stream (by decide)
    cases fault : (({} : Lexer).tokens source true).transcript.fault? with
    | none => rfl
    | some cause =>
      obtain ⟨⟨chosen, unspelled⟩, -⟩ := covers.text_tokens_of_fault fault
      rw [isOperator_default, List.contains_iff_mem] at chosen
      have spelled := Spelling.operatorChars_spelled _ chosen
      rw [unspelled] at spelled
      cases spelled
  cases keepNoise with
  | true => exact words
  | false =>
    rw [transcript_tokens_content]
    exact words

theorem fault?_content (text : List Char) : (({} : Lexer).content text).fault? = none := by
  have same := unplaced_tokens {} (String.ofList text)
  rw [String.toList_ofList] at same
  rw [← same]
  exact fault?_tokens _ false

end Lexer

/-! ### Words in front of separators -/

/-- Words that are read as single tokens, for the kinds of tokens that programs are made of. -/
def Spelling.samples : List (Token.Kind × List Char) :=
  [(.fn, ['f', 'n']), (.name, ['f']), (.leftParen, ['(']), (.rightParen, [')']),
    (.leftBrace, ['\x7b']), (.rightBrace, ['\x7d']), (.nop, ['n', 'o', 'p'])]

namespace Lexer

variable {lexer : Lexer} {kind : Token.Kind} {word rest : List Char}

/-- A word in front of a separator contributes its own tokens. -/
theorem content_word (shaped : Segment.Shaped .unknown word .ending)
    (ends : ∀ d ∈ rest.head?, isSeparator d = true) :
    lexer.content (word ++ rest) =
      lexer.contentOf ⟨.unknown, String.ofList word, {}⟩ ++ lexer.content rest := by
  obtain ⟨nonempty, solid, unquoted, uncommented, -⟩ := shaped
  have stops : Segment.Boundary.ofText rest ≠ .other :=
    Segment.Boundary.ofText_ne_other_iff.mpr ends
  exact content_append ⟨nonempty, solid, unquoted, uncommented, stops⟩

theorem sample_shaped (listed : (kind, word) ∈ Spelling.samples) :
    Segment.Shaped .unknown word .ending := by
  have shaped : ∀ entry ∈ Spelling.samples, Segment.Shaped .unknown entry.2 .ending := by decide
  exact shaped (kind, word) listed

theorem contentOf_sample (listed : (kind, word) ∈ Spelling.samples) :
    ({} : Lexer).contentOf ⟨.unknown, String.ofList word, {}⟩ =
      ⟨[⟨kind, String.ofList word, {}⟩], none⟩ := by
  have read : ∀ entry ∈ Spelling.samples,
      ({} : Lexer).contentOf ⟨.unknown, String.ofList entry.2, {}⟩ =
        ⟨[⟨entry.1, String.ofList entry.2, {}⟩], none⟩ := by
    decide +kernel
  exact read (kind, word) listed

/-- A sample in front of a separator contributes one token of its kind. -/
theorem content_sample (listed : (kind, word) ∈ Spelling.samples)
    (ends : ∀ d ∈ rest.head?, isSeparator d = true) :
    ({} : Lexer).content (word ++ rest) =
      .cons ⟨kind, String.ofList word, {}⟩ (({} : Lexer).content rest) := by
  rw [content_word (sample_shaped listed) ends, contentOf_sample listed]
  rfl

end Lexer

end Spire
