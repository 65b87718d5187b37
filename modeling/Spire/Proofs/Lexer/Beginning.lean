import Spire.Proofs.Lexer.Content

/-!
# Beginnings of sources

A source that is cut off in front of one of its tokens has the tokens before it, at the same
places. In general this is not so: the cut may fall inside a row of operator characters, and what
is left of the row may be read in another way. It may fall inside a word as well, whose beginning
is still a word. But a row is read in another way only if a token in front of the cut could have
become the first half of a longer operator, and no program has such a token.

What is put behind a line end is read by itself, unless the line end falls into a string.

## Main definitions

* `Segment.pieces` — the tokens of a text when operators have been split out of words
* `Lexer.kept` — what the last two stages of the lexer make of them

## Main results

* `Segment.pieces_of_prefix` — the pieces of a text that is cut off
* `Lexer.tokens_of_prefix` — the tokens of a source that is cut off
* `Lexer.content_append_newline` — the content of a source with more lines behind it
-/

namespace Spire

namespace Segment

variable {isOperator : Char → Bool} {p : Position} {text part : List Char} {behind : Boundary}

/-- The beginning of a word is a word. -/
theorem Shaped.of_unknown_prefix (shaped : Shaped .unknown text behind) (begins : part <+: text)
    (nonempty : part ≠ []) : Shaped .unknown part .ending := by
  obtain ⟨-, solid, unquoted, uncommented, -⟩ := shaped
  refine ⟨nonempty, ?_, ?_, ?_, nofun⟩
  · intro c member
    exact solid c (begins.subset member)
  · intro quoted
    exact unquoted (quoted.trans begins)
  · intro commented
    exact uncommented (commented.trans begins)

/-- The pieces of a text that starts at `p`, segment by segment. -/
def pieces (isOperator : Char → Bool) (p : Position) (text : List Char) : Transcript :=
  Transcript.flatMap (OperatorRun.pieces isOperator) ⟨cut p text, none⟩

variable {c : Char} {rest : List Char}

@[simp] theorem pieces_nil : pieces isOperator p [] = {} := by
  rw [pieces, cut_nil]
  rfl

theorem pieces_append {kind : Token.Kind} (p : Position)
    (shaped : Shaped kind text (.ofText rest)) :
    pieces isOperator p (text ++ rest) =
      OperatorRun.pieces isOperator ⟨kind, String.ofList text, p⟩ ++
        pieces isOperator (p.advance text) rest := by
  rw [pieces, cut_append p shaped]
  rfl

/-- A segment by itself has its own pieces. -/
theorem pieces_segment {kind : Token.Kind} (p : Position) (shaped : Shaped kind text .ending) :
    pieces isOperator p text = OperatorRun.pieces isOperator ⟨kind, String.ofList text, p⟩ := by
  have whole : pieces isOperator p (text ++ []) = _ := pieces_append p shaped
  rwa [List.append_nil, pieces_nil, Transcript.append_nil] at whole

theorem covers_pieces (p : Position) (text : List Char) :
    (pieces isOperator p text).Covers (OperatorRun.IsUnspelled isOperator) p text := by
  have segments : Transcript.Covers (OperatorRun.IsUnspelled isOperator) ⟨cut p text, none⟩ p
      text := covers_cut p text
  exact segments.flatMap fun t member =>
    OperatorRun.covers_pieces (segments.raw_ne_empty member) (newline_notMem_raw member)

/-- Without a fault, the pieces of a segment make it up. -/
theorem text_pieces {kind : Token.Kind} (shaped : Shaped kind text behind)
    (noFault : (OperatorRun.pieces isOperator ⟨kind, String.ofList text, p⟩).fault? = none) :
    Token.text (OperatorRun.pieces isOperator ⟨kind, String.ofList text, p⟩).tokens = text := by
  rw [← pieces_segment p shaped.ending] at noFault ⊢
  exact (covers_pieces p text).text_tokens noFault

/-- A segment that is cut off inside has the pieces in front of the cut. -/
theorem pieces_of_part {before after : List Token} {t : Token} {kind : Token.Kind}
    (shaped : Shaped kind text behind)
    (whole : (OperatorRun.pieces isOperator ⟨kind, String.ofList text, p⟩).tokens =
      before ++ t :: after)
    (closed : ∀ u ∈ before, Spelling.opensPair u.kind = false) :
    pieces isOperator p (Token.text before) = ⟨before, none⟩ := by
  by_cases unknown : kind = .unknown
  · subst unknown
    have oneLine := shaped.oneLine
    rw [OperatorRun.pieces_of_unknown rfl, String.toList_ofList] at whole
    have cutOff := OperatorRun.split_of_prefix oneLine whole closed
    by_cases empty : Token.text before = []
    · rw [empty] at cutOff ⊢
      rw [pieces_nil]
      exact cutOff
    · have begins : Token.text before <+: text :=
        Transcript.Covers.text_take_prefix (OperatorRun.covers_split p oneLine) whole
      rw [pieces_segment p (shaped.of_unknown_prefix begins empty),
        OperatorRun.pieces_of_unknown rfl, String.toList_ofList, cutOff]
  · rw [OperatorRun.pieces_of_not_unknown unknown] at whole
    cases before with
    | nil => exact pieces_nil
    | cons u before => simp at whole

/-- A text that is cut off behind some of its pieces has these pieces, if none of them could have
become the first half of a longer operator. -/
theorem pieces_of_prefix {before after : List Token} {t : Token}
    (whole : (pieces isOperator p text).tokens = before ++ t :: after)
    (closed : ∀ u ∈ before, Spelling.opensPair u.kind = false) :
    pieces isOperator p (Token.text before) = ⟨before, none⟩ := by
  fun_induction cut p text generalizing before with
  | case1 p => simp at whole
  | case2 p c rest ih =>
    have shaped : Shaped (first c rest).kind (first c rest).text (.ofText (first c rest).rest) :=
      shaped_first
    rw [← @first_text_append_rest c rest, pieces_append p shaped] at whole
    rcases Transcript.tokens_append_eq whole with ⟨later, inside⟩ | ⟨noFault, more, rfl, others⟩
    · exact pieces_of_part shaped inside closed
    · have inner := ih others fun u member => closed u (List.mem_append_right _ member)
      have begins : Token.text more <+: (first c rest).rest :=
        Transcript.Covers.text_take_prefix (covers_pieces _ _) others
      rw [Token.text_append, text_pieces shaped noFault,
        pieces_append p (shaped.behind_part begins), inner,
        Transcript.append_of_fault?_eq_none noFault]

end Segment

/-! ### Sources that are cut off -/

namespace Lexer

variable {lexer : Lexer} {source : String} {t : Token} {before after : List Token}

/-- Naming words and dropping noise, as the last two stages of the lexer do. -/
def kept (ts : List Token) : List Token :=
  (ts.map classify).filter isContent

/-- The tokens of a source, from its pieces. -/
theorem transcript_tokens (lexer : Lexer) (source : String) :
    (lexer.tokens source).transcript =
      ⟨kept (Segment.pieces lexer.isOperator {} source.toList).tokens,
        (Segment.pieces lexer.isOperator {} source.toList).fault?⟩ :=
  transcript_stream lexer source .content

/-- Operators that open pairs are kept as they are. -/
theorem mem_kept_of_opensPair {ts : List Token} (member : t ∈ ts)
    (opens : Spelling.opensPair t.kind = true) : t ∈ kept ts := by
  have kinds : ∀ kind ∈ [Token.Kind.add, .sub, .lt, .gt],
      kind ≠ .unknown ∧ kind.isNoise = false := by
    decide
  obtain ⟨known, content⟩ := kinds t.kind (List.contains_iff_mem.mp opens)
  have same : classify t = t := if_neg known
  refine List.mem_filter.mpr ⟨?_, isContent_iff.mpr content⟩
  rw [← same]
  exact List.mem_map_of_mem member

/-- In front of a token of a source are pieces that come to the tokens before it. -/
theorem exists_pieces (whole : (lexer.tokens source).transcript.tokens = before ++ t :: after) :
    ∃ (front : List Token) (u : Token) (back : List Token),
      (Segment.pieces lexer.isOperator {} source.toList).tokens = front ++ u :: back ∧
        kept front = before ∧ classify u = t := by
  rw [transcript_tokens] at whole
  -- Undo the two stages from the last one on: dropping noise, then naming words.
  obtain ⟨_, _, split, first, others⟩ := List.filter_eq_append_iff.mp whole
  obtain ⟨skipped, later, rfl, noise, -, -⟩ := List.filter_eq_cons_iff.mp others
  obtain ⟨front, _, same, rfl, behind⟩ := List.map_eq_append_iff.mp split
  obtain ⟨gap, _, rfl, rfl, rest⟩ := List.map_eq_append_iff.mp behind
  obtain ⟨u, back, rfl, named, -⟩ := List.map_eq_cons_iff.mp rest
  refine ⟨front ++ gap, u, back, ?_, ?_, named⟩
  · rw [same, List.append_assoc]
  · rw [kept, List.map_append, List.filter_append, first, List.filter_eq_nil_iff.mpr ?_,
      List.append_nil]
    exact noise

/-- **Beginnings.** A source that is cut off in front of one of its tokens has the tokens before
it, if none of them could have become the first half of a longer operator. The cut is where the
token says that it stands. -/
theorem tokens_of_prefix (whole : (lexer.tokens source).transcript.tokens = before ++ t :: after)
    (closed : ∀ u ∈ before, Spelling.opensPair u.kind = false) :
    ∃ p q : String, source = p ++ t.raw ++ q ∧ t.position = Position.behind p.toList ∧
      (lexer.tokens p).transcript = ⟨before, none⟩ := by
  obtain ⟨front, u, back, split, rfl, rfl⟩ := exists_pieces whole
  have stillClosed : ∀ v ∈ front, Spelling.opensPair v.kind = false := by
    intro v member
    by_contra opens
    rw [Bool.not_eq_false] at opens
    rw [closed v (mem_kept_of_opensPair member opens)] at opens
    cases opens
  have covers : (Segment.pieces lexer.isOperator {} source.toList).Covers
      (OperatorRun.IsUnspelled lexer.isOperator) {} source.toList := Segment.covers_pieces _ _
  have regrouped : (Segment.pieces lexer.isOperator {} source.toList).tokens =
      (front ++ [u]) ++ back := by
    rw [split, List.append_assoc]
    rfl
  obtain ⟨q, joined⟩ := covers.text_take_prefix regrouped
  obtain ⟨sameText, samePlace⟩ := classify_raw_position u
  refine ⟨String.ofList (Token.text front), String.ofList q, ?_, ?_, ?_⟩
  · rw [← String.toList_inj, sameText]
    simpa using joined.symm
  · rw [samePlace, covers.position_eq split, Position.advance_eq_behind, String.toList_ofList]
  · rw [transcript_tokens, String.toList_ofList, Segment.pieces_of_prefix split stillClosed]

/-! ### More lines behind a source -/

/-- What is put behind a line end is read by itself, unless the line end falls into a string. -/
theorem content_append_newline {text more : List Char}
    (closed : ∀ t ∈ (Segment.cut {} text).getLast?, ¬ Segment.Unterminated t) :
    lexer.content (text ++ '\n' :: more) = lexer.content text ++ lexer.content more := by
  have lineEnd : isSeparator '\n' = true := rfl
  rw [content, Segment.cut_append_newline closed, Transcript.flatMap_append,
    flatMap_contentOf_cut (({} : Position).advance text), content_separator lineEnd]
  rfl

/-- A text without strings among its tokens does not end in a string that lacks its end. -/
theorem not_unterminated_of_content {text : List Char}
    (noString : ∀ t ∈ (({} : Lexer).content text).tokens, t.kind ≠ .string) :
    ∀ t ∈ (Segment.cut {} text).getLast?, ¬ Segment.Unterminated t := by
  rintro t isLast ⟨isString, -⟩
  obtain ⟨others, whole⟩ := List.getLast?_eq_some_iff.mp isLast
  have noFault := fault?_content text
  have known : t.kind ≠ .unknown := by
    rw [isString]
    decide
  have kept : isContent t = true := by
    rw [isContent, isString]
    rfl
  have last : Transcript.flatMap ({} : Lexer).contentOf ⟨[t], none⟩ = ⟨[t.unplaced], none⟩ := by
    have one : Transcript.flatMap ({} : Lexer).contentOf ⟨[t], none⟩ =
        ({} : Lexer).contentOf t ++ (⟨[], none⟩ : Transcript) := rfl
    rw [one, Transcript.append_nil, contentOf_of_not_unknown known, kept, if_pos rfl]
  rw [content, whole, Transcript.flatMap_append, last] at noFault noString
  rw [Transcript.append_of_fault?_eq_none (Transcript.fault?_append_eq_none noFault).1] at noString
  exact noString t.unplaced (List.mem_append_right _ (List.mem_singleton_self _)) isString

end Lexer

end Spire
