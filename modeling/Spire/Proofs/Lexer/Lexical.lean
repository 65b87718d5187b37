import Spire.Proofs.Lexer.Fault

/-!
# The grammar of tokens

With the usual operator characters every source becomes tokens, and each of them is of one of a
few sorts. A token that is no word is a segment of its lexical shape, or an operator in its
spelling. A word is a keyword in its spelling, or else a name. What stands behind a segment can
be told from the tokens as well as from the segments there: where a segment of unknown kind is
replaced by tokens, the first of them is neither a blank nor a line end.

Two words never stand side by side. Within a segment there is an operator between them, and
behind a segment of unknown kind there is a blank, a line end or nothing.

## Main definitions

* `Token.Lexical` — the sorts of tokens, in front of the tokens behind them
* `Lexer.named` — the tokens of a segment, with its words told apart

## Main results

* `Lexer.tokens_eq_flatMap` — the tokens of a source segment by segment
* `Lexer.lexical_of_flatMap`, `Lexer.isChain_flatMap` — the tokens of well-formed segments
* `Lexer.tokens_are_lexical` — the tokens of a source
-/

namespace Spire

open Segment

/-- A token in front of others is a segment in its shape, a keyword or an operator that is listed
with its spelling, or a name. -/
inductive Token.Lexical (behind : List Token) (t : Token) : Prop where
  | segment (isSegment : t.kind ∈ [Token.Kind.newline, .space, .comment, .string])
      (shaped : Shaped t.kind t.raw.toList (.ofSegments behind))
  | keyword (listed : (t.raw, t.kind) ∈ Spelling.keywords)
  | operator (listed : (t.raw, t.kind) ∈ Spelling.operators)
  | name (isName : t.kind = .name) (nonempty : t.raw.toList ≠ [])
      (solid : ∀ c ∈ t.raw.toList, isSeparator c = false ∧ c ∉ Spelling.operatorChars)
      (unreserved : Spelling.keyword? t.raw = none)

namespace Token

variable {t : Token} {behind : List Token}

/-- Of the kinds that are no segments, keywords, operators or names, there are no tokens. -/
theorem Lexical.kind_notMem (lexical : t.Lexical behind) :
    t.kind ∉ [Token.Kind.unknown, .root, .indent, .dedent] := by
  have apart : ∀ kind ∈ [Token.Kind.newline, .space, .comment, .string] ++
      .name :: (Spelling.keywords ++ Spelling.operators).map Prod.snd,
      kind ∉ [Token.Kind.unknown, .root, .indent, .dedent] := by
    decide
  apply apart
  cases lexical with
  | segment isSegment => exact List.mem_append_left _ isSegment
  | keyword listed =>
    apply List.mem_append_right
    apply List.mem_cons_of_mem
    exact List.mem_map_of_mem (List.mem_append_left _ listed)
  | operator listed =>
    apply List.mem_append_right
    apply List.mem_cons_of_mem
    exact List.mem_map_of_mem (List.mem_append_right _ listed)
  | name isName =>
    apply List.mem_append_right
    rw [isName]
    exact List.mem_cons_self ..

/-- Words are no noise. -/
theorem IsWord.isNoise_eq_false (isWord : t.IsWord) : t.kind.isNoise = false := by
  have kinds : ∀ kind ∈ Token.Kind.name :: Spelling.keywords.map Prod.snd,
      kind.isNoise = false := by
    decide
  apply kinds
  rw [List.mem_cons]
  exact isWord.symm

end Token

namespace Segment

variable {kind : Token.Kind} {text : List Char} {behind : Boundary} {t u : Token}
  {ts us : List Token}

theorem Shaped.kind_mem (shaped : Shaped kind text behind) (known : kind ≠ .unknown) :
    kind ∈ [Token.Kind.newline, .space, .comment, .string] := by
  cases kind
  case newline | comment | space | string => decide
  case unknown => exact absurd rfl known
  all_goals cases shaped

theorem WellFormed.exists_shaped (wellFormed : WellFormed us) (member : u ∈ us) :
    ∃ behind, Shaped u.kind u.raw.toList behind := by
  induction us with
  | nil => cases member
  | cons v us ih =>
    rcases List.mem_cons.mp member with rfl | later
    · exact ⟨_, wellFormed.1⟩
    · exact ih wellFormed.2 later

/-- What is no noise is neither a line end nor a blank. -/
theorem Boundary.ofSegments_cons_of_content (content : t.kind.isNoise = false) :
    ofSegments (t :: ts) = .other := by
  obtain ⟨kind, raw, p⟩ := t
  cases kind
  case newline | space => cases content
  all_goals rfl

end Segment

namespace Lexer

variable {t u : Token} {us : List Token} {text : List Char} {behind : Boundary}

/-! ### The tokens of a segment -/

/-- The tokens of a segment for the usual operator characters, with its words told apart. -/
def named (u : Token) : List Token :=
  (OperatorRun.pieces ({} : Lexer).isOperator u).tokens.map classify

theorem named_of_not_unknown (known : u.kind ≠ .unknown) : named u = [u] := by
  rw [named, OperatorRun.pieces_of_not_unknown known, List.map_singleton,
    classify_of_not_unknown known]

/-- The usual operator characters are operators. -/
theorem not_faulty_default (c : Char) : ¬ ({} : Lexer).Faulty c := by
  rintro ⟨listed, -, unspelled⟩
  have spelled := Spelling.operatorChars_spelled c listed
  rw [unspelled] at spelled
  cases spelled

theorem fault?_of_shaped (shaped : Shaped u.kind u.raw.toList behind) :
    (OperatorRun.pieces ({} : Lexer).isOperator u).fault? = none := by
  apply fault?_pieces
  · intro isWord
    rw [isWord] at shaped
    exact shaped.oneLine
  · intro _ c _
    exact not_faulty_default c

theorem named_ne_nil (shaped : Shaped u.kind u.raw.toList behind) : named u ≠ [] := by
  intro empty
  have noPieces := List.map_eq_nil_iff.mp empty
  have spelled := text_pieces (p := u.position) shaped (by
    rw [String.ofList_toList]
    exact fault?_of_shaped shaped)
  rw [String.ofList_toList, noPieces] at spelled
  exact shaped.ne_nil spelled.symm

theorem exists_piece (unknown : u.kind = .unknown) (member : t ∈ named u) :
    ∃ v, OperatorRun.IsPiece ({} : Lexer).isOperator u.raw.toList v ∧ classify v = t := by
  obtain ⟨v, inside, same⟩ := List.mem_map.mp member
  rw [OperatorRun.pieces_of_unknown unknown] at inside
  exact ⟨v, OperatorRun.isPiece_of_mem_split inside, same⟩

theorem isNoise_of_mem_named (unknown : u.kind = .unknown) (member : t ∈ named u) :
    t.kind.isNoise = false := by
  obtain ⟨v, piece, rfl⟩ := exists_piece unknown member
  exact isContent_iff.mp (isContent_classify piece)

theorem isWord_classify (unknown : t.kind = .unknown) : (classify t).IsWord := by
  rw [classify_of_unknown unknown]
  cases found : Spelling.keyword? t.raw with
  | none => exact .inr rfl
  | some kind => exact .inl (Spelling.kind_of_keyword found)

/-- Keywords and names that are spelled as their kinds say are lexical in front of anything. -/
theorem Spelled.lexical {ts : List Token} (spelled : Spelled {} t) (isWord : t.IsWord) :
    t.Lexical ts := by
  rcases isWord with isKeyword | isName
  · exact .keyword (spelled.keyword isKeyword)
  · obtain ⟨isWord, unreserved⟩ := spelled.name isName
    exact .name isName isWord.nonempty isWord.ordinary unreserved

/-- The tokens of a word are lexical in front of anything. -/
theorem lexical_of_mem_named {ts : List Token} (shaped : Shaped .unknown u.raw.toList behind)
    (unknown : u.kind = .unknown) (member : t ∈ named u) : t.Lexical ts := by
  obtain ⟨v, piece, rfl⟩ := exists_piece unknown member
  have spelled : Spelled {} (classify v) := spelled_classify piece shaped.2.1
  cases piece with
  | word isUnknown => exact spelled.lexical (isWord_classify isUnknown)
  | operator isOperator =>
    obtain ⟨-, -, known, -⟩ := Spelling.kind_of_operator isOperator
    have listed := Spelling.mem_operators isOperator
    rw [String.ofList_toList] at listed
    rw [classify_of_not_unknown known]
    exact .operator listed

/-- In a segment no two words stand side by side. -/
theorem isChain_named (u : Token) : (named u).IsChain fun s t => ¬ (s.IsWord ∧ t.IsWord) := by
  by_cases unknown : u.kind = .unknown
  · rw [named, OperatorRun.pieces_of_unknown unknown, List.isChain_map]
    refine List.IsChain.imp_of_mem_imp ?_ (OperatorRun.isChain_split _ _).1
    rintro s t sInside tInside apart ⟨first, second⟩
    apply apart
    · exact unknown_of_isWord (OperatorRun.isPiece_of_mem_split sInside) first
    · exact unknown_of_isWord (OperatorRun.isPiece_of_mem_split tInside) second
  · rw [named_of_not_unknown unknown]
    exact .singleton u

/-! ### The tokens of segments -/

/-- What stands behind a segment can be told from the tokens there. -/
theorem ofSegments_flatMap (wellFormed : WellFormed us) :
    Boundary.ofSegments (us.flatMap named) = .ofSegments us := by
  cases us with
  | nil => rfl
  | cons u us =>
    rw [List.flatMap_cons]
    by_cases unknown : u.kind = .unknown
    · obtain ⟨t, ts, same⟩ := List.exists_cons_of_ne_nil (named_ne_nil wellFormed.1)
      have content : t.kind.isNoise = false := by
        apply isNoise_of_mem_named unknown
        rw [same]
        exact List.mem_cons_self ..
      have alsoContent : u.kind.isNoise = false := by
        rw [unknown]
        rfl
      rw [same, List.cons_append, Boundary.ofSegments_cons_of_content content,
        Boundary.ofSegments_cons_of_content alsoContent]
    · rw [named_of_not_unknown unknown]
      rfl

/-- The tokens of well-formed segments are lexical. -/
theorem lexical_of_flatMap (wellFormed : WellFormed us) {before after : List Token}
    (split : us.flatMap named = before ++ t :: after) : t.Lexical after := by
  induction us generalizing before with
  | nil => simp at split
  | cons u us ih =>
    rw [List.flatMap_cons] at split
    rcases List.append_eq_append_iff.mp split with ⟨more, -, later⟩ | ⟨more, first, others⟩
    · exact ih wellFormed.2 later
    cases more with
    | nil =>
      have later : us.flatMap named = [] ++ t :: after := others.symm
      exact ih wellFormed.2 later
    | cons v more =>
      obtain ⟨rfl, rfl⟩ := List.cons.inj others
      obtain ⟨shaped, behind⟩ := wellFormed
      by_cases unknown : u.kind = .unknown
      · rw [unknown] at shaped
        apply lexical_of_mem_named shaped unknown
        rw [first]
        exact List.mem_append_right _ (List.mem_cons_self ..)
      · rw [named_of_not_unknown unknown] at first
        cases before with
        | cons w before => simp at first
        | nil =>
          obtain ⟨rfl, rfl⟩ := List.cons.inj first
          rw [← ofSegments_flatMap behind] at shaped
          exact .segment (shaped.kind_mem unknown) shaped

/-- Among the tokens of well-formed segments no two words stand side by side. -/
theorem isChain_flatMap (wellFormed : WellFormed us) :
    (us.flatMap named).IsChain fun s t => ¬ (s.IsWord ∧ t.IsWord) := by
  induction us with
  | nil => exact .nil
  | cons u us ih =>
    obtain ⟨shaped, behind⟩ := wellFormed
    rw [List.flatMap_cons]
    refine List.isChain_append.mpr ⟨isChain_named u, ih behind, ?_⟩
    rintro s isLast t isNext ⟨first, second⟩
    by_cases unknown : u.kind = .unknown
    · -- A word would go on with the next one, as it stops at a blank or a line end only.
      rw [unknown] at shaped
      obtain ⟨-, -, -, -, stops⟩ := shaped
      apply stops
      obtain ⟨others, whole⟩ := List.head?_eq_some_iff.mp isNext
      rw [← ofSegments_flatMap behind, whole]
      exact Boundary.ofSegments_cons_of_content second.isNoise_eq_false
    · rw [named_of_not_unknown unknown] at isLast
      cases isLast
      exact absurd first (not_or.mpr (kind_of_shaped shaped))

/-! ### The tokens of a source -/

/-- The tokens of a source are those of its segments. -/
theorem tokens_eq_flatMap (source : String) :
    (({} : Lexer).tokens source true).transcript.tokens =
      (cut {} source.toList).flatMap named := by
  -- No segment has a fault in it, so the stages work on each of them by itself.
  have noFault : ∀ u ∈ cut {} source.toList,
      (OperatorRun.pieces ({} : Lexer).isOperator u).fault? = none := by
    intro u member
    obtain ⟨behind, shaped⟩ := (wellFormed_cut {} source.toList).exists_shaped member
    exact fault?_of_shaped shaped
  rw [transcript_tokens_words, pieces, Transcript.flatMap_of_fault?_eq_none noFault,
    Transcript.map, List.map_flatMap]
  rfl

/-- **The grammar of tokens.** Every token of a source is a line end, a blank, a comment or a
string in its shape, a keyword or an operator in its spelling, or a name. None is of another kind,
and no two words stand side by side. If noise is dropped, no blanks, comments and line ends are
left. -/
theorem tokens_are_lexical (source : String) :
    (∀ before t behind,
      (({} : Lexer).tokens source true).transcript.tokens = before ++ t :: behind →
        t.Lexical behind) ∧
    (∀ t ∈ (({} : Lexer).tokens source true).transcript.tokens,
      t.kind ∉ [Token.Kind.unknown, .root, .indent, .dedent]) ∧
    (({} : Lexer).tokens source true).transcript.tokens.IsChain
      (fun s t => ¬ (s.IsWord ∧ t.IsWord)) ∧
    ∀ t ∈ (({} : Lexer).tokens source false).transcript.tokens,
      t.kind ∉ [Token.Kind.space, .comment, .newline] := by
  have wellFormed := wellFormed_cut {} source.toList
  have lexical (before : List Token) (t : Token) (behind : List Token)
      (split : (({} : Lexer).tokens source true).transcript.tokens = before ++ t :: behind) :
      t.Lexical behind := by
    rw [tokens_eq_flatMap] at split
    exact lexical_of_flatMap wellFormed split
  refine ⟨lexical, ?_, ?_, ?_⟩
  · intro t member
    obtain ⟨before, behind, split⟩ := List.append_of_mem member
    exact (lexical before t behind split).kind_notMem
  · rw [tokens_eq_flatMap]
    exact isChain_flatMap wellFormed
  · intro t member noise
    rw [transcript_tokens_content] at member
    have kept := List.of_mem_filter member
    have kinds : ∀ kind ∈ [Token.Kind.space, .comment, .newline], kind.isNoise = true := by decide
    rw [kinds t.kind noise] at kept
    cases kept

/-- A quote begins a string only where a segment begins. One that is not closed is the last
token. -/
theorem tokens_are_lexical_up_to_string :
    ∃ before, (({} : Lexer).tokens "f->\"a\"//\"\n\"b" true).transcript.tokens =
        before ++ ⟨.string, "\"b", ⟨2, 1⟩⟩ :: [] ∧
      Token.Lexical [] ⟨.string, "\"b", ⟨2, 1⟩⟩ := by
  have split : (({} : Lexer).tokens "f->\"a\"//\"\n\"b" true).transcript.tokens =
      [⟨.name, "f", ⟨1, 1⟩⟩, ⟨.arrow, "->", ⟨1, 2⟩⟩, ⟨.name, "\"a\"", ⟨1, 4⟩⟩,
        ⟨.div, "/", ⟨1, 7⟩⟩, ⟨.div, "/", ⟨1, 8⟩⟩, ⟨.name, "\"", ⟨1, 9⟩⟩,
        ⟨.newline, "\n", ⟨1, 10⟩⟩] ++
        ⟨.string, "\"b", ⟨2, 1⟩⟩ :: [] := by
    decide +kernel
  exact ⟨_, split, (tokens_are_lexical _).1 _ _ _ split⟩

end Lexer

end Spire
