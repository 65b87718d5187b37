import Spire.Proofs.Lexer.Content

/-!
# Keywords and names among the tokens

A word that is left when the operators are split out is a keyword or a name, by its spelling. No
other token is one. So keywords have their spellings, and a name has no separator and no operator
character in it and is no keyword.

A name may still begin with a quote, if an operator stands in front of it: only the first
character of a segment makes it a string. But two words never stand side by side within a
segment. So a name right behind a keyword, or at the start of a text, begins a segment and does
not begin with a quote.

## Main definitions

* `Token.IsWord` — keywords and names
* `Lexer.IsWord` — texts without separators and operator characters
* `Lexer.Spelled` — what the kind of a token says of its text
* `Lexer.Starts` — names behind keywords, and at the start, do not begin with a quote

## Main results

* `Lexer.content_induction` — from the segments of a text to its content
* `Lexer.spelled_of_mem_tokens` — all tokens are spelled as their kinds say
* `Lexer.isChain_tokens` — no name right behind a keyword begins with a quote
-/

namespace Spire

namespace Spelling

theorem kind_of_keyword {word : String} {kind : Token.Kind} (found : keyword? word = some kind) :
    kind ∈ keywords.map Prod.snd :=
  List.mem_map.mpr ⟨_, mem_keywords found, rfl⟩

/-- Operators are neither keywords nor names, and they mean something. -/
theorem kind_of_operator {text : List Char} {kind : Token.Kind}
    (found : operator? text = some kind) :
    kind ∉ keywords.map Prod.snd ∧ kind ≠ .name ∧ kind ≠ .unknown ∧ kind.isNoise = false := by
  have kinds : ∀ entry ∈ operators, entry.2 ∉ keywords.map Prod.snd ∧ entry.2 ≠ .name ∧
      entry.2 ≠ .unknown ∧ entry.2.isNoise = false := by
    decide
  exact kinds _ (mem_operators found)

end Spelling

/-- Keywords and names. -/
def Token.IsWord (t : Token) : Prop :=
  t.kind ∈ Spelling.keywords.map Prod.snd ∨ t.kind = .name

namespace Lexer

variable {lexer : Lexer} {word text : List Char} {s t u : Token} {ts us : List Token}
  {behind : Segment.Boundary}

/-- A text without separators and operator characters. -/
structure IsWord (lexer : Lexer) (text : List Char) : Prop where
  nonempty : text ≠ []
  solid : ∀ c ∈ text, isSeparator c = false ∧ lexer.isOperator c = false

/-- For the usual operator characters, these are the ones that the tables list. -/
theorem IsWord.ordinary (isWord : ({} : Lexer).IsWord text) :
    ∀ c ∈ text, isSeparator c = false ∧ c ∉ Spelling.operatorChars := by
  intro c member
  obtain ⟨separate, ordinary⟩ := isWord.solid c member
  rw [isOperator_default] at ordinary
  exact ⟨separate, by simpa using ordinary⟩

/-- What the kind of a token says of its text. -/
structure Spelled (lexer : Lexer) (t : Token) : Prop where
  keyword : t.kind ∈ Spelling.keywords.map Prod.snd → (t.raw, t.kind) ∈ Spelling.keywords
  name : t.kind = .name → lexer.IsWord t.raw.toList ∧ Spelling.keyword? t.raw = none

/-- A keyword has the text of its kind. -/
theorem Spelled.raw_eq {x : String} {kind : Token.Kind} (spelled : Spelled lexer t)
    (isKind : t.kind = kind) (listed : (x, kind) ∈ Spelling.keywords) : t.raw = x := by
  have unique : ∀ a ∈ Spelling.keywords, ∀ b ∈ Spelling.keywords, a.2 = b.2 → a.1 = b.1 := by
    decide
  have found : (t.raw, t.kind) ∈ Spelling.keywords := by
    apply spelled.keyword
    rw [isKind]
    exact List.mem_map.mpr ⟨_, listed, rfl⟩
  exact unique _ found _ listed isKind

/-! ### Tokens are spelled as their kinds say -/

theorem classify_of_unknown (unknown : t.kind = .unknown) :
    classify t = { t with kind := (Spelling.keyword? t.raw).getD .name } :=
  if_pos unknown

theorem classify_of_not_unknown (known : t.kind ≠ .unknown) : classify t = t :=
  if_neg known

open OperatorRun in
theorem spelled_classify (piece : IsPiece lexer.isOperator word t)
    (solid : ∀ c ∈ word, isSeparator c = false) : Spelled lexer (classify t) := by
  cases piece with
  | word unknown nonempty inside =>
    rw [classify_of_unknown unknown]
    cases found : Spelling.keyword? t.raw with
    | none =>
      have noKeyword : Token.Kind.name ∉ Spelling.keywords.map Prod.snd := by decide
      refine ⟨fun keyword => absurd keyword noKeyword, fun _ => ⟨⟨nonempty, ?_⟩, found⟩⟩
      intro c member
      exact ⟨solid c (inside c member).1, (inside c member).2⟩
    | some kind =>
      refine ⟨fun _ => Spelling.mem_keywords found, ?_⟩
      rintro rfl
      exact absurd (Spelling.kind_of_keyword found) (by decide)
  | operator spelled =>
    obtain ⟨noKeyword, noName, known, -⟩ := Spelling.kind_of_operator spelled
    rw [classify_of_not_unknown known]
    exact ⟨fun keyword => absurd keyword noKeyword, fun name => absurd name noName⟩

/-- The tokens of words mean something. -/
theorem isContent_classify (piece : OperatorRun.IsPiece lexer.isOperator word t) :
    isContent (classify t) = true := by
  cases piece with
  | word unknown =>
    rw [classify_of_unknown unknown]
    cases found : Spelling.keyword? t.raw with
    | none => rfl
    | some kind =>
      have keywords : ∀ k ∈ Spelling.keywords.map Prod.snd, k.isNoise = false := by decide
      simp [isContent, keywords kind (Spelling.kind_of_keyword found)]
  | operator spelled =>
    obtain ⟨-, -, known, content⟩ := Spelling.kind_of_operator spelled
    rw [classify_of_not_unknown known, isContent, content]
    rfl

/-- Only words become keywords and names. -/
theorem unknown_of_isWord (piece : OperatorRun.IsPiece lexer.isOperator word t)
    (isWord : (classify t).IsWord) : t.kind = .unknown := by
  cases piece with
  | word unknown => exact unknown
  | operator spelled =>
    obtain ⟨noKeyword, noName, known, -⟩ := Spelling.kind_of_operator spelled
    rw [classify_of_not_unknown known] at isWord
    exact absurd isWord (not_or.mpr ⟨noKeyword, noName⟩)

/-- None of the tokens of a word is dropped. -/
theorem filter_isContent_split (p : Position) (word : List Char) :
    ((OperatorRun.split lexer.isOperator p word).map classify).filter isContent =
      (OperatorRun.split lexer.isOperator p word).map classify := by
  have keep : ∀ t ∈ ((OperatorRun.split lexer.isOperator p word).map classify).tokens,
      isContent t = true := by
    intro t member
    obtain ⟨v, inside, rfl⟩ := List.mem_map.mp member
    exact isContent_classify (OperatorRun.isPiece_of_mem_split inside)
  rw [Transcript.filter, List.filter_eq_self.mpr keep]

/-- The content of a word is what is left of it when operators are split out. -/
theorem contentOf_of_unknown (unknown : u.kind = .unknown) :
    lexer.contentOf u =
      ((OperatorRun.split lexer.isOperator u.position u.raw.toList).map classify).unplaced := by
  rw [contentOf, OperatorRun.pieces_of_unknown unknown, filter_isContent_split]

/-- Segments are neither keywords nor names. -/
theorem kind_of_shaped {kind : Token.Kind} (shaped : Segment.Shaped kind text behind) :
    kind ∉ Spelling.keywords.map Prod.snd ∧ kind ≠ .name := by
  cases kind
  case newline | comment | space | string | unknown => decide
  all_goals cases shaped

theorem spelled_of_mem_contentOf (shaped : Segment.Shaped u.kind u.raw.toList behind)
    (member : t ∈ (lexer.contentOf u).tokens) : Spelled lexer t := by
  by_cases unknown : u.kind = .unknown
  · rw [contentOf_of_unknown unknown] at member
    obtain ⟨v, named, rfl⟩ := List.mem_map.mp member
    obtain ⟨w, inside, rfl⟩ := List.mem_map.mp named
    rw [unknown] at shaped
    have spelled := spelled_classify (OperatorRun.isPiece_of_mem_split inside) shaped.2.1
    exact ⟨spelled.keyword, spelled.name⟩
  · rw [contentOf_of_not_unknown unknown] at member
    have same : t = u.unplaced := by
      split at member
      · exact List.mem_singleton.mp member
      · cases member
    obtain ⟨noKeyword, noName⟩ := kind_of_shaped shaped
    rw [same]
    exact ⟨fun keyword => absurd keyword noKeyword, fun name => absurd name noName⟩

/-! ### Names that begin a segment -/

/-- A name that does not begin with a quote, or another token. -/
def IsUnquoted (t : Token) : Prop :=
  t.kind = .name → ¬ ['"'] <+: t.raw.toList

/-- Names behind keywords, and at the start, do not begin with a quote. -/
structure Starts (ts : List Token) : Prop where
  behindKeyword : ts.IsChain fun s t => s.kind ∈ Spelling.keywords.map Prod.snd → IsUnquoted t
  head : ∀ t ∈ ts.head?, IsUnquoted t

theorem Starts.append (first : Starts ts) (second : Starts us) : Starts (ts ++ us) := by
  constructor
  · refine List.isChain_append.mpr ⟨first.behindKeyword, second.behindKeyword, ?_⟩
    intro s _ t isNext _
    exact second.head t isNext
  · cases ts with
    | nil => exact second.head
    | cons t ts => exact first.head

/-- Within a word no name follows a keyword, and what comes first begins like the word. -/
theorem starts_split (oneLine : '\n' ∉ word) (unquoted : ¬ ['"'] <+: word) (p : Position) :
    Starts ((OperatorRun.split lexer.isOperator p word).tokens.map
      (Token.unplaced ∘ classify)) := by
  constructor
  · rw [List.isChain_map]
    refine List.IsChain.imp_of_mem_imp ?_ (OperatorRun.isChain_split p word).1
    intro s t sInside tInside apart keyword name
    exfalso
    apply apart
    · exact unknown_of_isWord (OperatorRun.isPiece_of_mem_split sInside) (.inl keyword)
    · exact unknown_of_isWord (OperatorRun.isPiece_of_mem_split tInside) (.inr name)
  · intro t isFirst _ quoted
    rw [List.head?_map, Option.mem_def, Option.map_eq_some_iff] at isFirst
    obtain ⟨v, isFirst, rfl⟩ := isFirst
    obtain ⟨others, whole⟩ := List.head?_eq_some_iff.mp isFirst
    have begins : Token.text [v] <+: word :=
      Transcript.Covers.text_take_prefix (OperatorRun.covers_split p oneLine) whole
    have sameText : (Token.unplaced (classify v)).raw = v.raw := (classify_raw_position v).1
    rw [Token.text_cons, Token.text_nil, List.append_nil] at begins
    rw [Function.comp_apply, sameText] at quoted
    exact unquoted (quoted.trans begins)

theorem starts_contentOf (shaped : Segment.Shaped u.kind u.raw.toList behind) :
    Starts (lexer.contentOf u).tokens := by
  by_cases unknown : u.kind = .unknown
  · rw [unknown] at shaped
    have oneLine := shaped.oneLine
    obtain ⟨-, -, unquoted, -⟩ := shaped
    have starts : Starts ((OperatorRun.split lexer.isOperator u.position u.raw.toList).tokens.map
        (Token.unplaced ∘ classify)) := starts_split oneLine unquoted _
    rw [contentOf_of_unknown unknown]
    rwa [← List.map_map] at starts
  · rw [contentOf_of_not_unknown unknown]
    split
    · refine ⟨.singleton _, ?_⟩
      rintro t ⟨⟩ name
      exact absurd name (kind_of_shaped shaped).2
    · exact ⟨.nil, nofun⟩

/-! ### Whole texts -/

/-- What holds of nothing, of the content of each segment in its shape and of tokens in turn holds
of the content of every text. -/
theorem content_induction (P : List Token → Prop) (nil : P [])
    (append : ∀ ts us, P ts → P us → P (ts ++ us))
    (segment : ∀ (u : Token) (behind : Segment.Boundary),
      Segment.Shaped u.kind u.raw.toList behind → P (lexer.contentOf u).tokens)
    (text : List Char) : P (lexer.content text).tokens := by
  have all (ts : List Token) (wellFormed : Segment.WellFormed ts) :
      P (Transcript.flatMap lexer.contentOf ⟨ts, none⟩).tokens := by
    induction ts with
    | nil => exact nil
    | cons u us ih =>
      change P (lexer.contentOf u ++ Transcript.flatMap lexer.contentOf ⟨us, none⟩).tokens
      rw [Transcript.tokens_append]
      refine append _ _ (segment u _ wellFormed.1) ?_
      split
      · exact ih wellFormed.2
      · exact nil
  exact all _ (Segment.wellFormed_cut {} text)

/-- All tokens are spelled as their kinds say. -/
theorem spelled_of_mem_content : ∀ t ∈ (lexer.content text).tokens, Spelled lexer t := by
  refine content_induction (fun ts => ∀ t ∈ ts, Spelled lexer t) nofun ?_ ?_ text
  · intro ts us first second t member
    rcases List.mem_append.mp member with inFirst | inSecond
    · exact first t inFirst
    · exact second t inSecond
  · intro u behind shaped t member
    exact spelled_of_mem_contentOf shaped member

/-- A name that begins with a quote stands neither at the start nor behind a keyword. -/
theorem starts_content (lexer : Lexer) (text : List Char) :
    Starts (lexer.content text).tokens :=
  content_induction Starts ⟨.nil, nofun⟩ (fun _ _ => Starts.append)
    (fun _ _ => starts_contentOf) text

/-- The tokens of a source are spelled as their kinds say. -/
theorem spelled_of_mem_tokens {source : String}
    (member : t ∈ (lexer.tokens source).transcript.tokens) : Spelled lexer t := by
  have inside : t.unplaced ∈ (lexer.content source.toList).tokens := by
    rw [← map_unplaced_tokens]
    exact List.mem_map_of_mem member
  have spelled := spelled_of_mem_content _ inside
  exact ⟨spelled.keyword, spelled.name⟩

/-- Among the tokens of a source, a name behind a keyword does not begin with a quote. -/
theorem isChain_tokens (lexer : Lexer) (source : String) :
    (lexer.tokens source).transcript.tokens.IsChain fun s t =>
      s.kind ∈ Spelling.keywords.map Prod.snd → IsUnquoted t := by
  have starts := (starts_content lexer source.toList).behindKeyword
  rw [← map_unplaced_tokens, List.isChain_map] at starts
  exact starts

end Lexer

end Spire
