import Spire.Proofs.Layout
import Spire.Proofs.Printing

/-!
# Writing lexemes

An operator, a keyword, a name and a closed string are each read as one token if they are written
by themselves. They may be written one behind the other with any layout between them that begins
with a separator, and the lexer gives them back one by one. Nothing of the layout gets into a
lexeme: a comment goes on to the end of its line whatever is in it, a string goes on to its second
quote, and everything else stops at the separator.

## Main definitions

* `IsLexeme`, `Lexeme` — kinds and texts of tokens that stand by themselves
* `Written` — the texts that lexemes are written as

## Main results

* `Lexer.contentOf_operator`, `Lexer.contentOf_isWord` — words of one run are read as one token
* `Lexeme.content_append` — a lexeme in front of a separator contributes itself
* `Lexer.tokenize_undoes_writing` — writing and reading back
-/

namespace Spire

/-- The kinds and texts of tokens that stand by themselves: operators and keywords as they are
listed, names, and strings that are closed. -/
inductive IsLexeme : Token.Kind → String → Prop where
  | operator {kind : Token.Kind} {raw : String} (listed : (raw, kind) ∈ Spelling.operators) :
      IsLexeme kind raw
  | keyword {kind : Token.Kind} {raw : String} (listed : (raw, kind) ∈ Spelling.keywords) :
      IsLexeme kind raw
  | name {raw : String} (isName : IsName raw) : IsLexeme .name raw
  | string {body : List Char} (unquoted : '"' ∉ body) :
      IsLexeme .string (String.ofList ('"' :: (body ++ ['"'])))

/-- A token that stands by itself, without a place. -/
structure Lexeme where
  kind : Token.Kind
  raw : String
  spelled : IsLexeme kind raw

/-- The texts that lexemes are written as, with layouts between them, behind them and in front of
them. The flag tells whether these are the first lexemes of a source. -/
inductive Written : Bool → List Lexeme → List Char → Prop where
  | done {first : Bool} {gap : List Char} (fits : Layout.Fits first true gap) :
      Written first [] gap
  | lexeme {first : Bool} {gap text : List Char} {x : Lexeme} {xs : List Lexeme}
      (fits : Layout.Fits first false gap) (others : Written false xs text) :
      Written first (x :: xs) (gap ++ (x.raw.toList ++ text))

namespace Spelling

/-- Operators are words of operator characters. -/
theorem shaped_of_operator {raw : String} {kind : Token.Kind} (listed : (raw, kind) ∈ operators) :
    Segment.Shaped .unknown raw.toList .ending ∧ (∀ c ∈ raw.toList, c ∈ operatorChars) ∧
      operator? raw.toList = some kind := by
  have table : ∀ entry ∈ operators, Segment.Shaped .unknown entry.1.toList .ending ∧
      entry.1.toList.all operatorChars.contains = true ∧
        operator? entry.1.toList = some entry.2 := by
    decide
  obtain ⟨shaped, characters, spelled⟩ := table _ listed
  refine ⟨shaped, fun c member => ?_, spelled⟩
  exact List.contains_iff_mem.mp (List.all_eq_true.mp characters c member)

/-- Keywords are words without operator characters. -/
theorem shaped_of_keyword {raw : String} {kind : Token.Kind} (listed : (raw, kind) ∈ keywords) :
    Segment.Shaped .unknown raw.toList .ending ∧ (∀ c ∈ raw.toList, c ∉ operatorChars) ∧
      keyword? raw = some kind := by
  have table : ∀ entry ∈ keywords, Segment.Shaped .unknown entry.1.toList .ending ∧
      entry.1.toList.any operatorChars.contains = false ∧ keyword? entry.1 = some entry.2 := by
    decide
  obtain ⟨shaped, characters, spelled⟩ := table _ listed
  refine ⟨shaped, fun c member isOperator => ?_, spelled⟩
  exact List.any_eq_false.mp characters c member (List.contains_iff_mem.mpr isOperator)

end Spelling

/-! ### Words of one run -/

/-- A name is a word. -/
theorem IsName.shaped {x : String} (name : IsName x) :
    Segment.Shaped .unknown x.toList .ending := by
  refine ⟨name.nonempty, fun c member => (name.solid c member).1, name.unquoted, ?_, nofun⟩
  intro commented
  have slash : '/' ∈ x.toList := commented.subset (List.mem_cons_self ..)
  exact absurd (name.solid '/' slash).2 (by decide)

namespace Lexer

variable {lexer : Lexer} {raw : String} {kind : Token.Kind}

/-- An operator is read as itself. -/
theorem contentOf_operator (spelled : Spelling.operator? raw.toList = some kind)
    (operators : ∀ c ∈ raw.toList, lexer.isOperator c = true) (nonempty : raw.toList ≠ []) :
    lexer.contentOf ⟨.unknown, raw, {}⟩ = ⟨[⟨kind, raw, {}⟩], none⟩ := by
  have whole : OperatorRun.read {} raw.toList = ⟨[⟨kind, raw, {}⟩], none⟩ := by
    obtain ⟨c, rest, same⟩ := List.exists_cons_of_ne_nil nonempty
    rw [same] at spelled
    rw [same, OperatorRun.read, spelled, ← same, String.ofList_toList]
  obtain ⟨-, -, known, -⟩ := Spelling.kind_of_operator spelled
  rw [contentOf_of_unknown rfl, OperatorRun.split_run _ nonempty operators, OperatorRun.readRun,
    if_pos rfl, whole, Transcript.map, List.map_singleton, classify_of_not_unknown known]
  rfl

/-- A word without operator characters is read as a keyword or a name. -/
theorem contentOf_isWord (isWord : lexer.IsWord raw.toList) :
    lexer.contentOf ⟨.unknown, raw, {}⟩ =
      ⟨[⟨(Spelling.keyword? raw).getD .name, raw, {}⟩], none⟩ := by
  have ordinary : ∀ c ∈ raw.toList, lexer.isOperator c = false := by
    intro c member
    exact (isWord.solid c member).2
  rw [contentOf_of_unknown rfl, OperatorRun.split_run _ isWord.nonempty ordinary,
    OperatorRun.readRun, String.ofList_toList]
  rfl

/-- A word without any of the usual operator characters is read as a keyword or a name. -/
theorem contentOf_ordinary (shaped : Segment.Shaped .unknown raw.toList .ending)
    (ordinary : ∀ c ∈ raw.toList, c ∉ Spelling.operatorChars) :
    ({} : Lexer).contentOf ⟨.unknown, raw, {}⟩ =
      ⟨[⟨(Spelling.keyword? raw).getD .name, raw, {}⟩], none⟩ := by
  apply contentOf_isWord
  refine ⟨shaped.1, fun c member => ⟨shaped.2.1 c member, ?_⟩⟩
  rw [isOperator_default]
  simpa using ordinary c member

end Lexer

/-! ### Lexemes -/

namespace Lexeme

variable {x : Lexeme} {xs : List Lexeme} {rest text : List Char} {first : Bool}

/-- A lexeme in front of a separator contributes itself. -/
theorem content_append (x : Lexeme) (ends : ∀ c ∈ rest.head?, isSeparator c = true) :
    ({} : Lexer).content (x.raw.toList ++ rest) =
      .cons ⟨x.kind, x.raw, {}⟩ (({} : Lexer).content rest) := by
  obtain ⟨kind, raw, spelled⟩ := x
  -- A word counts for itself, so it is enough to know how it is read by itself.
  have word (shaped : Segment.Shaped .unknown raw.toList .ending)
      (own : ({} : Lexer).contentOf ⟨.unknown, raw, {}⟩ = ⟨[⟨kind, raw, {}⟩], none⟩) :
      ({} : Lexer).content (raw.toList ++ rest) =
        .cons ⟨kind, raw, {}⟩ (({} : Lexer).content rest) := by
    rw [Lexer.content_word shaped ends, String.ofList_toList, own]
    rfl
  cases spelled with
  | operator listed =>
    obtain ⟨shaped, operators, isOperator⟩ := Spelling.shaped_of_operator listed
    apply word shaped
    apply Lexer.contentOf_operator isOperator _ shaped.1
    intro c member
    rw [Lexer.isOperator_default]
    simpa using operators c member
  | keyword listed =>
    obtain ⟨shaped, ordinary, isKeyword⟩ := Spelling.shaped_of_keyword listed
    apply word shaped
    rw [Lexer.contentOf_ordinary shaped ordinary, isKeyword]
    rfl
  | name isName =>
    apply word isName.shaped
    rw [Lexer.contentOf_ordinary isName.shaped fun c member => (isName.solid c member).2,
      isName.unreserved]
    rfl
  | @string body unquoted =>
    have shaped : Segment.Shaped .string ('"' :: (body ++ ['"'])) (.ofText rest) :=
      Segment.shaped_string_iff.mpr ⟨body, unquoted, .inl rfl⟩
    have own : ({} : Lexer).contentOf ⟨.string, String.ofList ('"' :: (body ++ ['"'])), {}⟩ =
        ⟨[⟨.string, String.ofList ('"' :: (body ++ ['"'])), {}⟩], none⟩ :=
      Lexer.contentOf_of_not_unknown nofun
    rw [String.toList_ofList, Lexer.content_append shaped, own]
    rfl

end Lexeme

namespace Written

variable {x : Lexeme} {xs : List Lexeme} {text : List Char} {first : Bool}

/-- Behind a lexeme there is a separator or nothing. -/
theorem separates (written : Written false xs text) : ∀ c ∈ text.head?, isSeparator c = true := by
  cases written with
  | done fits => exact fits.separates rfl
  | @lexeme _ gap text x xs fits others =>
    have nonempty : gap ≠ [] := by
      intro empty
      rcases fits.nonempty empty with isFirst | isLast
      · cases isFirst
      · cases isLast
    obtain ⟨c, more, rfl⟩ := List.exists_cons_of_ne_nil nonempty
    exact fits.separates rfl

/-- The content of a text that lexemes are written as is these lexemes. -/
theorem content_eq (written : Written first xs text) :
    ({} : Lexer).content text = ⟨xs.map fun x => ⟨x.kind, x.raw, {}⟩, none⟩ := by
  induction written with
  | @done first gap fits =>
    have dropped : ({} : Lexer).content (gap ++ []) = ({} : Lexer).content [] :=
      Layout.content_append fits.layout fun _ => rfl
    rwa [List.append_nil, Lexer.content_nil] at dropped
  | lexeme fits others ih =>
    rw [Layout.content_append fits.layout nofun, Lexeme.content_append _ others.separates, ih]
    rfl

end Written

/-- **Reading undoes writing.** If lexemes are written one behind the other with layouts between
them, the lexer gives one token for each of them, with its kind and its text. -/
theorem Lexer.tokenize_undoes_writing (lexemes : List Lexeme) (source : String)
    (written : Written true lexemes source.toList) :
    ∃ ts, ({} : Lexer).tokenize source = .ok ts ∧
      ts.map (fun t => (t.kind, t.raw)) = lexemes.map fun x => (x.kind, x.raw) := by
  have noFault := fault?_tokens source false
  have content := map_unplaced_tokens {} source
  rw [written.content_eq] at content
  refine ⟨(({} : Lexer).tokens source).transcript.tokens, ?_, ?_⟩
  · rw [tokenize, Transcript.toExcept, noFault]
  · have pairs := congrArg (List.map fun t : Token => (t.kind, t.raw)) content
    rwa [List.map_map, List.map_map] at pairs

/-- Lexemes of each sort: a name with a quote in it, a string with two slashes in it, and a slash
with a comment behind it. -/
def Lexeme.quotesAndSlashes : List Lexeme :=
  [⟨.fn, "fn", .keyword (by decide)⟩, ⟨.name, "𝒳\"x", .name (by decide)⟩,
    ⟨.string, String.ofList ('"' :: (['/', '/'] ++ ['"'])), .string (by decide)⟩,
    ⟨.div, "/", .operator (by decide)⟩]

/-- The comment in front and the one in the middle have quotes in them, and the last one is ended
by the end of the source. -/
theorem Lexer.tokenize_undoes_writing_quotesAndSlashes :
    Written true Lexeme.quotesAndSlashes "//\"\nfn\t𝒳\"x //\"\n\"//\" / // end".toList ∧
      ∃ ts, ({} : Lexer).tokenize "//\"\nfn\t𝒳\"x //\"\n\"//\" / // end" = .ok ts ∧
        ts.map (fun t => (t.kind, t.raw)) =
          Lexeme.quotesAndSlashes.map fun x => (x.kind, x.raw) := by
  have text : "//\"\nfn\t𝒳\"x //\"\n\"//\" / // end".toList =
      ('/' :: '/' :: ['"'] ++ '\n' :: []) ++ ("fn".toList ++ (['\t'] ++ ("𝒳\"x".toList ++
        ((' ' :: ('/' :: '/' :: ['"'] ++ '\n' :: [])) ++
          ((String.ofList ('"' :: (['/', '/'] ++ ['"']))).toList ++ ([' '] ++ ("/".toList ++
            ' ' :: ('/' :: '/' :: [' ', 'e', 'n', 'd'])))))))) := by
    simp
  have between {rest : List Char} {last : Bool} {c : Char} (separates : isSeparator c = true)
      (layout : Layout last rest) : Layout.Fits false last (c :: rest) := by
    refine ⟨.separator separates layout, nofun, ?_⟩
    rintro - d ⟨⟩
    exact separates
  have comment : Layout false ('/' :: '/' :: ['"'] ++ '\n' :: []) := .comment (by decide) .nil
  have written : Written true Lexeme.quotesAndSlashes
      "//\"\nfn\t𝒳\"x //\"\n\"//\" / // end".toList := by
    rw [text]
    refine .lexeme ⟨comment, nofun, nofun⟩ (.lexeme (between rfl .nil) ?_)
    refine .lexeme (between rfl comment) (.lexeme (between rfl .nil) ?_)
    exact .done (between rfl (.ending rfl (by decide)))
  exact ⟨written, Lexer.tokenize_undoes_writing _ _ written⟩

end Spire
