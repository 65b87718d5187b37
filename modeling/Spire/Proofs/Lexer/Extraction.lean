import Spire.Proofs.Lexer.Fault

/-!
# What splitting operators out of words gives

There is one way only to cut a word into runs of operator characters and of other characters that
take turns. A run of other characters is a word again. A run of operator characters falls apart
into its characters, except that its last two stay together if they are an operator: what is left
of a run is looked up as a whole before its first character is taken, and no operator is longer.
Each token stands as many columns to the right as there are characters in front of it.

This holds of any tokens that are given to the lexer to split, not only of the segments of a source.

## Main definitions

* `OperatorRun.Alternates` — a word cut into runs that take turns
* `OperatorRun.Reading`, `OperatorRun.RunReading` — the tokens of a run of operator characters,
  and of any run
* `OperatorRun.Extracts` — what a token is replaced by

## Main results

* `OperatorRun.existsUnique_alternates` — a word is cut into runs in one way only
* `OperatorRun.extracts_pieces` — what a token without a fault is replaced by
* `Lexer.extracts_operators` — what tokens without a fault are replaced by
-/

namespace Spire

namespace OperatorRun

variable {isOperator : Char → Bool} {p : Position} {run rest word : List Char} {t : Token}
  {ts us : List Token} {parts : List (List Char)} {b : Bool}

/-! ### The runs of a word -/

/-- A word cut into runs: each has characters of one sort, and the next one has characters of the
other sort. -/
structure Alternates (isOperator : Char → Bool) (word : List Char) (parts : List (List Char)) :
    Prop where
  whole : parts.flatten = word
  nonempty : ∀ run ∈ parts, run ≠ []
  uniform : ∀ run ∈ parts, ∃ b, ∀ c ∈ run, isOperator c = b
  maximal : parts.IsChain fun run next => ∀ c ∈ run, ∀ d ∈ next, isOperator c ≠ isOperator d

theorem Alternates.head?_mem (alternates : Alternates isOperator word (run :: parts)) :
    ∃ c ∈ run, word.head? = some c := by
  obtain ⟨c, others, rfl⟩ :=
    List.exists_cons_of_ne_nil (alternates.nonempty run (List.mem_cons_self ..))
  refine ⟨c, List.mem_cons_self .., ?_⟩
  rw [← alternates.whole]
  rfl

theorem Alternates.tail (alternates : Alternates isOperator word (run :: parts)) :
    Alternates isOperator parts.flatten parts where
  whole := rfl
  nonempty := fun other member => alternates.nonempty other (List.mem_cons_of_mem _ member)
  uniform := fun other member => alternates.uniform other (List.mem_cons_of_mem _ member)
  maximal := alternates.maximal.tail

/-- Runs that take turns are the runs of the word. -/
theorem Alternates.eq_runs (alternates : Alternates isOperator word parts) :
    parts = runs isOperator word := by
  induction parts generalizing word with
  | nil =>
    rw [← alternates.whole]
    rfl
  | cons run others ih =>
    have nonempty := alternates.nonempty run (List.mem_cons_self ..)
    obtain ⟨b, agree⟩ := alternates.uniform run (List.mem_cons_self ..)
    have differs : ∀ d ∈ others.flatten.head?, isOperator d ≠ b := by
      intro d isNext
      obtain ⟨c, first⟩ := List.exists_mem_of_ne_nil run nonempty
      cases others with
      | nil => cases isNext
      | cons next more =>
        obtain ⟨e, inNext, isFirst⟩ := alternates.tail.head?_mem
        cases isFirst.symm.trans isNext
        rw [← agree c first]
        exact ((List.isChain_cons_cons.mp alternates.maximal).1 c first d inNext).symm
    rw [← alternates.whole, List.flatten_cons, runs_append nonempty agree differs,
      ← ih alternates.tail]

theorem alternates_runs (isOperator : Char → Bool) (word : List Char) :
    Alternates isOperator word (runs isOperator word) := by
  induction word using runs_induction isOperator with
  | nil => exact ⟨rfl, nofun, nofun, .nil⟩
  | append b run rest nonempty agree differs ih =>
    rw [runs_append nonempty agree differs]
    constructor
    case whole => rw [List.flatten_cons, ih.whole]
    case nonempty => exact List.forall_mem_cons.mpr ⟨nonempty, ih.nonempty⟩
    case uniform => exact List.forall_mem_cons.mpr ⟨⟨b, agree⟩, ih.uniform⟩
    case maximal =>
      cases others : runs isOperator rest with
      | nil => exact .singleton _
      | cons next more =>
        rw [others] at ih
        refine List.isChain_cons_cons.mpr ⟨?_, ih.maximal⟩
        intro c first d second
        obtain ⟨e, inNext, isFirst⟩ := ih.head?_mem
        obtain ⟨b', same⟩ := ih.uniform next (List.mem_cons_self ..)
        rw [agree c first, same d second, ← same e inNext]
        exact (differs e isFirst).symm

/-- A word is cut into runs that take turns in one way only. -/
theorem existsUnique_alternates (isOperator : Char → Bool) (word : List Char) :
    ∃! parts, Alternates isOperator word parts :=
  ⟨runs isOperator word, alternates_runs isOperator word, fun _ others => others.eq_runs⟩

/-! ### The tokens of a run -/

/-- The operators of a run: one for each character, but one for the last two if they are an
operator together. -/
inductive Reading : List Char → List Token → Prop where
  | ones {run : List Char} {ts : List Token}
      (noPair : ∀ front c d, run = front ++ [c, d] → Spelling.operator? [c, d] = none)
      (each : OneByOne run ts) : Reading run ts
  | pair {front : List Char} {c d : Char} {ts : List Token} {t : Token}
      (spelled : Spelling.operator? [c, d] = some t.kind) (text : t.raw = String.ofList [c, d])
      (each : OneByOne front ts) : Reading (front ++ [c, d]) (ts ++ [t])

/-- The tokens of a run: operators, or one word. -/
inductive RunReading (isOperator : Char → Bool) (run : List Char) : List Token → Prop where
  | operators {ts : List Token} (operators : ∀ c ∈ run, isOperator c = true)
      (reading : Reading run ts) : RunReading isOperator run ts
  | word {t : Token} (others : ∀ c ∈ run, isOperator c = false) (unknown : t.kind = .unknown)
      (text : t.raw = String.ofList run) : RunReading isOperator run [t]

/-- An operator is a single character or a pair. -/
theorem reading_of_spelled {kind : Token.Kind} (spelled : Spelling.operator? run = some kind) :
    Reading run [⟨kind, String.ofList run, p⟩] := by
  rcases Spelling.operator?_length spelled with one | two
  · obtain ⟨c, rfl⟩ := List.length_eq_one_iff.mp one
    refine .ones ?_ (.cons ⟨rfl, spelled⟩ .nil)
    intro front a b long
    have tooLong := congrArg List.length long
    simp at tooLong
  · obtain ⟨c, d, rfl⟩ := List.length_eq_two.mp two
    have pair : Reading ([] ++ [c, d]) ([] ++ [⟨kind, String.ofList [c, d], p⟩]) :=
      .pair spelled rfl .nil
    exact pair

/-- One more operator of one character in front of a run leaves its end as it is. -/
theorem Reading.cons {c : Char} (reading : Reading run ts)
    (single : Spelling.operator? [c] = some t.kind) (text : t.raw = String.ofList [c])
    (notWhole : Spelling.operator? (c :: run) = none) : Reading (c :: run) (t :: ts) := by
  cases reading with
  | ones noPair each =>
    refine .ones ?_ (.cons ⟨text, single⟩ each)
    intro front a b whole
    cases front with
    | nil =>
      rw [List.nil_append] at whole
      rwa [whole] at notWhole
    | cons e front => exact noPair front a b (List.cons.inj whole).2
  | pair spelled pairText each =>
    exact .pair spelled pairText (.cons ⟨text, single⟩ each)

theorem reading_read (noFault : (read p run).fault? = none) :
    Reading run (read p run).tokens := by
  induction run generalizing p with
  | nil => exact .ones (by simp) .nil
  | cons c rest ih =>
    rw [read] at noFault ⊢
    -- What is left is looked up as a whole first, so a pair is found once nothing else is left.
    cases whole : Spelling.operator? (c :: rest) with
    | some kind => exact reading_of_spelled whole
    | none =>
      cases single : Spelling.operator? [c] with
      | some kind =>
        rw [whole, single] at noFault
        exact (ih noFault).cons single rfl whole
      | none =>
        rw [whole, single] at noFault
        cases noFault

theorem runReading_readRun (agree : ∀ c ∈ run, isOperator c = b)
    (noFault : (readRun b p run).fault? = none) :
    RunReading isOperator run (readRun b p run).tokens := by
  cases b with
  | true => exact .operators agree (reading_read noFault)
  | false => exact .word agree rfl rfl

/-! ### The places of tokens -/

/-- Each token stands as many columns to the right of `p` as there are characters in the tokens in
front of it. -/
def Placed (p : Position) (ts : List Token) : Prop :=
  ∀ ⦃before t after⦄, ts = before ++ t :: after →
    t.position.line = p.line ∧ t.position.column = p.column + (Token.text before).length

theorem placed_nil : Placed p [] := by
  intro before t after whole
  simp at whole

theorem placed_cons (first : t.position = p)
    (others : Placed (p.right t.raw.toList.length) ts) : Placed p (t :: ts) := by
  intro before u after whole
  cases before with
  | nil =>
    obtain ⟨rfl, rfl⟩ := List.cons.inj whole
    rw [first]
    exact ⟨rfl, rfl⟩
  | cons v before =>
    obtain ⟨rfl, later⟩ := List.cons.inj whole
    obtain ⟨line, column⟩ := others later
    refine ⟨line, ?_⟩
    rw [column, Token.text_cons, List.length_append, ← Nat.add_assoc]
    rfl

/-- Tokens in turn stand in turn. -/
theorem Placed.append (first : Placed p ts) (second : Placed (p.right (Token.text ts).length) us) :
    Placed p (ts ++ us) := by
  intro before t after whole
  have tokens : ((⟨ts, none⟩ : Transcript) ++ ⟨us, none⟩).tokens = before ++ t :: after := whole
  rcases Transcript.tokens_append_eq tokens with ⟨later, inFirst⟩ | ⟨-, more, rfl, inSecond⟩
  · exact first inFirst
  · obtain ⟨line, column⟩ := second inSecond
    refine ⟨line, ?_⟩
    rw [column, Token.text_append, List.length_append, ← Nat.add_assoc]
    rfl

theorem placed_read (p : Position) (run : List Char) : Placed p (read p run).tokens := by
  induction run generalizing p with
  | nil => exact placed_nil
  | cons c rest ih =>
    rw [read]
    split
    · exact placed_cons rfl placed_nil
    split
    · refine placed_cons rfl ?_
      rw [String.toList_ofList]
      exact ih (p.right 1)
    · exact placed_nil

theorem placed_readRun (b : Bool) (p : Position) (run : List Char) :
    Placed p (readRun b p run).tokens := by
  cases b with
  | true => exact placed_read p run
  | false => exact placed_cons rfl placed_nil

/-! ### The tokens of a word -/

/-- The tokens inside a word are those of its runs, and they make it up. -/
theorem readings_split (noFault : (split isOperator p word).fault? = none) :
    (∃ readings, List.Forall₂ (RunReading isOperator) (runs isOperator word) readings ∧
      (split isOperator p word).tokens = readings.flatten) ∧
    Token.text (split isOperator p word).tokens = word ∧
    Placed p (split isOperator p word).tokens := by
  induction word using runs_induction isOperator generalizing p with
  | nil => exact ⟨⟨[], .nil, rfl⟩, rfl, placed_nil⟩
  | append b run rest nonempty agree differs ih =>
    rw [split_append p nonempty agree differs] at noFault ⊢
    obtain ⟨runSpelled, restSpelled⟩ := Transcript.fault?_append_eq_none noFault
    obtain ⟨⟨readings, each, tokens⟩, text, placed⟩ := ih restSpelled
    have runText := text_readRun runSpelled
    rw [Transcript.append_of_fault?_eq_none runSpelled, runs_append nonempty agree differs]
    refine ⟨⟨_ :: readings, .cons (runReading_readRun agree runSpelled) each, ?_⟩, ?_, ?_⟩
    · rw [List.flatten_cons, ← tokens]
    · rw [Token.text_append, runText, text]
    · refine (placed_readRun b p run).append ?_
      rwa [runText]

/-- What a token is replaced by: a word by the tokens of its runs, which make it up and stand where
their characters stood in it, and any other token by itself. -/
inductive Extracts (isOperator : Char → Bool) (t : Token) : List Token → Prop where
  | other (known : t.kind ≠ .unknown) : Extracts isOperator t [t]
  | word {parts : List (List Char)} {readings : List (List Token)} (unknown : t.kind = .unknown)
      (alternates : Alternates isOperator t.raw.toList parts)
      (each : List.Forall₂ (RunReading isOperator) parts readings)
      (text : Token.text readings.flatten = t.raw.toList)
      (placed : Placed t.position readings.flatten) : Extracts isOperator t readings.flatten

theorem extracts_pieces (noFault : (pieces isOperator t).fault? = none) :
    Extracts isOperator t (pieces isOperator t).tokens := by
  by_cases unknown : t.kind = .unknown
  · rw [pieces_of_unknown unknown] at noFault ⊢
    obtain ⟨⟨readings, each, tokens⟩, text, placed⟩ := readings_split noFault
    rw [tokens] at text placed ⊢
    exact .word unknown (alternates_runs isOperator _) each text placed
  · rw [pieces_of_not_unknown unknown]
    exact .other unknown

/-- A word without characters is replaced by nothing. -/
theorem Extracts.eq_nil (extracts : Extracts isOperator t us) (unknown : t.kind = .unknown)
    (empty : t.raw = "") : us = [] := by
  cases extracts with
  | other known => exact absurd unknown known
  | word _ alternates each _ _ =>
    have none := alternates.eq_runs
    rw [empty] at none
    subst none
    cases each
    rfl

end OperatorRun

/-- If nothing goes wrong in the whole, nothing goes wrong in any part. -/
theorem Transcript.fault?_of_flatMap {f : Token → Transcript} {ts : List Token} {t : Token}
    (noFault : (flatMap f ⟨ts, none⟩).fault? = none) (member : t ∈ ts) : (f t).fault? = none := by
  induction ts with
  | nil => cases member
  | cons u ts ih =>
    obtain ⟨first, others⟩ := fault?_append_eq_none noFault
    rcases List.mem_cons.mp member with rfl | later
    · exact first
    · exact ih others later

namespace Lexer

/-- **Extraction.** If no operator character is without a kind, each token is replaced in its place:
a word by the tokens of its runs, and any other token by itself. There is one way only to cut a
word into runs, an empty word is replaced by nothing, and the operator characters are those of the
lexer in the basic plane. -/
theorem extracts_operators (lexer : Lexer) (ts : List Token)
    (noFault : (lexer.splitOperators (.ofList ts)).transcript.fault? = none) :
    (∃ parts, List.Forall₂ (OperatorRun.Extracts lexer.isOperator) ts parts ∧
      (lexer.splitOperators (.ofList ts)).transcript.tokens = parts.flatten) ∧
    (∀ word, ∃! runs, OperatorRun.Alternates lexer.isOperator word runs) ∧
    (∀ t us, OperatorRun.Extracts lexer.isOperator t us → t.kind = .unknown → t.raw = "" →
      us = []) ∧
    ∀ c, lexer.isOperator c = true ↔ c ∈ lexer.operatorChars ∧ c.toNat ≤ 0xFFFF := by
  refine ⟨?_, OperatorRun.existsUnique_alternates _, fun t us => OperatorRun.Extracts.eq_nil,
    isOperator_iff lexer⟩
  rw [transcript_splitOperators, TokenStream.transcript_ofList] at noFault ⊢
  have each : ∀ t ∈ ts, (OperatorRun.pieces lexer.isOperator t).fault? = none :=
    fun t => Transcript.fault?_of_flatMap noFault
  refine ⟨ts.map fun t => (OperatorRun.pieces lexer.isOperator t).tokens, ?_, ?_⟩
  · rw [List.forall₂_map_right_iff, List.forall₂_same]
    exact fun t member => OperatorRun.extracts_pieces (each t member)
  · rw [Transcript.flatMap_of_fault?_eq_none each, List.flatMap_def]

/-- The pair at the end of a run is found behind a character beyond the basic plane and an operator,
but not at the beginning of a run; a comment and an empty word are among the tokens. -/
theorem extracts_operators_in_mixedRuns :
    (({} : Lexer).splitOperators (.ofList [⟨.unknown, "𝒳<<<a--+", ⟨2, 7⟩⟩,
        ⟨.comment, "//++", ⟨9, 9⟩⟩, ⟨.unknown, "", ⟨3, 1⟩⟩])).transcript.fault? = none ∧
      ∃ parts, List.Forall₂ (OperatorRun.Extracts ({} : Lexer).isOperator)
          [⟨.unknown, "𝒳<<<a--+", ⟨2, 7⟩⟩, ⟨.comment, "//++", ⟨9, 9⟩⟩, ⟨.unknown, "", ⟨3, 1⟩⟩]
          parts ∧
        [⟨.unknown, "𝒳", ⟨2, 7⟩⟩, ⟨.lt, "<", ⟨2, 8⟩⟩, ⟨.shiftLeft, "<<", ⟨2, 9⟩⟩,
          ⟨.unknown, "a", ⟨2, 11⟩⟩, ⟨.sub, "-", ⟨2, 12⟩⟩, ⟨.sub, "-", ⟨2, 13⟩⟩,
          ⟨.add, "+", ⟨2, 14⟩⟩, ⟨.comment, "//++", ⟨9, 9⟩⟩] = parts.flatten := by
  have split : (({} : Lexer).splitOperators (.ofList [⟨.unknown, "𝒳<<<a--+", ⟨2, 7⟩⟩,
      ⟨.comment, "//++", ⟨9, 9⟩⟩, ⟨.unknown, "", ⟨3, 1⟩⟩])).transcript =
      ⟨[⟨.unknown, "𝒳", ⟨2, 7⟩⟩, ⟨.lt, "<", ⟨2, 8⟩⟩, ⟨.shiftLeft, "<<", ⟨2, 9⟩⟩,
        ⟨.unknown, "a", ⟨2, 11⟩⟩, ⟨.sub, "-", ⟨2, 12⟩⟩, ⟨.sub, "-", ⟨2, 13⟩⟩,
        ⟨.add, "+", ⟨2, 14⟩⟩, ⟨.comment, "//++", ⟨9, 9⟩⟩], none⟩ := by
    decide +kernel
  have noFault := congrArg Transcript.fault? split
  obtain ⟨parts, each, tokens⟩ := (extracts_operators _ _ noFault).1
  rw [split] at tokens
  exact ⟨noFault, parts, each, tokens⟩

end Lexer

end Spire
