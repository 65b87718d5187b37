import Spire.Proofs.Lexer.Names

/-!
# The stages of the lexer against each other

The stages work token by token, so what they have to do with each other is settled by what they do
to one token. A token that comes out of a stage is left alone by this stage: noise is gone, words
have their names, and the words and operators inside a word have nothing left to be split out.
Noise goes through splitting and naming as it is, and neither makes noise of anything else, so it
may be dropped first or last.

Since a fault comes in its place behind the tokens, all this holds of streams that end with one,
and of splitting that comes to one.

## Main results

* `TokenStream.ext_transcript` — a stream is known by what it hands out
* `OperatorRun.pieces_of_mem_pieces` — the tokens inside a word are not split any further
* `Lexer.stages_agree` — each stage done twice is done once, and noise is dropped first or last
-/

namespace Spire

/-! ### Streams and what they hand out -/

theorem TokenStream.ofTranscript_transcript (s : TokenStream) : ofTranscript s.transcript = s := by
  induction s with
  | done => rfl
  | fault cause => rfl
  | token t rest ih =>
    change token t (fun _ => ofTranscript (rest ()).transcript) = token t rest
    rw [ih ()]

/-- A stream is known by what it hands out. -/
theorem TokenStream.ext_transcript {s s' : TokenStream} (same : s.transcript = s'.transcript) :
    s = s' := by
  rw [← ofTranscript_transcript s, same, ofTranscript_transcript]

namespace Transcript

variable {ts : Transcript} {f : Token → Transcript} {t u : Token}

/-- Nothing changes if each token is replaced by itself. -/
theorem flatMap_eq_self (fixed : ∀ t ∈ ts.tokens, f t = ⟨[t], none⟩) : ts.flatMap f = ts := by
  obtain ⟨tokens, fault?⟩ := ts
  induction tokens with
  | nil => rfl
  | cons t tokens ih =>
    have others := ih fun u member => fixed u (List.mem_cons_of_mem _ member)
    have whole : flatMap f ⟨t :: tokens, fault?⟩ = f t ++ flatMap f ⟨tokens, fault?⟩ := rfl
    rw [whole, others, fixed t (List.mem_cons_self ..), mk_none_append]
    rfl

/-- A token of the whole comes from one of the tokens that were replaced. -/
theorem exists_of_mem_flatMap (member : u ∈ (ts.flatMap f).tokens) :
    ∃ t ∈ ts.tokens, u ∈ (f t).tokens := by
  obtain ⟨tokens, fault?⟩ := ts
  induction tokens with
  | nil => cases member
  | cons t tokens ih =>
    rcases mem_of_mem_append member with first | later
    · exact ⟨t, List.mem_cons_self .., first⟩
    · obtain ⟨v, inside, fromV⟩ := ih later
      exact ⟨v, List.mem_cons_of_mem _ inside, fromV⟩

/-- To drop tokens is to replace them by nothing. -/
theorem flatMap_filter (keep : Token → Bool) :
    (ts.filter keep).flatMap f = ts.flatMap fun t => if keep t then f t else {} := by
  obtain ⟨tokens, fault?⟩ := ts
  induction tokens with
  | nil => rfl
  | cons t tokens ih =>
    change flatMap f ⟨(t :: tokens).filter keep, fault?⟩ =
      (if keep t then f t else {}) ++ flatMap _ ⟨tokens, fault?⟩
    rw [← ih]
    by_cases kept : keep t = true
    · rw [List.filter_cons_of_pos kept, if_pos kept]
      rfl
    · rw [List.filter_cons_of_neg kept, if_neg kept]
      rfl

end Transcript

/-! ### One token -/

namespace OperatorRun

variable {isOperator : Char → Bool} {word : List Char} {t u : Token}

/-- A token that is inside a word is not split. -/
theorem IsPiece.pieces_eq (piece : IsPiece isOperator word t) :
    pieces isOperator t = ⟨[t], none⟩ := by
  cases piece with
  | word unknown nonempty solid =>
    obtain ⟨kind, raw, position⟩ := t
    cases unknown
    rw [pieces_of_unknown rfl, split_run position nonempty fun c member => (solid c member).2,
      readRun, if_neg Bool.false_ne_true, String.ofList_toList]
  | operator spelled =>
    obtain ⟨-, -, known, -⟩ := Spelling.kind_of_operator spelled
    exact pieces_of_not_unknown known

/-- The tokens that a token is replaced by are not split any further. -/
theorem pieces_of_mem_pieces (member : u ∈ (pieces isOperator t).tokens) :
    pieces isOperator u = ⟨[u], none⟩ := by
  by_cases unknown : t.kind = .unknown
  · rw [pieces_of_unknown unknown] at member
    exact (isPiece_of_mem_split member).pieces_eq
  · rw [pieces_of_not_unknown unknown] at member
    obtain rfl := List.mem_singleton.mp member
    exact pieces_of_not_unknown unknown

end OperatorRun

namespace Lexer

variable {lexer : Lexer} {t : Token}

theorem kind_classify_ne_unknown (t : Token) : (classify t).kind ≠ .unknown := by
  by_cases unknown : t.kind = .unknown
  · rw [classify_of_unknown unknown]
    cases found : Spelling.keyword? t.raw with
    | none => nofun
    | some kind =>
      have known : ∀ k ∈ Spelling.keywords.map Prod.snd, k ≠ .unknown := by decide
      exact known kind (Spelling.kind_of_keyword found)
  · rw [classify_of_not_unknown unknown]
    exact unknown

/-- What comes of a token that means something means something, and noise stays noise. -/
theorem filter_isContent_pieces (lexer : Lexer) (t : Token) :
    ((OperatorRun.pieces lexer.isOperator t).map classify).filter isContent =
      if isContent t then (OperatorRun.pieces lexer.isOperator t).map classify else {} := by
  by_cases unknown : t.kind = .unknown
  · have content : isContent t = true := by
      rw [isContent, unknown]
      rfl
    rw [if_pos content, OperatorRun.pieces_of_unknown unknown, filter_isContent_split]
  · rw [OperatorRun.pieces_of_not_unknown unknown, Transcript.map, List.map_singleton,
      classify_of_not_unknown unknown]
    by_cases content : isContent t = true
    · rw [if_pos content, Transcript.filter, List.filter_cons_of_pos content, List.filter_nil]
    · rw [if_neg content, Transcript.filter, List.filter_cons_of_neg content, List.filter_nil]

/-! ### Streams -/

theorem dropNoise_dropNoise (s : TokenStream) : dropNoise (dropNoise s) = dropNoise s := by
  apply TokenStream.ext_transcript
  simp [dropNoise, Transcript.filter]

theorem classifyWords_classifyWords (s : TokenStream) :
    classifyWords (classifyWords s) = classifyWords s := by
  have again : classify ∘ classify = classify :=
    funext fun t => classify_of_not_unknown (kind_classify_ne_unknown t)
  apply TokenStream.ext_transcript
  simp [classifyWords, Transcript.map, again]

theorem splitOperators_splitOperators (lexer : Lexer) (s : TokenStream) :
    lexer.splitOperators (lexer.splitOperators s) = lexer.splitOperators s := by
  apply TokenStream.ext_transcript
  rw [transcript_splitOperators]
  apply Transcript.flatMap_eq_self
  -- Faults are no matter here: a token that was handed out before one is not split any further.
  intro u member
  rw [transcript_splitOperators] at member
  obtain ⟨t, -, inside⟩ := Transcript.exists_of_mem_flatMap member
  exact OperatorRun.pieces_of_mem_pieces inside

/-- Noise may be dropped before the other stages as well as behind them. -/
theorem dropNoise_classifyWords_splitOperators (lexer : Lexer) (s : TokenStream) :
    dropNoise (classifyWords (lexer.splitOperators s)) =
      classifyWords (lexer.splitOperators (dropNoise s)) := by
  apply TokenStream.ext_transcript
  simp only [dropNoise, classifyWords, TokenStream.transcript_filter, TokenStream.transcript_map,
    transcript_splitOperators]
  rw [Transcript.flatMap_filter, Transcript.map_flatMap, Transcript.map_flatMap,
    Transcript.filter_flatMap]
  congr 1
  funext t
  rw [filter_isContent_pieces]
  split
  · rfl
  · rfl

/-- **The stages against each other.** Each stage done twice is done once; what splitting has given
without a fault is not changed by splitting it, and no fault comes up; and noise may be dropped
first or last, with the same tokens and the same fault behind them. -/
theorem stages_agree (lexer : Lexer) (s : TokenStream) :
    dropNoise (dropNoise s) = dropNoise s ∧
    classifyWords (classifyWords s) = classifyWords s ∧
    lexer.splitOperators (lexer.splitOperators s) = lexer.splitOperators s ∧
    (∀ out, (lexer.splitOperators s).transcript = ⟨out, none⟩ →
      (lexer.splitOperators (.ofList out)).transcript = ⟨out, none⟩) ∧
    dropNoise (classifyWords (lexer.splitOperators s)) =
      classifyWords (lexer.splitOperators (dropNoise s)) := by
  refine ⟨dropNoise_dropNoise s, classifyWords_classifyWords s,
    splitOperators_splitOperators lexer s, ?_, dropNoise_classifyWords_splitOperators lexer s⟩
  intro out given
  have same : lexer.splitOperators s = .ofList out :=
    TokenStream.ext_transcript (given.trans (TokenStream.transcript_ofList out).symm)
  rw [← same, splitOperators_splitOperators, given]

/-- A word that is split once and for all, and a fault that comes behind the same token whether the
blank in front is dropped first or last. -/
theorem stages_agree_at_fault :
    ((Lexer.mk ['@', '+']).splitOperators (.ofList [⟨.unknown, "a++", {}⟩])).transcript =
      ⟨[⟨.unknown, "a", {}⟩, ⟨.inc, "++", ⟨1, 2⟩⟩], none⟩ ∧
    ((Lexer.mk ['@', '+']).splitOperators
        (.ofList [⟨.unknown, "a", {}⟩, ⟨.inc, "++", ⟨1, 2⟩⟩])).transcript =
      ⟨[⟨.unknown, "a", {}⟩, ⟨.inc, "++", ⟨1, 2⟩⟩], none⟩ ∧
    (classifyWords ((Lexer.mk ['@', '+']).splitOperators (dropNoise
        (.ofList [⟨.space, " ", {}⟩, ⟨.unknown, "fn@", ⟨1, 2⟩⟩])))).transcript =
      ⟨[⟨.fn, "fn", ⟨1, 2⟩⟩], some ⟨'@'⟩⟩ := by
  have split : ((Lexer.mk ['@', '+']).splitOperators (.ofList [⟨.unknown, "a++", {}⟩])).transcript =
      ⟨[⟨.unknown, "a", {}⟩, ⟨.inc, "++", ⟨1, 2⟩⟩], none⟩ := by
    decide +kernel
  refine ⟨split, (stages_agree _ _).2.2.2.1 _ split, ?_⟩
  rw [← (stages_agree _ _).2.2.2.2]
  decide +kernel

end Lexer

end Spire
