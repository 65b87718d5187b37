import Spire.Proofs.Lexer.Beginning
import Spire.Proofs.Parser.FirstError
import Spire.Proofs.Parser.Places

/-!
# Errors in sources

Where the parser stops at a token, the source in front of this token is the beginning of a source
that has a tree: it has the tokens before the offence, and what is missing of a program can be
written behind it. Where it misses something at the end, the whole source can be completed so.

What is missing is written on lines of its own, one token a line. So it does not matter whether
the source is cut off inside a word, or whether it ends in a comment.

## Main definitions

* `Reading.Stops` — reading stops at a token, or at the end

## Main results

* `exists_completion_of_viable` — a source whose tokens begin a program can be completed
* `errors_end_viable_sources` — errors are reported at the end of such a source
-/

namespace Spire

/-! ### Completing a source -/

namespace Program

variable {kinds : List Token.Kind}

theorem mem_samples_of_accepted (accepted : Accepted kinds) :
    ∀ kind ∈ kinds, kind ∈ Spelling.samples.map Prod.fst := by
  obtain ⟨depth, hasNop, rfl⟩ := accepted
  have header : ∀ kind ∈ Header.kinds, kind ∈ Spelling.samples.map Prod.fst := by decide
  intro kind member
  rw [nested, List.mem_append, List.mem_append] at member
  rcases member with (inHeader | isNop) | isClose
  · obtain ⟨_, isHeader, inside⟩ := List.mem_flatten.mp inHeader
    rw [List.eq_of_mem_replicate isHeader] at inside
    exact header kind inside
  · cases hasNop with
    | false => cases isNop
    | true =>
      rw [List.mem_singleton.mp isNop]
      decide
  · rw [List.eq_of_mem_replicate isClose]
    decide

/-- Programs are made of tokens for which there are samples. -/
theorem mem_samples_of_viable (viable : Viable kinds) :
    ∀ kind ∈ kinds, kind ∈ Spelling.samples.map Prod.fst := by
  obtain ⟨more, accepted⟩ := viable
  intro kind member
  exact mem_samples_of_accepted accepted kind (List.mem_append_left more member)

end Program

/-- Tokens of the kinds that programs are made of can be written, each on a line of its own. -/
theorem exists_lines {kinds : List Token.Kind}
    (listed : ∀ kind ∈ kinds, kind ∈ Spelling.samples.map Prod.fst) :
    ∃ text : List Char, (∀ c ∈ text.head?, isSeparator c = true) ∧
      Token.kinds (({} : Lexer).content text).tokens = kinds := by
  induction kinds with
  | nil => exact ⟨[], nofun, by rw [Lexer.content_nil]; rfl⟩
  | cons kind kinds ih =>
    obtain ⟨text, separate, same⟩ := ih fun k member => listed k (List.mem_cons_of_mem _ member)
    obtain ⟨⟨_, word⟩, isSample, rfl⟩ := List.mem_map.mp (listed kind (List.mem_cons_self ..))
    have lineEnd : isSeparator '\n' = true := rfl
    refine ⟨'\n' :: (word ++ text), ?_, ?_⟩
    · rintro c ⟨⟩
      exact lineEnd
    · rw [Lexer.content_separator lineEnd, Lexer.content_sample isSample separate,
        Transcript.tokens_cons, Token.kinds_cons, same]

theorem kinds_tokens_eq (source : String) :
    Token.kinds (({} : Lexer).tokens source).transcript.tokens =
      Token.kinds (({} : Lexer).content source.toList).tokens := by
  rw [← Lexer.map_unplaced_tokens, Token.kinds_map_unplaced]

/-- A source whose tokens begin a program can be completed to one that has a tree. -/
theorem exists_completion_of_viable {source : String}
    (viable : Program.Viable (Token.kinds (({} : Lexer).tokens source).transcript.tokens)) :
    ∃ (more : String) (tree : Tree), (parse (source ++ more)).outcome = .ok tree := by
  -- Programs have no strings, so a line end behind the source does not fall into one.
  have noString : ∀ t ∈ (({} : Lexer).content source.toList).tokens, t.kind ≠ .string := by
    intro t member isString
    have inside : Token.Kind.string ∈
        Token.kinds (({} : Lexer).tokens source).transcript.tokens := by
      rw [kinds_tokens_eq, ← isString]
      exact List.mem_map_of_mem member
    exact absurd (Program.mem_samples_of_viable viable _ inside) (by decide)
  obtain ⟨kinds, accepted⟩ := viable
  have listed : ∀ kind ∈ kinds, kind ∈ Spelling.samples.map Prod.fst := by
    intro kind member
    exact Program.mem_samples_of_accepted accepted kind (List.mem_append_right _ member)
  obtain ⟨text, -, same⟩ := exists_lines listed
  have whole : Token.kinds
      (({} : Lexer).tokens (source ++ String.ofList ('\n' :: text))).transcript.tokens =
        Token.kinds (({} : Lexer).tokens source).transcript.tokens ++ kinds := by
    have noFault := Lexer.fault?_content source.toList
    rw [kinds_tokens_eq, kinds_tokens_eq, String.toList_append, String.toList_ofList,
      Lexer.content_append_newline (Lexer.not_unterminated_of_content noString),
      Transcript.append_of_fault?_eq_none noFault, Token.kinds_append, same]
  rw [← whole, Program.accepted_kinds_iff] at accepted
  obtain ⟨program, tokens⟩ := accepted
  exact ⟨_, program.tree, parse_eq_ok_iff.mpr ⟨program, tokens, rfl⟩⟩

/-! ### Where reading stops -/

namespace Reading

variable {r : Reading} {ts : List Token} {e : ParseError}

/-- Reading stops with an error: at a token that is refused, or at the end, where something is
missing. -/
inductive Stops (r : Reading) (e : ParseError) : List Token → Prop where
  | refused {before behind : List Token} {t : Token} {next : Reading}
      (read : before.foldlM step r = .ok next) (refused : next.step t = .error e) :
      Stops r e (before ++ t :: behind)
  | missing {ts : List Token} {next : Reading} (read : ts.foldlM step r = .ok next)
      (missing : next.finish = .error e) : Stops r e ts

/-- Reading that fails stops somewhere. -/
theorem stops_of_verdict (failed : (verdict none r ts).outcome = .error (.parse e)) :
    Stops r e ts := by
  induction ts generalizing r with
  | nil =>
    rw [verdict] at failed
    cases ended : r.finish with
    | ok program =>
      rw [ended] at failed
      cases failed
    | error d =>
      rw [ended] at failed
      cases failed
      exact .missing rfl ended
  | cons t ts ih =>
    cases first : r.step t with
    | error d =>
      rw [verdict_cons_of_error first] at failed
      cases failed
      have read : ([] : List Token).foldlM step r = .ok r := rfl
      exact .refused read first
    | ok next =>
      rw [verdict_cons_of_ok first] at failed
      cases ih failed with
      | @refused before behind u last read refused =>
        have whole : (t :: before).foldlM step r = .ok last :=
          foldlM_step_cons_eq_ok.mpr ⟨next, first, read⟩
        exact .refused whole refused
      | missing read missing =>
        exact .missing (foldlM_step_cons_eq_ok.mpr ⟨next, first, read⟩) missing

/-- What has been read where reading stops at a token can begin a program, and the error is about
this token. -/
theorem Stops.exists_refused {t : Token} (stops : Stops {} e ts) (about : e.token? = some t) :
    ∃ before behind, ts = before ++ t :: behind ∧ Program.Viable (Token.kinds before) := by
  cases stops with
  | @refused before behind u next read refused =>
    have isRefusal := refusal_of_step refused
    have same : u = t := by
      rw [isRefusal, Grammar.token?_refusal] at about
      exact Option.some.inj about
    exact ⟨before, behind, by rw [same], viable_iff_foldlM_step.mpr ⟨next, read⟩⟩
  | missing read missing =>
    rw [wanted_of_finish missing] at about
    cases about

/-- Where something is missing at the end, all tokens can begin a program. -/
theorem Stops.viable_of_missing (stops : Stops {} e ts) (atEnd : e.token? = none) :
    Program.Viable (Token.kinds ts) := by
  cases stops with
  | refused read refused =>
    rw [refusal_of_step refused, Grammar.token?_refusal] at atEnd
    cases atEnd
  | missing read missing => exact viable_iff_foldlM_step.mpr ⟨_, read⟩

end Reading

/-! ### Errors -/

/-- Where parsing a source fails, reading its tokens stops with the same error. -/
theorem stops_of_parse {source : String} {e : ParseError}
    (failed : (parse source).outcome = .error (.parse e)) :
    Reading.Stops {} e (({} : Lexer).tokens source).transcript.tokens := by
  rw [parse_outcome] at failed
  generalize (({} : Lexer).tokens source).transcript.tokens = ts at failed ⊢
  cases reached : (Reading.verdict none {} ts).outcome with
  | ok program =>
    rw [reached] at failed
    cases failed
  | error failure =>
    rw [reached] at failed
    cases failed
    exact Reading.stops_of_verdict reached

/-- **Errors in sources.** A token that an error is about stands in the source where it says that
it stands. Up to there the source has the tokens in front of it, and can be completed to one that
has a tree. A source that ends too early can be completed as it is. -/
theorem errors_end_viable_sources (source : String) :
    (∀ (e : ParseError) (t : Token), (parse source).outcome = .error (.parse e) →
      e.token? = some t →
        ∃ p q : String, source = p ++ t.raw ++ q ∧ t.position = Position.behind p.toList ∧
          (∃ before after, (({} : Lexer).tokens source).transcript = ⟨before ++ t :: after, none⟩ ∧
            (({} : Lexer).tokens p).transcript = ⟨before, none⟩) ∧
          ∃ (more : String) (tree : Tree), (parse (p ++ more)).outcome = .ok tree) ∧
    ∀ expected : Expectation,
      (parse source).outcome = .error (.parse (.unexpectedEnd expected)) →
        ∃ (more : String) (tree : Tree), (parse (source ++ more)).outcome = .ok tree := by
  have noFault := Lexer.fault?_tokens source false
  constructor
  · intro e t failed about
    obtain ⟨before, behind, whole, viable⟩ := (stops_of_parse failed).exists_refused about
    have closed : ∀ u ∈ before, Spelling.opensPair u.kind = false := by
      have kinds : ∀ kind ∈ Spelling.samples.map Prod.fst, Spelling.opensPair kind = false := by
        decide
      intro u member
      exact kinds _ (Program.mem_samples_of_viable viable _ (List.mem_map_of_mem member))
    obtain ⟨p, q, joined, place, tokens⟩ := Lexer.tokens_of_prefix whole closed
    refine ⟨p, q, joined, place, ⟨before, behind, ?_, tokens⟩, ?_⟩
    · rw [← whole, ← noFault]
    · apply exists_completion_of_viable
      rwa [tokens]
  · intro expected failed
    exact exists_completion_of_viable ((stops_of_parse failed).viable_of_missing rfl)

/-- The first source is cut off inside a word, in front of an argument that looks like a string,
and the second one ends in a comment. -/
theorem errors_end_viable_sources_in_heads :
    ((parse "fn f(\"x\")").outcome =
        .error (.parse (.unsupported .arguments ⟨.name, "\"x\"", ⟨1, 6⟩⟩)) ∧
      ∃ p q : String, "fn f(\"x\")" = p ++ "\"x\"" ++ q ∧ ⟨1, 6⟩ = Position.behind p.toList ∧
        (∃ before after, (({} : Lexer).tokens "fn f(\"x\")").transcript =
            ⟨before ++ ⟨.name, "\"x\"", ⟨1, 6⟩⟩ :: after, none⟩ ∧
          (({} : Lexer).tokens p).transcript = ⟨before, none⟩) ∧
        ∃ (more : String) (tree : Tree), (parse (p ++ more)).outcome = .ok tree) ∧
    (parse "fn f( //\"").outcome = .error (.parse (.unexpectedEnd (.kind .rightParen))) ∧
      ∃ (more : String) (tree : Tree), (parse ("fn f( //\"" ++ more)).outcome = .ok tree := by
  have refused : (parse "fn f(\"x\")").outcome =
      .error (.parse (.unsupported .arguments ⟨.name, "\"x\"", ⟨1, 6⟩⟩)) := by
    have tokens : (({} : Lexer).tokens "fn f(\"x\")").transcript.tokens =
        [⟨.fn, "fn", ⟨1, 1⟩⟩, ⟨.name, "f", ⟨1, 4⟩⟩, ⟨.leftParen, "(", ⟨1, 5⟩⟩,
          ⟨.name, "\"x\"", ⟨1, 6⟩⟩, ⟨.rightParen, ")", ⟨1, 9⟩⟩] := by
      decide +kernel
    rw [parse_outcome, tokens]
    rfl
  have missing : (parse "fn f( //\"").outcome =
      .error (.parse (.unexpectedEnd (.kind .rightParen))) := by
    have tokens : (({} : Lexer).tokens "fn f( //\"").transcript.tokens =
        [⟨.fn, "fn", ⟨1, 1⟩⟩, ⟨.name, "f", ⟨1, 4⟩⟩, ⟨.leftParen, "(", ⟨1, 5⟩⟩] := by
      decide +kernel
    rw [parse_outcome, tokens]
    rfl
  exact ⟨⟨refused, (errors_end_viable_sources _).1 _ _ refused rfl⟩, missing,
    (errors_end_viable_sources _).2 _ missing⟩

end Spire
