import Spire.Proofs.Completion

/-!
# Faults behind the tokens

A stream may break off with a fault of the lexer. The parser takes tokens one at a time, so it
meets the fault only if it asks for a token behind the last one. It does so exactly if it would
have to see the end of the tokens, were there no fault: to accept them, or to say what is wanting.
If a token is refused, the fault is never met, and everything is as if the tokens had ended there.

## Main definitions

* `Run.ReachesEnd` — runs that come to the end of the tokens

## Main results

* `Reading.verdict_of_fault` — reading to a fault against reading to the end
* `Parser.run_of_fault` — a parser on a stream that breaks off
* `Parser.fault_surfaces_if_reached` — a parser on the tokens of a source
-/

namespace Spire

/-- The run came to the end of the tokens: they have a tree, or something is wanting there. -/
def Run.ReachesEnd (run : Run) : Prop :=
  (∃ tree, run.outcome = .ok tree) ∨
    ∃ expected, run.outcome = .error (.parse (.unexpectedEnd expected))

namespace Reading

variable {r : Reading} {ts : List Token} {e : ParseError}

/-- Reading that stops at the end has a program, or misses something. -/
theorem finish_cases (r : Reading) :
    (∃ program, r.finish = .ok program) ∨
      ∃ expected, r.finish = .error (.unexpectedEnd expected) := by
  cases ended : r.finish with
  | ok program => exact .inl ⟨program, rfl⟩
  | error e => exact .inr ⟨_, by rw [wanted_of_finish ended]⟩

/-- A fault behind the tokens takes the place of their end if all of them are read, and makes no
difference if one of them is refused. -/
theorem verdict_of_fault (cause : LexFault) (r : Reading) (ts : List Token) :
    (∃ last : Reading, verdict none r ts = { outcome := last.finish.mapError .parse } ∧
      verdict (some cause) r ts = { outcome := .error (.lex cause) }) ∨
    ∃ e t, e.token? = some t ∧ (verdict none r ts).outcome = .error (.parse e) ∧
      verdict (some cause) r ts = verdict none r ts := by
  induction ts generalizing r with
  | nil => exact .inl ⟨r, rfl, rfl⟩
  | cons t ts ih =>
    cases read : r.step t with
    | ok next =>
      rw [verdict_cons_of_ok read, verdict_cons_of_ok read]
      exact ih next
    | error e =>
      refine .inr ⟨e, t, ?_, ?_, ?_⟩
      · rw [refusal_of_step read, Grammar.token?_refusal]
      · rw [verdict_cons_of_error read]
      · rw [verdict_cons_of_error read, verdict_cons_of_error read]

end Reading

namespace Parser

variable {p : Parser} {s : TokenStream} {ts : List Token} {cause : LexFault}

/-- **Streams that break off.** A parser on such a stream meets the fault, with all tokens taken,
if on the tokens alone it comes to their end; otherwise it does what it does on these. -/
theorem run_of_fault (faulty : s.transcript = ⟨ts, some cause⟩) :
    ((p.run (.ofList ts)).1.ReachesEnd ∧ (p.run s).1.outcome = .error (.lex cause) ∧
      (p.run s).1.pulled = ts.length) ∨
    ¬ (p.run (.ofList ts)).1.ReachesEnd ∧
      ∃ e, (p.run (.ofList ts)).1.outcome = .error (.parse e) ∧
        (p.run s).1.outcome = .error (.parse e) ∧
          (p.run s).1.pulled = (p.run (.ofList ts)).1.pulled := by
  have outcome := run_outcome p s
  have taken := run_pulled p s
  have takenAlone := @run_ofList_pulled p ts
  rw [reading, faulty] at outcome taken
  rw [TokenStream.length_eq, faulty] at taken
  unfold Run.ReachesEnd
  rw [run_ofList_outcome]
  rcases Reading.verdict_of_fault cause {} ts with
    ⟨last, atEnd, atFault⟩ | ⟨e, t, about, refused, same⟩
  · refine .inl ⟨?_, ?_, ?_⟩
    · rw [atEnd]
      rcases last.finish_cases with ⟨program, finished⟩ | ⟨expected, missing⟩
      · exact .inl ⟨program.tree, by rw [finished]; rfl⟩
      · exact .inr ⟨expected, by rw [missing]; rfl⟩
    · rw [outcome, atFault]
      rfl
    · rw [atFault] at taken
      exact taken
  · refine .inr ⟨?_, e, ?_, ?_, ?_⟩
    · rw [refused]
      rintro (⟨tree, isTree⟩ | ⟨expected, isEnd⟩)
      · cases isTree
      · cases isEnd
        cases about
    · rw [refused]
      rfl
    · rw [outcome, same, refused]
      rfl
    · rw [same] at taken
      exact Nat.add_right_cancel (taken.trans takenAlone.symm)

/-- **Faults of the lexer.** Let the tokens of a source break off with a fault. If a parser would
come to the end of these tokens, it meets the fault, having taken all of them. Otherwise it reports
the error that it reports on these tokens alone, having taken as many, and the fault never shows. -/
theorem fault_surfaces_if_reached (p : Parser) (lexer : Lexer) (source : String)
    (keepNoise : Bool) (ts : List Token) (cause : LexFault)
    (faulty : (lexer.tokens source keepNoise).transcript = ⟨ts, some cause⟩) :
    ((p.run (.ofList ts)).1.ReachesEnd →
      (p.run (lexer.tokens source keepNoise)).1.outcome = .error (.lex cause) ∧
        (p.run (lexer.tokens source keepNoise)).1.pulled = ts.length) ∧
    (¬ (p.run (.ofList ts)).1.ReachesEnd →
      ∃ e, (p.run (.ofList ts)).1.outcome = .error (.parse e) ∧
        (p.run (lexer.tokens source keepNoise)).1.outcome = .error (.parse e) ∧
          (p.run (lexer.tokens source keepNoise)).1.pulled = (p.run (.ofList ts)).1.pulled) := by
  rcases run_of_fault (p := p) faulty with ⟨reaches, met⟩ | ⟨stops, shown⟩
  · exact ⟨fun _ => met, fun stops => absurd reaches stops⟩
  · exact ⟨fun reaches => absurd reaches stops, fun _ => shown⟩

/-- Behind the head of a function the parser looks one token ahead, and there it meets the fault.
Behind a second statement, which it refuses, it does not. -/
theorem fault_surfaces_behind_head :
    ((Lexer.tokens ⟨['(', ')', '@']⟩ "fn f()@").transcript =
        ⟨[⟨.fn, "fn", ⟨1, 1⟩⟩, ⟨.name, "f", ⟨1, 4⟩⟩, ⟨.leftParen, "(", ⟨1, 5⟩⟩,
          ⟨.rightParen, ")", ⟨1, 6⟩⟩], some ⟨'@'⟩⟩ ∧
      (run {} (Lexer.tokens ⟨['(', ')', '@']⟩ "fn f()@")).1.outcome = .error (.lex ⟨'@'⟩) ∧
      (run {} (Lexer.tokens ⟨['(', ')', '@']⟩ "fn f()@")).1.pulled = 4) ∧
    (Lexer.tokens ⟨['@']⟩ "nop nop @").transcript =
        ⟨[⟨.nop, "nop", ⟨1, 1⟩⟩, ⟨.nop, "nop", ⟨1, 5⟩⟩], some ⟨'@'⟩⟩ ∧
      ∃ e, (run {} (.ofList [⟨.nop, "nop", ⟨1, 1⟩⟩, ⟨.nop, "nop", ⟨1, 5⟩⟩])).1.outcome =
          .error (.parse e) ∧
        (run {} (Lexer.tokens ⟨['@']⟩ "nop nop @")).1.outcome = .error (.parse e) ∧
          (run {} (Lexer.tokens ⟨['@']⟩ "nop nop @")).1.pulled =
            (run {} (.ofList [⟨.nop, "nop", ⟨1, 1⟩⟩, ⟨.nop, "nop", ⟨1, 5⟩⟩])).1.pulled := by
  have head : (Lexer.tokens ⟨['(', ')', '@']⟩ "fn f()@").transcript =
      ⟨[⟨.fn, "fn", ⟨1, 1⟩⟩, ⟨.name, "f", ⟨1, 4⟩⟩, ⟨.leftParen, "(", ⟨1, 5⟩⟩,
        ⟨.rightParen, ")", ⟨1, 6⟩⟩], some ⟨'@'⟩⟩ := by
    decide +kernel
  have twice : (Lexer.tokens ⟨['@']⟩ "nop nop @").transcript =
      ⟨[⟨.nop, "nop", ⟨1, 1⟩⟩, ⟨.nop, "nop", ⟨1, 5⟩⟩], some ⟨'@'⟩⟩ := by
    decide +kernel
  refine ⟨⟨head, (fault_surfaces_if_reached {} _ _ false _ _ head).1 (.inr ⟨.kind .leftBrace, ?_⟩)⟩,
    twice, (fault_surfaces_if_reached {} _ _ false _ _ twice).2 ?_⟩
  · rw [run_ofList_outcome]
    rfl
  · unfold Run.ReachesEnd
    rw [run_ofList_outcome]
    rintro (⟨tree, isTree⟩ | ⟨expected, isEnd⟩)
    · cases isTree
    · cases isEnd

end Parser

end Spire
