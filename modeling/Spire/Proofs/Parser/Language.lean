import Spire.Proofs.Parser.Stepwise

/-!
# The language of the parser

The parser accepts exactly the programs that are functions nested inside each other, and
the tree that it gives has the tokens of the program at the places where they belong.

## Main results

* `Parser.run_eq_ok_iff` — the trees of the parser are those of the programs with the tokens
  that it reads
* `Parser.accepts_nested_functions` — the language by the kinds of tokens, and the tree
-/

namespace Spire.Parser

variable {p : Parser} {ts : List Token} {tree : Tree}

theorem run_ofList_outcome :
    (p.run (.ofList ts)).1.outcome = (Reading.verdict none {} ts).outcome.map Program.tree := by
  rw [run_outcome, reading, TokenStream.transcript_ofList]

theorem run_ofList_pulled :
    (p.run (.ofList ts)).1.pulled + (Reading.verdict none {} ts).unread.length = ts.length := by
  have taken := run_pulled p (.ofList ts)
  rwa [reading, TokenStream.length_eq, TokenStream.transcript_ofList] at taken

/-- A run on a list of tokens gives the tree of the program that the tokens are. -/
theorem run_eq_ok_iff :
    (p.run (.ofList ts)).1.outcome = .ok tree ↔
      ∃ program : Program, program.tokens = ts ∧ program.tree = tree := by
  rw [run_ofList_outcome]
  constructor
  · intro accepted
    cases reached : (Reading.verdict none {} ts).outcome with
    | error e =>
      rw [reached] at accepted
      cases accepted
    | ok program =>
      rw [reached] at accepted
      cases accepted
      exact ⟨program, Reading.tokens_of_verdict reached, rfl⟩
  · rintro ⟨program, rfl, rfl⟩
    rw [Reading.verdict_tokens]
    rfl

/-- A run that gives a tree has taken all tokens. -/
theorem run_pulled_of_ok (accepted : (p.run (.ofList ts)).1.outcome = .ok tree) :
    (p.run (.ofList ts)).1.pulled = ts.length := by
  obtain ⟨program, rfl, -⟩ := run_eq_ok_iff.mp accepted
  have taken := @run_ofList_pulled p program.tokens
  rwa [Reading.verdict_tokens] at taken

/-- **Language and trees.** Tokens have a tree if and only if their kinds are a number of
headers, perhaps the statement that does nothing, and as many closing braces. The parser
has then taken all of them, and the tree is that of the program which they make up. -/
theorem accepts_nested_functions (p : Parser) (ts : List Token) :
    ((∃ tree, (p.run (.ofList ts)).1.outcome = .ok tree) ↔
      ∃ depth hasNop, Token.kinds ts = Program.nested depth hasNop) ∧
    ∀ tree, (p.run (.ofList ts)).1.outcome = .ok tree →
      (p.run (.ofList ts)).1.pulled = ts.length ∧
        ∃ program : Program, program.tokens = ts ∧ program.tree = tree ∧
          Token.kinds ts = Program.nested program.depth program.hasNop := by
  refine ⟨?_, fun tree accepted => ⟨run_pulled_of_ok accepted, ?_⟩⟩
  · change _ ↔ Program.Accepted (Token.kinds ts)
    rw [Program.accepted_kinds_iff]
    constructor
    · rintro ⟨tree, accepted⟩
      obtain ⟨program, same, -⟩ := run_eq_ok_iff.mp accepted
      exact ⟨program, same⟩
    · rintro ⟨program, same⟩
      exact ⟨program.tree, run_eq_ok_iff.mpr ⟨program, same, rfl⟩⟩
  · obtain ⟨program, rfl, same⟩ := run_eq_ok_iff.mp accepted
    exact ⟨program, rfl, same, program.kinds_tokens⟩

/-- A function that does nothing, on two lines. -/
def idleFunction : Program :=
  .function
    { fn := ⟨⟨.fn, "fn", ⟨1, 1⟩⟩, rfl⟩
      name := ⟨⟨.name, "idle", ⟨1, 4⟩⟩, rfl⟩
      leftParen := ⟨⟨.leftParen, "(", ⟨1, 8⟩⟩, rfl⟩
      rightParen := ⟨⟨.rightParen, ")", ⟨1, 9⟩⟩, rfl⟩
      leftBrace := ⟨⟨.leftBrace, "\x7b", ⟨1, 11⟩⟩, rfl⟩ }
    (.nop ⟨⟨.nop, "nop", ⟨2, 3⟩⟩, rfl⟩) ⟨⟨.rightBrace, "\x7d", ⟨2, 7⟩⟩, rfl⟩

theorem accepts_idleFunction :
    (run {} (.ofList idleFunction.tokens)).1.outcome = .ok idleFunction.tree ∧
      (run {} (.ofList idleFunction.tokens)).1.pulled = 7 ∧
        ∃ program : Program, program.tokens = idleFunction.tokens ∧
          program.tree = idleFunction.tree ∧
          Token.kinds idleFunction.tokens = Program.nested program.depth program.hasNop := by
  have accepted : (run {} (.ofList idleFunction.tokens)).1.outcome = .ok idleFunction.tree :=
    run_eq_ok_iff.mpr ⟨idleFunction, rfl, rfl⟩
  exact ⟨accepted, (accepts_nested_functions {} idleFunction.tokens).2 _ accepted⟩

end Spire.Parser
