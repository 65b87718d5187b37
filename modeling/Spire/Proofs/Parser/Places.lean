import Spire.Proofs.Lexer.Content
import Spire.Proofs.Parser.Language
import Spire.Tree.Drawing
import Spire.Tree.Serialized

/-!
# Parsing without places

The parser looks at the kinds of tokens, and puts the tokens as they are into trees and errors.
So it makes no difference whether the places of the tokens are forgotten before reading or
afterwards. Together with what the lexer does this says that, apart from places, the outcome of
parsing a source depends on the content of the source only.

## Main definitions

* `Tree.unplaced`, `ParseError.unplaced`, `Program.unplaced`, `Reading.unplaced` — what is left
  when places are forgotten
* `Outcome.unplaced` — the outcome of parsing without places

## Main results

* `Tree.draw_unplaced`, `Tree.toJson_unplaced` — drawings and JSON values show no places
* `Reading.outcome_verdict_unplaced` — reading commutes with forgetting places
* `unplaced_parse` — the outcome of parsing a source, from its content
-/

namespace Spire

/-! ### Trees and errors -/

namespace Tree

mutual

/-- A tree with all of its tokens put at the start of a text. -/
def unplaced : Tree → Tree
  | node t trees => node t.unplaced (unplacedAll trees)

/-- Trees with all of their tokens put at the start of a text. -/
def unplacedAll : List Tree → List Tree
  | [] => []
  | tree :: trees => tree.unplaced :: unplacedAll trees

end

theorem unplacedAll_eq_map (trees : List Tree) : unplacedAll trees = trees.map unplaced := by
  induction trees with
  | nil => rfl
  | cons tree trees ih => rw [unplacedAll, ih, List.map_cons]

theorem unplaced_node (t : Token) (trees : List Tree) :
    (node t trees).unplaced = node t.unplaced (trees.map unplaced) := by
  rw [unplaced, unplacedAll_eq_map]

/-- The JSON value of a tree shows no places. -/
theorem toJson_unplaced (tree : Tree) : tree.unplaced.toJson = tree.toJson := by
  induction tree using inductionOn with
  | step t trees ih =>
    rw [unplaced_node, toJson_node, toJson_node, List.map_map]
    have below : trees.map (toJson ∘ unplaced) = trees.map toJson := List.map_congr_left ih
    rw [below]
    rfl

theorem branches_unplaced {trees : List Tree}
    (each : ∀ tree ∈ trees, ∀ indent last, branch indent last tree.unplaced =
      branch indent last tree) (indent : Int) :
    branches indent (trees.map unplaced) = branches indent trees := by
  induction trees with
  | nil => rfl
  | cons tree trees ih =>
    have first := each tree (List.mem_cons_self ..)
    have others := ih fun other member => each other (List.mem_cons_of_mem _ member)
    rw [List.map_cons, branches, branches, first, others, List.isEmpty_map]

theorem branch_unplaced (tree : Tree) :
    ∀ indent last, branch indent last tree.unplaced = branch indent last tree := by
  induction tree using inductionOn with
  | step t trees ih =>
    intro indent last
    rw [unplaced_node, branch, branch, branches_unplaced ih]
    rfl

/-- The drawing of a tree shows no places. -/
theorem draw_unplaced (tree : Tree) (indent : Int) :
    tree.unplaced.draw indent = tree.draw indent := by
  obtain ⟨t, trees⟩ := tree
  rw [unplaced_node, draw, draw, entries, entries,
    branches_unplaced fun tree _ => branch_unplaced tree]
  rfl

end Tree

namespace ParseError

/-- An error whose token is put at the start of a text. -/
def unplaced : ParseError → ParseError
  | unexpectedToken e t => unexpectedToken e t.unplaced
  | unexpectedEnd e => unexpectedEnd e
  | unsupported feature t => unsupported feature t.unplaced

@[simp] theorem complaint_unplaced (e : ParseError) : e.unplaced.complaint = e.complaint := by
  cases e <;> rfl

@[simp] theorem token?_unplaced (e : ParseError) :
    e.unplaced.token? = e.token?.map Token.unplaced := by
  cases e <;> rfl

end ParseError

/-- A failure whose token, if it has one, is put at the start of a text. -/
def Failure.unplaced : Failure → Failure
  | parse e => parse e.unplaced
  | lex fault => lex fault

/-- What may come of parsing. -/
abbrev Outcome := Except Failure Tree

/-- An outcome with all of its tokens put at the start of a text. -/
def Outcome.unplaced (outcome : Outcome) : Outcome :=
  (outcome.map Tree.unplaced).mapError Failure.unplaced

/-! ### Programs and what has been read of them -/

section Programs

variable {kind : Token.Kind}

/-- A token of a kind, put at the start of a text. -/
def Token.Of.unplaced (t : Token.Of kind) : Token.Of kind :=
  ⟨t.1.unplaced, t.2⟩

/-- A header with all of its tokens put at the start of a text. -/
def Header.unplaced (h : Header) : Header :=
  ⟨h.fn.unplaced, h.name.unplaced, h.leftParen.unplaced, h.rightParen.unplaced,
    h.leftBrace.unplaced⟩

/-- A program with all of its tokens put at the start of a text. -/
def Program.unplaced : Program → Program
  | empty => empty
  | nop t => nop t.unplaced
  | function header body close => function header.unplaced body.unplaced close.unplaced

theorem Program.tree_unplaced (program : Program) :
    program.unplaced.tree = program.tree.unplaced := by
  induction program with
  | empty => rfl
  | nop t => rfl
  | function header body close ih =>
    rw [unplaced, tree, tree, ih]
    rfl

/-- A place with all of its tokens put at the start of a text. -/
def Place.unplaced : Place → Place
  | source program => source program.unplaced
  | fn f => fn f.unplaced
  | name f n => name f.unplaced n.unplaced
  | leftParen f n l => leftParen f.unplaced n.unplaced l.unplaced
  | rightParen f n l r => rightParen f.unplaced n.unplaced l.unplaced r.unplaced

/-- What has been read, with all tokens put at the start of a text. -/
def Reading.unplaced (r : Reading) : Reading :=
  ⟨r.scopes.map Header.unplaced, r.place.unplaced⟩

end Programs

/-! ### Reading commutes with forgetting places -/

namespace Reading

/-- The result of a step without places. -/
def forget (result : Except ParseError Reading) : Except ParseError Reading :=
  (result.map Reading.unplaced).mapError ParseError.unplaced

variable {kind : Token.Kind} {t : Token} {e : ParseError} {scopes : List Header}

theorem take_unplaced {behind forgotten : Token.Of kind → Reading} {e d : ParseError}
    (same : ∀ u, (behind u).unplaced = forgotten u.unplaced) (sameError : e.unplaced = d) :
    forget (take t behind e) = take t.unplaced forgotten d := by
  subst sameError
  by_cases isKind : t.kind = kind
  · have stillKind : t.unplaced.kind = kind := isKind
    rw [take_of_kind isKind, take_of_kind stillKind]
    exact congrArg Except.ok (same ⟨t, isKind⟩)
  · have stillOther : t.unplaced.kind ≠ kind := isKind
    rw [take_of_not_kind isKind, take_of_not_kind stillOther]
    rfl

theorem leave_unplaced (body : Program) (t : Token) (scopes : List Header) :
    forget (leave body t scopes) = leave body.unplaced t.unplaced (scopes.map Header.unplaced) := by
  cases scopes with
  | nil => rfl
  | cons header outer =>
    rw [List.map_cons, leave, leave]
    refine take_unplaced ?_ rfl
    intro close
    rfl

/-- Reading one more token commutes with forgetting places. -/
theorem step_unplaced (r : Reading) (t : Token) :
    forget (r.step t) = r.unplaced.step t.unplaced := by
  obtain ⟨scopes, place⟩ := r
  cases place with
  | source program =>
    cases program with
    | empty =>
      simp only [Reading.unplaced, Place.unplaced, Program.unplaced, step_empty]
      by_cases isClose : t.kind = .rightBrace
      · have stillClose : t.unplaced.kind = .rightBrace := isClose
        rw [if_pos isClose, if_pos stillClose]
        exact leave_unplaced .empty t scopes
      have stillOpen : t.unplaced.kind ≠ .rightBrace := isClose
      rw [if_neg isClose, if_neg stillOpen]
      by_cases isNop : t.kind = .nop
      · have stillNop : t.unplaced.kind = .nop := isNop
        rw [dif_pos isNop, dif_pos stillNop]
        rfl
      · have stillOther : t.unplaced.kind ≠ .nop := isNop
        rw [dif_neg isNop, dif_neg stillOther]
        refine take_unplaced ?_ rfl
        intro fn
        rfl
    | nop | function => exact leave_unplaced _ t scopes
  | fn | name | leftParen =>
    simp only [Reading.unplaced, Place.unplaced, step_fn, step_name, step_leftParen]
    refine take_unplaced ?_ rfl
    intro u
    rfl
  | rightParen =>
    simp only [Reading.unplaced, Place.unplaced, step_rightParen]
    refine take_unplaced ?_ ?_
    · intro brace
      rfl
    · by_cases isArrow : t.kind = .arrow
      · simp [isArrow, ParseError.unplaced]
      · simp [isArrow, ParseError.unplaced]

theorem finish_unplaced (r : Reading) :
    r.unplaced.finish = (r.finish.map Program.unplaced).mapError ParseError.unplaced := by
  obtain ⟨scopes, place⟩ := r
  cases place with
  | source program => cases scopes <;> rfl
  | fn | name | leftParen | rightParen => rfl

/-- Reading to the end commutes with forgetting places. -/
theorem outcome_verdict_unplaced (r : Reading) (ts : List Token) :
    (verdict none r.unplaced (ts.map Token.unplaced)).outcome =
      ((verdict none r ts).outcome.map Program.unplaced).mapError Failure.unplaced := by
  induction ts generalizing r with
  | nil =>
    rw [List.map_nil, verdict, verdict, finish_unplaced]
    cases r.finish <;> rfl
  | cons t ts ih =>
    have commutes := step_unplaced r t
    rw [List.map_cons]
    cases read : r.step t with
    | ok next =>
      rw [read] at commutes
      rw [verdict_cons_of_ok read, verdict_cons_of_ok commutes.symm, ih]
    | error e =>
      rw [read] at commutes
      rw [verdict_cons_of_error read, verdict_cons_of_error commutes.symm]
      rfl

/-- Without a fault in front of the tokens, none comes out. -/
theorem verdict_ne_lex (r : Reading) (ts : List Token) (fault : LexFault) :
    (verdict none r ts).outcome ≠ .error (.lex fault) := by
  induction ts generalizing r with
  | nil =>
    rw [verdict]
    cases r.finish <;> simp [Except.mapError]
  | cons t ts ih =>
    cases read : r.step t with
    | ok next =>
      rw [verdict_cons_of_ok read]
      exact ih next
    | error e =>
      rw [verdict_cons_of_error read]
      simp

end Reading

/-! ### Parsing -/

variable {source : String} {tracing : Bool}

/-- The outcome of parsing a source is that of reading its tokens. -/
theorem parse_outcome (source : String) (tracing : Bool) :
    (parse source tracing).outcome =
      (Reading.verdict none {} (({} : Lexer).tokens source).transcript.tokens).outcome.map
        Program.tree := by
  rw [parse, Parser.run_outcome, Parser.reading, Lexer.fault?_tokens]

/-- Parsing a source gives the trees of the programs with its tokens. -/
theorem parse_eq_ok_iff {tree : Tree} :
    (parse source tracing).outcome = .ok tree ↔
      ∃ program : Program,
        program.tokens = (({} : Lexer).tokens source).transcript.tokens ∧ program.tree = tree := by
  have run : (parse source tracing).outcome =
      (Parser.run {} (.ofList (({} : Lexer).tokens source).transcript.tokens)).1.outcome := by
    rw [parse_outcome, Parser.run_ofList_outcome]
  rw [run, Parser.run_eq_ok_iff]

/-- An outcome that is a tree without places is a tree. -/
theorem Outcome.exists_of_unplaced_eq_ok {outcome : Outcome} {tree : Tree}
    (success : outcome.unplaced = .ok tree) :
    ∃ again, outcome = .ok again ∧ again.unplaced = tree := by
  cases outcome with
  | error failure => cases success
  | ok again => exact ⟨again, rfl, Except.ok.inj success⟩

/-- Apart from places, the outcome of parsing a source depends on its content only. -/
theorem unplaced_parse (source : String) (tracing : Bool) :
    Outcome.unplaced (parse source tracing).outcome =
      (Reading.verdict none {} (({} : Lexer).content source.toList).tokens).outcome.map
        Program.tree := by
  -- Only that reading commutes with forgetting places counts, whatever the tokens are.
  rw [← Lexer.map_unplaced_tokens, parse_outcome]
  generalize (({} : Lexer).tokens source).transcript.tokens = ts
  have forgotten : (Reading.verdict none {} (ts.map Token.unplaced)).outcome =
      ((Reading.verdict none {} ts).outcome.map Program.unplaced).mapError Failure.unplaced :=
    Reading.outcome_verdict_unplaced {} ts
  rw [forgotten]
  cases (Reading.verdict none {} ts).outcome with
  | ok program => exact congrArg Except.ok program.tree_unplaced.symm
  | error failure => rfl

end Spire
