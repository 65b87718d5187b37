import Spire.Proofs.Parser.Isolation
import Spire.Proofs.Parser.Language
import Spire.Proofs.Forest.Planting

/-!
# The parser builds nodes

A tree can be had all at once when a source has been read, or it can grow while the source is
read: the parser creates a node as soon as it has the token for it, and puts a node below another
one as soon as both are done. The two come to the same. Reading goes on in step, since building
has no effect on it, and when it succeeds the nodes are those of the tree, built in the order in
which the tree is planted.

Whatever is put below a node has been created by the same rule of the grammar or by a rule called
from there, and has not been put anywhere else. So all that the parser does is lawful, also when it
fails midway, and the links between the nodes of a source fit together.

## Main definitions

* `Grower` — a parser together with the acts of building that it has done
* `Grower.source`, `Grower.run` — the parser that builds nodes
* `Grower.Builds` — computations that read alike, and what the second one builds

## Main results

* `Grower.builds_source` — a source is read as before, and its tree is planted
* `Grower.run_eq`, `Grower.lawful_run` — a run that builds nodes, compared with one that does not
* `Grower.links_fit` — lawful acts give orderly links, and the parser does lawful acts only
-/

namespace Spire

open Forest (Id Act Lawful build)
open Spire.Parser (note next putBack require expect)

/-- A parser that builds nodes, with the acts of building that have been done. -/
structure Grower where
  parser : Parser := {}
  acts : List Act := []

/-- A computation of a parser that builds nodes. -/
abbrev GrowM := EStateM Failure Grower

namespace Grower

/-- The nodes that have been built. -/
def forest (g : Grower) : Forest :=
  build g.acts

variable {α β γ δ : Type}

/-- Read as a parser does. -/
def read (x : ParseM α) : GrowM α := fun g =>
  match x g.parser with
  | .ok a parser => .ok a { g with parser }
  | .error e parser => .error e { g with parser }

/-- Do one act of building. -/
def perform (step : Act) : GrowM Unit :=
  modify fun g => { g with acts := g.acts ++ [step] }

/-- Create a node and give its number. -/
def create (t : Token := .root) : GrowM Id := do
  let g ← get
  perform (.create t)
  return (g.forest.create t).1

/-- Put the node `b` below `a`. -/
def append (a b : Id) : GrowM Unit :=
  perform (.append a b)

/-! ### The rules of the grammar -/

/-- Read the head of a function and give the node of its name. -/
def head : GrowM Id := do
  read (note .head)
  let name ← create (← read (expect .name .functionName))
  let _ ← read (expect .leftParen)
  let close ← read (require (.kind .rightParen))
  if close.kind = .rightParen then
    match ← read next with
    | none => return name
    | some t =>
      if t.kind = .arrow then
        throw (.parse (.unsupported .typeHint t))
      else
        read (putBack t)
        return name
  else
    throw (.parse (.unsupported .arguments close))

/-- Read a source up to the body of its function, if it has one, and give the node of the source
and that of the function. -/
def opening : GrowM (Id × Option Id) := do
  read (note .source)
  let root ← create
  match ← read next with
  | none => return (root, none)
  | some t =>
    if t.kind = .rightBrace then
      read (putBack t)
      return (root, none)
    else if t.kind = .nop then
      read (note .nop)
      let statement ← create t
      append root statement
      return (root, none)
    else if t.kind = .fn then
      read (note .function)
      let function ← create t
      let name ← head
      append function name
      read (note .scope)
      let _ ← read (expect .leftBrace)
      return (root, some function)
    else
      throw (.parse (.unexpectedToken .statement t))

/-- Read the brace behind a body, put the body below its function and the function below its
source. -/
def closing (root function body : Id) : GrowM Id := do
  let _ ← read (expect .rightBrace)
  append function body
  append root function
  return root

/-! ### Rules for computations -/

/-- What a computation that builds nodes comes to if another one has come to `taken`: the same
failure, or a success that has built what `grown` says. Lawful acts are followed by lawful ones. -/
def InStep (acts : List Act) (grown : α → β × Forest) (taken : EStateM.Result Failure Parser α) :
    EStateM.Result Failure Grower β → Prop
  | .ok b h =>
    ∃ a, taken = .ok a h.parser ∧ grown a = (b, h.forest) ∧ (Lawful acts → Lawful h.acts)
  | .error e h => taken = .error e h.parser ∧ (Lawful acts → Lawful h.acts)

/-- `y` reads what `x` reads. If it starts with the nodes of `f` and `x` gives `a`, then it gives
the number and leaves the nodes in `grown a`. -/
def Builds (f : Forest) (x : ParseM α) (y : GrowM β) (grown : α → β × Forest) : Prop :=
  ∀ g : Grower, g.forest = f → InStep g.acts grown (x g.parser) (y g)

variable {f : Forest} {x : ParseM α} {y : GrowM β} {g h : Grower}

/-- Lawful acts in front make no difference. -/
theorem InStep.mono {acts more : List Act} {grown : α → β × Forest}
    {taken : EStateM.Result Failure Parser α} {built : EStateM.Result Failure Grower β}
    (inStep : InStep more grown taken built) (lawful : Lawful acts → Lawful more) :
    InStep acts grown taken built := by
  cases built with
  | ok b h =>
    obtain ⟨a, same, left, stillLawful⟩ := inStep
    exact ⟨a, same, left, stillLawful ∘ lawful⟩
  | error e h => exact ⟨inStep.1, inStep.2 ∘ lawful⟩

theorem Builds.pure {a : α} {b : β} {grown : α → β × Forest} (same : grown a = (b, f)) :
    Builds f (Pure.pure a) (Pure.pure b) grown := by
  rintro g rfl
  exact ⟨a, rfl, same, id⟩

theorem Builds.throw {e : Failure} {grown : α → β × Forest} :
    Builds f (MonadExcept.throw e) (MonadExcept.throw e) grown :=
  fun _ _ => ⟨rfl, id⟩

/-- Reading builds nothing. -/
theorem Builds.read (x : ParseM α) : Builds f x (read x) fun a => (a, f) := by
  rintro g rfl
  unfold Grower.read
  cases x g.parser with
  | ok a q => exact ⟨a, rfl, rfl, id⟩
  | error e q => exact ⟨rfl, id⟩

theorem Builds.bind {k : α → ParseM γ} {l : β → GrowM δ} {mid : α → β × Forest}
    {grown : γ → δ × Forest} (first : Builds f x y mid)
    (second : ∀ a, Builds (mid a).2 (k a) (l (mid a).1) grown) :
    Builds f (x >>= k) (y >>= l) grown := by
  intro g start
  have begun := first g start
  cases done : y g with
  | error e h =>
    rw [done] at begun
    rw [Parser.bind_of_error done, Parser.bind_of_error begun.1]
    exact ⟨rfl, begun.2⟩
  | ok b h =>
    rw [done] at begun
    obtain ⟨a, taken, left, lawful⟩ := begun
    have others := second a
    rw [left] at others
    rw [Parser.bind_of_ok done, Parser.bind_of_ok taken]
    exact (others h rfl).mono lawful

/-- An act that is permitted may be done at any time. -/
theorem Builds.perform {step : Act} {l : Unit → GrowM β} {grown : α → β × Forest}
    (permits : f.Linked → f.Permits step) (others : Builds (f.act step) x (l ()) grown) :
    Builds f x (perform step >>= l) grown := by
  rintro g rfl
  let acted : Grower := { g with acts := g.acts ++ [step] }
  have left : acted.forest = g.forest.act step := Forest.build_concat
  have lawful (before : Lawful g.acts) : Lawful acted.acts :=
    Forest.lawful_concat.mpr ⟨before, permits (Forest.linked_of_lawful before)⟩
  exact (others acted left).mono lawful

/-- A node may be created at any time. -/
theorem Builds.create {t : Token} {l : Id → GrowM β} {grown : α → β × Forest}
    (others : Builds (f.create t).2 x (l (f.create t).1) grown) :
    Builds f x (create t >>= l) grown := by
  have performed : Builds f x (Grower.perform (.create t) >>= fun _ => l (f.create t).1) grown :=
    .perform (fun _ => trivial) others
  rintro g rfl
  exact performed g rfl

/-! ### Rules for the grammar -/

/-- A head leaves the node of its name behind. -/
theorem builds_head (f : Forest) : Builds f Parser.head head fun name => f.create name := by
  refine .bind (.read _) fun _ => ?_
  refine .bind (.read _) fun name => .create ?_
  refine .bind (.read _) fun _ => .bind (.read _) fun close => ?_
  dsimp only
  split
  · refine .bind (.read _) fun t? => ?_
    cases t? with
    | none => exact .pure rfl
    | some t =>
      dsimp only
      by_cases isArrow : t.kind = .arrow
      · simp only [isArrow, if_true]
        exact .throw
      · simp only [isArrow, if_false]
        exact .bind (.read _) fun _ => .pure rfl
  · exact .throw

/-- The nodes that an opening leaves behind those of `f`, with the source and the function. -/
def opened (f : Forest) : Opening → (Id × Option Id) × Forest
  | .empty =>
    let (root, f) := f.plant (.source [])
    ((root, none), f)
  | .nop t =>
    let (root, f) := f.plant (.source [.leaf t])
    ((root, none), f)
  | .function fn name =>
    let (root, f) := f.create
    let (function, f) := f.create fn
    let (name, f) := f.create name
    ((root, some function), f.append function name)

theorem builds_opening (f : Forest) : Builds f Parser.opening opening (opened f) := by
  refine .bind (.read _) fun _ => .create (.bind (.read _) fun t? => ?_)
  cases t? with
  | none => exact .pure rfl
  | some t =>
    dsimp only
    by_cases isClose : t.kind = .rightBrace
    · simp only [isClose, if_true]
      exact .bind (.read _) fun _ => .pure rfl
    by_cases isNop : t.kind = .nop
    · simp only [isNop, reduceCtorEq, if_true, if_false]
      refine .bind (.read _) fun _ => .create ?_
      refine .perform (fun linked => ?_) (.pure rfl)
      have root := Forest.alone_create f .root
      exact linked.permits_of_alone root.create (Forest.alone_create _ t) (root.ne_created t)
    by_cases isFn : t.kind = .fn
    · simp only [isFn, reduceCtorEq, if_true, if_false]
      refine .bind (.read _) fun _ => .create (.bind (builds_head _) fun name => ?_)
      refine .perform (fun linked => ?_) ?_
      · have function := Forest.alone_create f.create.2 t
        exact linked.permits_of_alone function.create (Forest.alone_create _ name)
          (function.ne_created name)
      · exact .bind (.read _) fun _ => .bind (.read _) fun _ => .pure rfl
    · simp only [isClose, isNop, isFn, if_false]
      exact .throw

/-- Where the body of a function comes next, the opening of the function has been read. -/
theorem opening_eq_ok {root function : Id} (done : opening g = .ok (root, some function) h) :
    ∃ fn name, Parser.opening g.parser = .ok (.function fn name) h.parser ∧
      opened g.forest (.function fn name) = ((root, some function), h.forest) ∧
      (Lawful g.acts → Lawful h.acts) := by
  have opens := builds_opening g.forest g rfl
  rw [done] at opens
  obtain ⟨what, taken, left, lawful⟩ := opens
  cases what with
  | empty => exact absurd (congrArg (·.1.2) left) nofun
  | nop t => exact absurd (congrArg (·.1.2) left) nofun
  | function fn name => exact ⟨fn, name, taken, left, lawful⟩

/-- Read a source and give its node. -/
def source (g : Grower) : EStateM.Result Failure Grower Id :=
  match _ : opening g with
  | .error e h => .error e h
  | .ok (root, none) h => .ok root h
  | .ok (root, some function) h =>
    match source h with
    | .error e k => .error e k
    | .ok body k => closing root function body k
termination_by g.parser.remaining
decreasing_by
  obtain ⟨_, _, taken, -⟩ := opening_eq_ok ‹_›
  exact Parser.remaining_opening taken

/-- The nodes of a source and of its function are put nowhere before the function is closed. -/
theorem alone_opened (f : Forest) (fn name : Token) :
    (opened f (.function fn name)).2.Alone f.create.1 ∧
      (opened f (.function fn name)).2.Alone (f.create.2.create fn).1 := by
  have root := (Forest.alone_create f .root).create (t := fn)
  have function := Forest.alone_create f.create.2 fn
  have named := Forest.alone_create (f.create.2.create fn).2 name
  constructor
  · exact root.create.append function.create named (root.ne_created name)
  · exact function.create.append function.create named (function.ne_created name)

theorem builds_closing (f : Forest) (fn name : Token) (body : Tree) :
    Builds ((opened f (.function fn name)).2.plant body).2 (Parser.closing fn name body)
      (closing f.create.1 (f.create.2.create fn).1
        ((opened f (.function fn name)).2.plant body).1)
      f.plant := by
  obtain ⟨root, function⟩ := alone_opened f fn name
  have rootNe : f.create.1 ≠ (f.create.2.create fn).1 :=
    (Forest.alone_create f .root).ne_created fn
  have built := Forest.alone_plant (opened f (.function fn name)).2 body
  refine .bind (.read _) fun _ => .perform (fun linked => ?_) ?_
  · exact linked.permits_of_alone function.plant built (function.ne_planted body)
  -- Only the body has got a parent by this, so the function can still be put below its source.
  refine .perform (fun linked => ?_) (.pure rfl)
  exact linked.permits_of_alone
    (root.plant.append function.plant built (root.ne_planted body))
    (function.plant.append function.plant built (function.ne_planted body)) rootNe

/-- A source is read as before, and its tree is planted. -/
theorem builds_source (f : Forest) : Builds f Parser.source source f.plant := by
  rintro g rfl
  -- The induction is on the calls of the parser that builds nodes. Each of them has an opening
  -- behind it, and this opening says what the other parser does.
  fun_induction source g with
  | case1 g e h failed =>
    have opens := builds_opening g.forest g rfl
    rw [failed] at opens
    rw [Parser.source_eq_bind, Parser.bind_of_error opens.1]
    exact ⟨rfl, opens.2⟩
  | case2 g root h done =>
    have opens := builds_opening g.forest g rfl
    rw [done] at opens
    obtain ⟨what, taken, left, lawful⟩ := opens
    rw [Parser.source_eq_bind, Parser.bind_of_ok taken]
    cases what with
    | empty =>
      exact ⟨_, rfl, Prod.ext (congrArg (·.1.1) left) (congrArg (·.2) left), lawful⟩
    | nop t =>
      exact ⟨_, rfl, Prod.ext (congrArg (·.1.1) left) (congrArg (·.2) left), lawful⟩
    | function fn name => exact absurd (congrArg (·.1.2) left) nofun
  | case3 g root function h done e k failed ih =>
    obtain ⟨fn, name, taken, -, lawful⟩ := opening_eq_ok done
    rw [failed] at ih
    rw [Parser.source_eq_bind, Parser.bind_of_ok taken, Parser.complete,
      Parser.bind_of_error ih.1]
    exact ⟨rfl, ih.2 ∘ lawful⟩
  | case4 g root function h done body k finished ih =>
    obtain ⟨fn, name, taken, left, lawful⟩ := opening_eq_ok done
    rw [finished] at ih
    obtain ⟨tree, read, planted, stillLawful⟩ := ih
    rw [Parser.source_eq_bind, Parser.bind_of_ok taken, Parser.complete,
      Parser.bind_of_ok read]
    have sameRoot : g.forest.create.1 = root := congrArg (·.1.1) left
    have sameFunction : (g.forest.create.2.create fn).1 = function :=
      Option.some.inj (congrArg (·.1.2) left)
    have closes := builds_closing g.forest fn name tree k
    rw [left, planted, sameRoot, sameFunction] at closes
    exact (closes rfl).mono (stillLawful ∘ lawful)

/-! ### Runs -/

/-- Read a source that ends where the tokens end, and give its node. -/
def parse (tokens : TokenStream) : GrowM Id := do
  read (modify fun p => { p with cursor := .ofStream tokens, log := #[] })
  let root ← source
  match ← read next with
  | none => return root
  | some t => throw (.parse (.unexpectedToken .endOfInput t))

/-- Use a parser that builds nodes, and give the node of the source or why there is none. -/
def run (g : Grower) (tokens : TokenStream) : Except Failure Id × Grower :=
  match g.parse tokens with
  | .ok root h => (.ok root, h)
  | .error e h => (.error e, h)

theorem builds_parse (f : Forest) (tokens : TokenStream) :
    Builds f (Parser.parse tokens) (parse tokens) f.plant := by
  refine .bind (.read _) fun _ => .bind (builds_source f) fun tree => ?_
  refine .bind (.read _) fun t? => ?_
  cases t? with
  | none => exact .pure rfl
  | some t => exact .throw

/-- A run that builds nodes goes on in step with one that does not, and the tree below the node
that it gives is the tree of the other one. -/
theorem run_eq (g : Grower) (tokens : TokenStream) :
    (g.run tokens).2.parser = (g.parser.run tokens).2 ∧
    (g.run tokens).1.map (g.run tokens).2.forest.subtree = (g.parser.run tokens).1.outcome := by
  have builds := builds_parse g.forest tokens g rfl
  unfold run Parser.run
  cases done : g.parse tokens with
  | error e h =>
    rw [done] at builds
    rw [builds.1]
    exact ⟨rfl, rfl⟩
  | ok root h =>
    rw [done] at builds
    obtain ⟨tree, taken, planted, -⟩ := builds
    have found := Forest.subtree_plant g.forest tree
    rw [planted] at found
    rw [taken]
    exact ⟨rfl, congrArg Except.ok found⟩

/-- A run that builds nodes does lawful acts only, also if it fails, and the node that it gives has
no parent. -/
theorem lawful_run (g : Grower) (tokens : TokenStream) (lawful : Lawful g.acts) :
    Lawful (g.run tokens).2.acts ∧
      ∀ root, (g.run tokens).1 = .ok root → (g.run tokens).2.forest.parent root = none := by
  have builds := builds_parse g.forest tokens g rfl
  unfold run
  cases done : g.parse tokens with
  | error e h =>
    rw [done] at builds
    exact ⟨builds.2 lawful, nofun⟩
  | ok root h =>
    rw [done] at builds
    obtain ⟨tree, -, planted, stillLawful⟩ := builds
    have alone := Forest.alone_plant g.forest tree
    rw [planted] at alone
    refine ⟨stillLawful lawful, fun _ same => ?_⟩
    cases same
    exact alone.noParent

/-- **Links.** What lawful acts build is orderly. The parser does lawful acts only, whether it
succeeds or fails, so the links between its nodes are orderly, the node of a source that it accepts
has no parent, and the tree of the source is found below it, with all links fitting together. -/
theorem links_fit :
    (∀ acts, Lawful acts → (build acts).Orderly acts) ∧
    ∀ (g : Grower) (tokens : TokenStream), Lawful g.acts →
      Lawful (g.run tokens).2.acts ∧
      (g.run tokens).2.forest.Orderly (g.run tokens).2.acts ∧
      (g.run tokens).2.parser = (g.parser.run tokens).2 ∧
      (g.run tokens).1.map (g.run tokens).2.forest.subtree = (g.parser.run tokens).1.outcome ∧
      ∀ root, (g.run tokens).1 = .ok root →
        (g.run tokens).2.forest.isRoot root = true ∧
        (g.run tokens).2.forest.isLinked root = true := by
  refine ⟨fun acts => Forest.orderly_of_lawful, fun g tokens before => ?_⟩
  obtain ⟨lawful, noParent⟩ := lawful_run g tokens before
  obtain ⟨sameParser, sameTree⟩ := run_eq g tokens
  have linked := Forest.linked_of_lawful lawful
  refine ⟨lawful, Forest.orderly_of_lawful lawful, sameParser, sameTree, fun root found => ?_⟩
  have isRoot : (g.run tokens).2.forest.isRoot root = true :=
    Option.isNone_iff_eq_none.mpr (noParent root found)
  exact ⟨isRoot, linked.isLinked (noParent root found)⟩

/-- Two nodes are put below a third one, the one that was created later first. A function that does
nothing takes five nodes. -/
theorem links_fit_in_idleFunction :
    (build [.create .root, .create .root, .create .root, .append 0 2, .append 0 1]).Orderly
        [.create .root, .create .root, .create .root, .append 0 2, .append 0 1] ∧
      (run {} (.ofList Parser.idleFunction.tokens)).1 = .ok 0 ∧
      (run {} (.ofList Parser.idleFunction.tokens)).2.forest.nodes.size = 5 ∧
      (run {} (.ofList Parser.idleFunction.tokens)).2.forest.isLinked 0 = true := by
  have three : Lawful [.create .root, .create .root, .create .root] :=
    ⟨trivial, trivial, trivial, trivial⟩
  have later := (Forest.linked_of_lawful three).permits_of_alone (a := 0) (b := 2)
    ⟨by decide, by decide⟩ ⟨by decide, by decide⟩ (by decide)
  have four := Forest.lawful_concat.mpr ⟨three, later⟩
  have earlier := (Forest.linked_of_lawful four).permits_of_alone (a := 0) (b := 1)
    ⟨by decide, by decide⟩ ⟨by decide, by decide⟩ (by decide)
  have five := Forest.lawful_concat.mpr ⟨four, earlier⟩
  have found : (run {} (.ofList Parser.idleFunction.tokens)).1 = .ok 0 := by decide +kernel
  obtain ⟨-, -, -, -, linked⟩ := links_fit.2 {} (.ofList Parser.idleFunction.tokens) trivial
  exact ⟨links_fit.1 _ five, found, by decide +kernel, (linked 0 found).2⟩

end Grower

end Spire
