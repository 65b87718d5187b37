import Spire.Proofs.Parser.Stepwise

/-!
# One parser, many sources

A parser that is used again starts from a new cursor and an empty log, and nothing else of what it
remembers has an effect on what it finds. The lines that it prints are those of its log, printed
as the log grows, and nothing is ever read back from them. So a computation of the parser does the
same whether it prints or not and whatever has been printed before, and the printed lines can be
computed from the log at the end.

## Main definitions

* `Parser.voiced` — a parser that has printed its log behind given lines, or has kept it to itself
* `Parser.Echoes` — computations that print what they log and nothing else

## Main results

* `Parser.source_eq_bind` — a source is an opening and what comes behind it
* `Parser.echoes_source` — reading a source prints what it logs
* `Parser.run_eq` — a run, from that of a parser that has never been used
* `Parser.runs_are_independent` — runs of one parser one after the other, and runs with and
  without tracing
-/

namespace Spire.Parser

/-- The parser that has printed its log behind the lines `before` if it traces, and has printed
nothing else. -/
def voiced (tracing : Bool) (before : Array String) (p : Parser) : Parser :=
  { p with
    tracing
    console := before ++ if tracing then p.log.map Step.line else #[] }

/-- A result with another parser at its end. -/
def onParser {α : Type} (f : Parser → Parser) :
    EStateM.Result Failure Parser α → EStateM.Result Failure Parser α
  | .ok a p => .ok a (f p)
  | .error e p => .error e (f p)

/-- What a computation prints is what it logs, and it does the same whether it prints or not. -/
def Echoes {α : Type} (x : ParseM α) : Prop :=
  ∀ (tracing : Bool) (before : Array String) (p : Parser),
    x (p.voiced tracing before) = onParser (voiced tracing before) (x p)

variable {α β : Type} {p q : Parser} {tracing : Bool} {before : Array String} {s : TokenStream}

/-! ### Rules for computations -/

theorem bind_of_ok {ε σ : Type} {p q : σ} {x : EStateM ε σ α} {f : α → EStateM ε σ β} {a : α}
    (done : x p = .ok a q) : (x >>= f) p = f a q := by
  change EStateM.bind x f p = _
  unfold EStateM.bind
  rw [done]

theorem bind_of_error {ε σ : Type} {p q : σ} {x : EStateM ε σ α} {f : α → EStateM ε σ β} {e : ε}
    (failed : x p = .error e q) : (x >>= f) p = .error e q := by
  change EStateM.bind x f p = _
  unfold EStateM.bind
  rw [failed]

theorem Echoes.pure (a : α) : Echoes (Pure.pure a : ParseM α) :=
  fun _ _ _ => rfl

theorem Echoes.throw (e : Failure) : Echoes (MonadExcept.throw e : ParseM α) :=
  fun _ _ _ => rfl

theorem Echoes.bind {x : ParseM α} {f : α → ParseM β} (first : Echoes x)
    (second : ∀ a, Echoes (f a)) : Echoes (x >>= f) := by
  intro tracing before p
  have echo := first tracing before p
  cases done : x p with
  | ok a q =>
    rw [done] at echo
    rw [bind_of_ok done, bind_of_ok echo]
    exact second a tracing before q
  | error e q =>
    rw [done] at echo
    rw [bind_of_error done, bind_of_error echo]
    rfl

theorem echoes_note (step : Step) : Echoes (note step) := by
  intro tracing before p
  cases tracing with
  | true => simp [note, onParser, voiced]
  | false => simp [note, onParser, voiced]

/-- Reading a token has to do with the cursor only. -/
theorem echoes_next : Echoes next := by
  intro tracing before p
  have sameCursor : (p.voiced tracing before).cursor = p.cursor := rfl
  unfold next
  rw [sameCursor]
  cases p.cursor.next with
  | mk answer cursor => cases answer <;> rfl

theorem echoes_putBack (t : Token) : Echoes (putBack t) :=
  (echoes_note _).bind fun _ _ _ _ => rfl

theorem echoes_require (e : Expectation) : Echoes (require e) := by
  refine echoes_next.bind fun t? => ?_
  cases t? with
  | some t => exact .pure t
  | none => exact .throw _

theorem echoes_expect (kind : Token.Kind) (e : Expectation) : Echoes (expect kind e) := by
  refine (echoes_require e).bind fun t => ?_
  split
  · exact .pure t
  · exact .throw _

/-! ### Rules for the grammar -/

theorem echoes_head : Echoes head := by
  refine (echoes_note _).bind fun _ => ?_
  refine (echoes_expect _ _).bind fun name => ?_
  refine (echoes_expect _ _).bind fun _ => ?_
  refine (echoes_require _).bind fun close => ?_
  split
  · refine echoes_next.bind fun t? => ?_
    cases t? with
    | none => exact .pure name
    | some t =>
      by_cases isArrow : t.kind = .arrow
      · simp only [isArrow, if_true]
        exact .throw _
      · simp only [isArrow, if_false]
        exact (echoes_putBack t).bind fun _ => .pure name
  · exact .throw _

theorem echoes_opening : Echoes opening := by
  refine (echoes_note _).bind fun _ => ?_
  refine echoes_next.bind fun t? => ?_
  cases t? with
  | none => exact .pure _
  | some t =>
    by_cases isClose : t.kind = .rightBrace
    · simp only [isClose, if_true]
      exact (echoes_putBack t).bind fun _ => .pure _
    by_cases isNop : t.kind = .nop
    · simp only [isNop, reduceCtorEq, if_true, if_false]
      exact (echoes_note _).bind fun _ => .pure _
    by_cases isFn : t.kind = .fn
    · simp only [isFn, reduceCtorEq, if_true, if_false]
      refine (echoes_note _).bind fun _ => echoes_head.bind fun name => ?_
      exact (echoes_note _).bind fun _ => (echoes_expect _ _).bind fun _ => .pure _
    · simp only [isClose, isNop, isFn, if_false]
      exact .throw _

theorem echoes_closing (fn name : Token) (body : Tree) : Echoes (closing fn name body) :=
  (echoes_expect _ _).bind fun _ => .pure _

/-- What comes behind an opening. -/
def complete : Opening → ParseM Tree
  | .empty => pure (.source [])
  | .nop t => pure (.source [.leaf t])
  | .function fn name => source >>= closing fn name

/-- A source is an opening and what comes behind it. -/
theorem source_eq_bind (p : Parser) : source p = (opening >>= complete) p := by
  rw [source]
  split
  · next opened => rw [bind_of_error opened]
  · next opened =>
    rw [bind_of_ok opened]
    rfl
  · next opened =>
    rw [bind_of_ok opened]
    rfl
  · next fn name q opened =>
    rw [bind_of_ok opened, complete]
    cases body : source q with
    | error e r => rw [bind_of_error body]
    | ok tree r => rw [bind_of_ok body]

/-- Reading a source prints what it logs. -/
theorem echoes_source : Echoes source := by
  -- The induction is on the calls of the parser, each of which has the opening behind it.
  intro tracing before p
  have opens := echoes_opening tracing before p
  fun_induction source p with
  | case1 p e q opened =>
    rw [opened] at opens
    rw [source_eq_bind, bind_of_error opens]
    rfl
  | case2 p q opened =>
    rw [opened] at opens
    rw [source_eq_bind, bind_of_ok opens]
    rfl
  | case3 p t q opened =>
    rw [opened] at opens
    rw [source_eq_bind, bind_of_ok opens]
    rfl
  | case4 p fn name q opened e r failed ih =>
    rw [opened] at opens
    have nested := ih (echoes_opening tracing before q)
    rw [failed] at nested
    rw [source_eq_bind, bind_of_ok opens, complete, bind_of_error nested]
    rfl
  | case5 p fn name q opened body r finished ih =>
    rw [opened] at opens
    have nested := ih (echoes_opening tracing before q)
    rw [finished] at nested
    rw [source_eq_bind, bind_of_ok opens, complete, bind_of_ok nested]
    exact echoes_closing fn name body tracing before r

/-! ### Runs -/

/-- Reading to the end prints what it logs. -/
theorem echoes_whole : Echoes (source >>= fun tree => next >>= ending tree) := by
  refine echoes_source.bind fun tree => echoes_next.bind fun t? => ?_
  cases t? with
  | none => exact .pure tree
  | some t => exact .throw _

/-- Parsing is what a new parser does, with the log printed behind what was there already. -/
theorem parse_eq (p : Parser) (s : TokenStream) :
    p.parse s = onParser (voiced p.tracing p.console) (({} : Parser).parse s) := by
  let fresh : Parser := { cursor := .ofStream s }
  have start : { p with cursor := .ofStream s, log := #[] } =
      fresh.voiced p.tracing p.console := by
    cases tracing : p.tracing <;> simp [voiced, fresh]
  have echo := echoes_whole p.tracing p.console fresh
  rw [← start] at echo
  exact echo

/-- What can be seen of a run is what can be seen of the run of a new parser, and the printed log
if the parser traces. The parser goes on tracing, or not, as before. -/
theorem run_eq (p : Parser) (s : TokenStream) :
    (p.run s).1 =
        { (run {} s).1 with printed := if p.tracing then (run {} s).1.log.map Step.line else [] } ∧
      (p.run s).2.tracing = p.tracing := by
  unfold run
  rw [parse_eq p s]
  cases ({} : Parser).parse s with
  | ok tree q => cases tracing : p.tracing <;> simp [onParser, voiced]
  | error e q => cases tracing : p.tracing <;> simp [onParser, voiced]

/-- A run does not depend on what the parser has been used for. -/
theorem run_eq_new (p : Parser) (s : TokenStream) :
    (p.run s).1 = (run { tracing := p.tracing } s).1 := by
  rw [(run_eq p s).1, (run_eq { tracing := p.tracing } s).1]

/-- **Isolation.** If a parser is used on several streams in turn, each run shows what the run of
a new parser on this stream shows. Whether a parser traces makes no difference to what it finds,
to how many tokens it takes and to its log. If it traces it prints the entries of the log in order,
each behind a mark, and otherwise it prints nothing. -/
theorem runs_are_independent (p : Parser) (streams : List TokenStream) :
    p.runAll streams = streams.map (fun s => (run { tracing := p.tracing } s).1) ∧
    ∀ s : TokenStream,
      (run { tracing := true } s).1.outcome = (run { tracing := false } s).1.outcome ∧
      (run { tracing := true } s).1.pulled = (run { tracing := false } s).1.pulled ∧
      (run { tracing := true } s).1.log = (run { tracing := false } s).1.log ∧
      (run { tracing := true } s).1.printed =
        (run { tracing := true } s).1.log.map (fun step => "  [trace] " ++ step.text) ∧
      (run { tracing := false } s).1.printed = [] := by
  constructor
  · induction streams generalizing p with
    | nil => rfl
    | cons s streams ih =>
      change (p.run s).1 :: (p.run s).2.runAll streams = _
      rw [ih, (run_eq p s).2, run_eq_new p s, List.map_cons]
  · intro s
    rw [(run_eq { tracing := true } s).1, (run_eq { tracing := false } s).1]
    exact ⟨rfl, rfl, rfl, rfl, rfl⟩

end Spire.Parser
