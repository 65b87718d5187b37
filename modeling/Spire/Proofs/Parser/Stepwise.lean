import Spire.Parser
import Spire.Proofs.Reading

/-!
# The parser reads token by token

The parser works through its rules, looks one token ahead and gives tokens back. What it
finds is nevertheless what reading token by token finds: the same program or the same
failure, with the same tokens left unread behind it.

The comparison goes rule by rule. Each computation of the parser comes with what holds
before it and behind it of the cursor and of the verdict that reading on would give. The
verdict never changes, so once a rule fails it is the verdict.

## Main definitions

* `Parser.Assertion`, `Parser.Follows` — what a computation does to cursor and verdict
* `Parser.At`, `Parser.Behind`, `Parser.Ended` — the cursor in front of a token, behind it,
  and behind the last one

## Main results

* `Parser.follows_source` — a source is read as a program, or fails with the verdict
* `Parser.run_outcome`, `Parser.run_pulled` — what can be seen of a run, by the verdict
-/

namespace Spire.Parser

/-- What may be said of a cursor and of the verdict that reading on would give. -/
abbrev Assertion := Cursor → Reading.Verdict → Prop

/-- The number of tokens that the stream behind a parser holds or has handed out. -/
def supply (p : Parser) : Nat :=
  p.cursor.pulled + p.cursor.stream.length

/-- The parser has failed with the verdict, and has put no token back. -/
def Failed (e : Failure) : Assertion := fun c v =>
  c.pending = [] ∧ v = { outcome := .error e, unread := c.ahead.tokens }

/-- A result that has kept the supply of tokens: a success of which `after` holds, or the
failure that is the verdict. -/
def Reaches {α : Type} (supply : Nat) (v : Reading.Verdict) (after : α → Assertion) :
    EStateM.Result Failure Parser α → Prop
  | .ok a q => q.supply = supply ∧ after a q.cursor v
  | .error e q => q.supply = supply ∧ Failed e q.cursor v

/-- If `before` holds of the cursor and a verdict, then `after` does behind `x`, or `x`
fails with that verdict. -/
def Follows {α : Type} (before : Assertion) (x : ParseM α) (after : α → Assertion) : Prop :=
  ∀ (p : Parser) (v : Reading.Verdict), before p.cursor v → Reaches p.supply v after (x p)

/-- Reading on from `r` gives the verdict, and the next token is one of those given. -/
def At (r : Reading) (given : Token → Prop := fun _ => True) : Assertion := fun c v =>
  c.pending.length ≤ 1 ∧ (∀ t ∈ c.ahead.tokens.head?, given t) ∧
    r.verdict c.ahead.fault? c.ahead.tokens = v

/-- Reading on from `r` and from `t`, which has just been taken, gives the verdict. -/
def Behind (r : Reading) (given : Token → Prop) (t : Token) : Assertion := fun c v =>
  c.pending = [] ∧ given t ∧ r.verdict c.ahead.fault? (t :: c.ahead.tokens) = v

/-- No token is left, and the end of the tokens gives the verdict. -/
def Ended (r : Reading) : Assertion := fun c v =>
  c.pending = [] ∧ c.ahead = {} ∧ r.verdict none [] = v

universe u

variable {α β : Type} {before middle : Assertion} {r : Reading} {given : Token → Prop}
  {t : Token} {e : Expectation} {scopes : List Header}

/-! ### Rules for computations -/

theorem Follows.bind {x : ParseM α} {f : α → ParseM β} {between : α → Assertion}
    {after : β → Assertion} (first : Follows before x between)
    (second : ∀ a, Follows (between a) (f a) after) : Follows before (x >>= f) after := by
  intro p v holds
  have reached := first p v holds
  change Reaches _ _ _ (EStateM.bind x f p)
  unfold EStateM.bind
  cases result : x p with
  | error e q =>
    rw [result] at reached
    exact reached
  | ok a q =>
    rw [result] at reached
    obtain ⟨sameSupply, holds⟩ := reached
    have finished := second a q v holds
    rwa [sameSupply] at finished

theorem Follows.pure {a : α} {after : α → Assertion}
    (holds : ∀ c v, before c v → after a c v) : Follows before (Pure.pure a) after :=
  fun _ _ now => ⟨rfl, holds _ _ now⟩

theorem Follows.throw {failure : Failure} {after : α → Assertion}
    (holds : ∀ c v, before c v → Failed failure c v) :
    Follows before (MonadExcept.throw failure : ParseM α) after :=
  fun _ _ now => ⟨rfl, holds _ _ now⟩

theorem Follows.mono {x : ParseM α} {after : α → Assertion}
    (holds : ∀ c v, before c v → middle c v) (follows : Follows middle x after) :
    Follows before x after :=
  fun p v now => follows p v (holds _ _ now)

/-- A computation that follows from each witness follows from their existence. -/
theorem Follows.exists {ι : Sort u} {x : ParseM α} {before : ι → Assertion}
    {after : α → Assertion} (follows : ∀ i, Follows (before i) x after) :
    Follows (fun c v => ∃ i, before i c v) x after :=
  fun p v ⟨i, now⟩ => follows i p v now

/-- What is known beforehand of other things than the cursor may be taken for granted. -/
theorem Follows.of_and {fact : Prop} {x : ParseM α} {after : α → Assertion}
    (follows : fact → Follows before x after) :
    Follows (fun c v => fact ∧ before c v) x after :=
  fun p v ⟨known, now⟩ => follows known p v now

theorem follows_note (step : Step) : Follows before (note step) fun _ => before :=
  fun _ _ now => ⟨rfl, now⟩

/-! ### Rules for tokens -/

/-- The next token is taken, unless the tokens have ended or a fault comes first. -/
theorem follows_next : Follows (At r given) next fun
    | some t => Behind r given t
    | none => Ended r := by
  rintro ⟨tracing, ⟨_ | ⟨t, pending⟩, stream, pulled⟩, log, console⟩ v ⟨few, first, reading⟩
  · cases stream with
    | done => exact ⟨rfl, rfl, rfl, reading⟩
    | fault cause => exact ⟨rfl, rfl, reading.symm⟩
    | token t rest =>
      refine ⟨?_, rfl, first t rfl, reading⟩
      simp only [supply, TokenStream.length]
      omega
  · cases pending with
    | nil => exact ⟨rfl, rfl, first t rfl, reading⟩
    | cons u pending => simp at few

/-- A token that is given back is the next one. -/
theorem follows_putBack : Follows (Behind r given t) (putBack t) fun _ => At r given := by
  rintro p v ⟨settled, isGiven, reading⟩
  refine ⟨rfl, ?_, ?_, reading⟩
  · simp [Cursor.putBack, settled]
  · rintro u same
    cases same
    exact isGiven

theorem failed_of_step {c : Cursor} {v : Reading.Verdict} {error : ParseError}
    (refused : r.step t = .error error) (behind : Behind r given t c v) :
    Failed (.parse error) c v := by
  obtain ⟨settled, -, rfl⟩ := behind
  exact ⟨settled, Reading.verdict_cons_of_error refused⟩

theorem at_of_step {c : Cursor} {v : Reading.Verdict} {next : Reading}
    (read : r.step t = .ok next) (behind : Behind r given t c v) : At next (fun _ => True) c v := by
  obtain ⟨settled, -, rfl⟩ := behind
  exact ⟨by simp [settled], fun _ _ => trivial, (Reading.verdict_cons_of_ok read).symm⟩

theorem failed_of_finish {c : Cursor} {v : Reading.Verdict} {error : ParseError}
    (missing : r.finish = .error error) (ended : Ended r c v) : Failed (.parse error) c v := by
  obtain ⟨settled, empty, rfl⟩ := ended
  refine ⟨settled, ?_⟩
  rw [Reading.verdict, missing, empty]
  rfl

/-- Where no token is left, whatever is said of the next one holds. -/
theorem at_of_ended {c : Cursor} {v : Reading.Verdict} (ended : Ended r c v) :
    At r given c v := by
  obtain ⟨settled, empty, reading⟩ := ended
  refine ⟨by simp [settled], ?_, ?_⟩
  · rw [empty]
    rintro t ⟨⟩
  · rw [empty]
    exact reading

theorem Behind.imp {c : Cursor} {v : Reading.Verdict} {known : Token → Prop}
    (implies : given t → known t) (behind : Behind r given t c v) : Behind r known t c v :=
  ⟨behind.1, implies behind.2.1, behind.2.2⟩

/-- A token that must be there is taken, or the end of the tokens is the verdict. -/
theorem follows_require (missing : r.finish = .error (.unexpectedEnd e)) :
    Follows (At r given) (require e) (Behind r given) := by
  refine Follows.bind follows_next fun t? => ?_
  cases t? with
  | some t => exact .pure fun _ _ behind => behind
  | none => exact .throw fun _ _ ended => failed_of_finish missing ended

/-- A token of one kind is read where reading takes this kind alone. -/
theorem follows_expect {kind : Token.Kind} (next : Token.Of kind → Reading)
    (takes : ∀ t, given t → r.step t = Reading.take t next (.unexpectedToken e t))
    (missing : r.finish = .error (.unexpectedEnd e)) :
    Follows (At r given) (expect kind e) fun t c v =>
      ∃ isKind : t.kind = kind, At (next ⟨t, isKind⟩) (fun _ => True) c v := by
  refine Follows.bind (follows_require missing) fun t => ?_
  by_cases isKind : t.kind = kind
  · rw [if_pos isKind]
    refine .pure fun c v behind => ⟨isKind, at_of_step ?_ behind⟩
    rw [takes t behind.2.1, Reading.take_of_kind isKind]
  · rw [if_neg isKind]
    refine .throw fun c v behind => failed_of_step ?_ behind
    rw [takes t behind.2.1, Reading.take_of_not_kind isKind]

/-! ### Rules for the grammar -/

/-- A head is read up to the parenthesis behind it. No arrow comes next: it would have been
refused. -/
theorem follows_head (fn : Token.Of .fn) :
    Follows (At ⟨scopes, .fn fn⟩) head fun t c v =>
      ∃ (name : Token.Of .name) (left : Token.Of .leftParen) (right : Token.Of .rightParen),
        name.1 = t ∧ At ⟨scopes, .rightParen fn name left right⟩ (·.kind ≠ .arrow) c v := by
  refine Follows.bind (follows_note _) fun _ => ?_
  refine Follows.bind
    (follows_expect (fun name => ⟨scopes, .name fn name⟩) (fun _ _ => rfl) rfl) fun name => ?_
  refine Follows.exists fun isName => ?_
  refine Follows.bind
    (follows_expect (fun left => ⟨scopes, .leftParen fn ⟨name, isName⟩ left⟩)
      (fun _ _ => rfl) rfl) fun left => ?_
  refine Follows.exists fun isLeft => ?_
  refine Follows.bind (follows_require rfl) fun right => ?_
  by_cases isRight : right.kind = .rightParen
  · rw [if_pos isRight]
    let behind : Reading :=
      ⟨scopes, .rightParen fn ⟨name, isName⟩ ⟨left, isLeft⟩ ⟨right, isRight⟩⟩
    have closed : Reading.step ⟨scopes, .leftParen fn ⟨name, isName⟩ ⟨left, isLeft⟩⟩ right =
        .ok behind := by
      rw [Reading.step_leftParen, Reading.take_of_kind isRight]
    -- One token ahead: an arrow is refused here, and any other token goes back to the scope.
    refine .mono (fun _ _ => at_of_step closed) (Follows.bind follows_next fun t? => ?_)
    cases t? with
    | none =>
      refine .pure fun c v ended => ⟨⟨name, isName⟩, ⟨left, isLeft⟩, ⟨right, isRight⟩, rfl, ?_⟩
      exact at_of_ended ended
    | some t =>
      by_cases isArrow : t.kind = .arrow
      · simp only [isArrow, if_true]
        refine .throw fun c v => failed_of_step ?_
        rw [Reading.step_rightParen, Reading.take_of_not_kind (by simp [isArrow]), if_pos isArrow]
      · simp only [isArrow, if_false]
        have known (c v) : Behind behind (fun _ => True) t c v →
            Behind behind (·.kind ≠ .arrow) t c v := Behind.imp fun _ => isArrow
        refine .mono known ?_
        refine Follows.bind follows_putBack fun _ => .pure fun c v now => ?_
        exact ⟨⟨name, isName⟩, ⟨left, isLeft⟩, ⟨right, isRight⟩, rfl, now⟩
  · rw [if_neg isRight]
    refine .throw fun c v => failed_of_step ?_
    rw [Reading.step_leftParen, Reading.take_of_not_kind isRight]

/-- What an opening says has been read. Behind an empty source a brace comes next, or
nothing. -/
def Opened (scopes : List Header) : Opening → Assertion
  | .empty => At ⟨scopes, .source .empty⟩ (·.kind = .rightBrace)
  | .nop t => fun c v => ∃ isNop : t.kind = .nop, At ⟨scopes, .source (.nop ⟨t, isNop⟩)⟩
      (fun _ => True) c v
  | .function fn name => fun c v => ∃ header : Header, header.fn.1 = fn ∧ header.name.1 = name ∧
      At ⟨header :: scopes, .source .empty⟩ (fun _ => True) c v

theorem follows_opening : Follows (At ⟨scopes, .source .empty⟩) opening (Opened scopes) := by
  refine Follows.bind (follows_note _) fun _ => ?_
  refine Follows.bind follows_next fun t? => ?_
  cases t? with
  | none => exact .pure fun c v ended => at_of_ended ended
  | some t =>
    by_cases isClose : t.kind = .rightBrace
    · simp only [isClose, if_true]
      have known (c v) : Behind ⟨scopes, .source .empty⟩ (fun _ => True) t c v →
          Behind ⟨scopes, .source .empty⟩ (·.kind = .rightBrace) t c v :=
        Behind.imp fun _ => isClose
      exact .mono known (Follows.bind follows_putBack fun _ => .pure fun c v now => now)
    by_cases isNop : t.kind = .nop
    · simp only [isNop, if_true, reduceCtorEq, if_false]
      refine Follows.bind (follows_note _) fun _ => .pure fun c v behind => ?_
      refine ⟨isNop, at_of_step ?_ behind⟩
      rw [Reading.step_empty, if_neg isClose, dif_pos isNop]
    by_cases isFn : t.kind = .fn
    · simp only [isFn, if_true, reduceCtorEq, if_false]
      have started : Reading.step ⟨scopes, .source .empty⟩ t =
          .ok ⟨scopes, .fn ⟨t, isFn⟩⟩ := by
        rw [Reading.step_empty, if_neg isClose, dif_neg isNop, Reading.take_of_kind isFn]
      refine Follows.bind (follows_note _) fun _ => ?_
      refine .mono (fun _ _ => at_of_step started) ?_
      refine Follows.bind (follows_head ⟨t, isFn⟩) fun name => ?_
      refine Follows.exists fun name => Follows.exists fun left => Follows.exists fun right => ?_
      refine Follows.of_and fun same => ?_
      refine Follows.bind (follows_note _) fun _ => ?_
      refine Follows.bind
        (follows_expect (fun brace => ⟨⟨⟨t, isFn⟩, name, left, right, brace⟩ :: scopes,
          .source .empty⟩) (fun u notArrow => ?_) rfl) fun brace => ?_
      · rw [Reading.step_rightParen, if_neg notArrow]
      · refine Follows.exists fun isBrace => .pure fun c v now => ?_
        exact ⟨⟨⟨t, isFn⟩, name, left, right, ⟨brace, isBrace⟩⟩, rfl, same, now⟩
    · simp only [isClose, isNop, isFn, if_false]
      refine .throw fun c v => failed_of_step ?_
      rw [Reading.step_empty, if_neg isClose, dif_neg isNop, Reading.take_of_not_kind isFn]

/-- A tree that has been read is that of a program, and behind an empty program a brace
comes next, or nothing. -/
def Grown (scopes : List Header) (tree : Tree) : Assertion := fun c v =>
  ∃ program : Program, program.tree = tree ∧
    At ⟨scopes, .source program⟩ (fun t => program = .empty → t.kind = .rightBrace) c v

theorem follows_closing {header : Header} {body : Tree} :
    Follows (Grown (header :: scopes) body) (closing header.fn header.name body)
      (Grown scopes) := by
  refine Follows.exists fun program => Follows.of_and fun same => ?_
  refine Follows.bind
    (follows_expect (fun close => ⟨scopes, .source (.function header program close)⟩)
      (fun t known => ?_) rfl) fun close => ?_
  · cases program with
    | empty =>
      -- Reading would still take a statement here, but the parser has seen that a brace comes.
      rw [Reading.step_of_rightBrace (known rfl)]
      rfl
    | nop | function => rfl
  · refine Follows.exists fun isClose => .pure fun c v now => ?_
    refine ⟨.function header program ⟨close, isClose⟩, ?_, now.1, nofun, now.2.2⟩
    rw [Program.tree, same]
    rfl

/-- A source is read as a program, or fails with the verdict. -/
theorem follows_source (scopes : List Header) :
    Follows (At ⟨scopes, .source .empty⟩) source (Grown scopes) := by
  -- The induction is on the calls of the parser; each body stands in one more function.
  intro p
  fun_induction source p generalizing scopes with
  | case1 p e q opened =>
    intro v now
    have reached := follows_opening p v now
    rwa [opened] at reached
  | case2 p q opened =>
    intro v now
    have reached := follows_opening p v now
    rw [opened] at reached
    obtain ⟨sameSupply, few, closes, reading⟩ := reached
    exact ⟨sameSupply, .empty, rfl, few, fun t isNext _ => closes t isNext, reading⟩
  | case3 p t q opened =>
    intro v now
    have reached := follows_opening p v now
    rw [opened] at reached
    obtain ⟨sameSupply, isNop, few, -, reading⟩ := reached
    exact ⟨sameSupply, .nop ⟨t, isNop⟩, rfl, few, nofun, reading⟩
  | case4 p fn name q opened e s failed ih =>
    intro v now
    have reached := follows_opening p v now
    rw [opened] at reached
    obtain ⟨sameSupply, header, rfl, rfl, inside⟩ := reached
    have nested := ih (header :: scopes) v inside
    rwa [failed, sameSupply] at nested
  | case5 p fn name q opened body s finished ih =>
    intro v now
    have reached := follows_opening p v now
    rw [opened] at reached
    obtain ⟨sameSupply, header, rfl, rfl, inside⟩ := reached
    have nested := ih (header :: scopes) v inside
    rw [finished] at nested
    have closed := follows_closing s v nested.2
    rwa [nested.1, sameSupply] at closed

/-! ### Whole runs -/

/-- The parser has read all tokens, and the verdict is a program with the given tree. -/
def Finished (tree : Tree) : Assertion := fun c v =>
  c.pending = [] ∧ c.ahead = {} ∧
    ∃ program : Program, program.tree = tree ∧ v = { outcome := .ok program }

/-- How reading all tokens of a stream comes to its end. -/
def reading (s : TokenStream) : Reading.Verdict :=
  Reading.verdict s.transcript.fault? {} s.transcript.tokens

/-- What is left to do behind a source that is all there is. -/
def ending (tree : Tree) : Option Token → ParseM Tree
  | none => pure tree
  | some t => throw (.parse (.unexpectedToken .endOfInput t))

/-- Behind the outermost source the tokens have ended, or the next one is the failure. -/
theorem follows_ending (tree : Tree) : Follows (Grown [] tree) (next >>= ending tree) Finished := by
  refine Follows.exists fun program => Follows.of_and fun same => ?_
  refine Follows.bind follows_next fun t? => ?_
  cases t? with
  | none =>
    refine .pure fun c v ended => ?_
    obtain ⟨settled, empty, reading⟩ := ended
    exact ⟨settled, empty, program, same, reading.symm⟩
  | some t =>
    refine .throw fun c v behind => failed_of_step ?_ behind
    cases program with
    | empty => rw [Reading.step_of_rightBrace (behind.2.1 rfl), Reading.leave]
    | nop | function => rfl

theorem reaches_parse (p : Parser) (s : TokenStream) :
    Reaches s.length (reading s) Finished (parse s p) := by
  have start : At {} (fun _ => True) (Cursor.ofStream s) (reading s) :=
    ⟨Nat.zero_le _, fun _ _ => trivial, rfl⟩
  have whole : Follows (At {}) (source >>= fun tree => next >>= ending tree) Finished :=
    Follows.bind (follows_source []) follows_ending
  have reached := whole { p with cursor := .ofStream s, log := #[] } _ start
  have noneYet : supply { p with cursor := .ofStream s, log := #[] } = s.length :=
    Nat.zero_add _
  rwa [noneYet] at reached

/-- The outcome of a run is that of reading the tokens one by one. -/
theorem run_outcome (p : Parser) (s : TokenStream) :
    (p.run s).1.outcome = (reading s).outcome.map Program.tree := by
  have reached := reaches_parse p s
  unfold run
  split
  · next tree q parsed =>
    rw [parsed] at reached
    obtain ⟨-, -, -, program, same, verdict⟩ := reached
    rw [verdict, ← same]
    rfl
  · next e q parsed =>
    rw [parsed] at reached
    obtain ⟨-, -, verdict⟩ := reached
    rw [verdict]
    rfl

/-- A run takes from the stream all tokens that reading them one by one does not leave. -/
theorem run_pulled (p : Parser) (s : TokenStream) :
    (p.run s).1.pulled + (reading s).unread.length = s.length := by
  have reached := reaches_parse p s
  unfold run
  split
  · next tree q parsed =>
    rw [parsed] at reached
    obtain ⟨sameSupply, settled, empty, program, -, verdict⟩ := reached
    have used := congrArg (·.tokens.length) empty
    simp only [Cursor.ahead, settled, List.nil_append, ← TokenStream.length_eq] at used
    rw [verdict, ← sameSupply, supply, used]
  · next e q parsed =>
    rw [parsed] at reached
    obtain ⟨sameSupply, settled, verdict⟩ := reached
    rw [verdict, ← sameSupply, supply, Cursor.ahead, settled, List.nil_append,
      ← TokenStream.length_eq]

end Spire.Parser
