import Spire.Cursor
import Spire.Lexer
import Mathlib.Data.List.Induction

/-!
# Reading with put-back as reading a list

A cursor keeps the tokens that were put back apart from the stream, takes from the stream only
what it needs, and meets a fault of the stream only when it has to. Whoever calls it sees none of
this. The tokens of the stream are one list; reading takes the token in front of the list, and a
token that is put back stands in front of the others. A fault is seen once, where the list is found
empty for the first time, and behind it the list goes on as if the stream had just ended.

## Main definitions

* `Cursor.Call`, `Cursor.Answer` — what may be asked of a cursor, and what comes back
* `Cursor.serve`, `Cursor.serveList` — the answers of a cursor, and those of a list
* `Cursor.answers`, `Cursor.after` — the answers to calls in a row, and what the calls leave
* `Cursor.raising` — answers with a fault in place of the first one without a token
* `Cursor.backlog` — how many tokens were put back and not read again

## Main results

* `Cursor.serve_next_cases` — everything that reading can do
* `Cursor.answers_eq` — a cursor answers as the list of the tokens ahead of it
* `Cursor.tracks_after` — what is put back, and what is taken from the stream, by the calls
* `Cursor.reads_as_a_list` — both, from the start of a stream
-/

namespace Spire.Cursor

/-! ### Calls -/

/-- What may be asked of a cursor. -/
inductive Call where
  /-- Read a token. -/
  | next
  /-- Take a token back. -/
  | putBack (t : Token)
deriving DecidableEq, Repr

/-- What comes back. -/
inductive Answer where
  | token (t : Token)
  /-- There is no token. -/
  | nothing
  | fault (cause : LexFault)
  /-- A token was taken back. -/
  | done
deriving DecidableEq, Repr

/-- What comes back when a token is read. -/
def Answer.ofRead : Except LexFault (Option Token) → Answer
  | .ok (some t) => token t
  | .ok none => nothing
  | .error cause => fault cause

/-- The answer of a cursor to a call, and the cursor behind it. -/
def serve (c : Cursor) : Call → Answer × Cursor
  | .next => (.ofRead c.next.1, c.next.2)
  | .putBack t => (.done, c.putBack t)

/-- The answer of a list to a call, and the list behind it: tokens are read at its front, and put
back there. -/
def serveList (list : List Token) : Call → Answer × List Token
  | .next =>
    match list with
    | t :: rest => (.token t, rest)
    | [] => (.nothing, [])
  | .putBack t => (.done, t :: list)

section

variable {σ : Type} (serve : σ → Call → Answer × σ) (state : σ)

/-- The answers to calls in a row. -/
def answers (state : σ) : List Call → List Answer
  | [] => []
  | call :: calls => (serve state call).1 :: answers (serve state call).2 calls

/-- What calls in a row leave. -/
def after (calls : List Call) : σ :=
  calls.foldl (fun state call => (serve state call).2) state

theorem after_concat (history : List Call) (call : Call) :
    after serve state (history ++ [call]) = (serve (after serve state history) call).2 :=
  List.foldl_append

end

/-- Answers with a fault in place of the first one that there is no token. -/
def raising (fault? : Option LexFault) (answers : List Answer) : List Answer :=
  match fault? with
  | some cause => answers.replace .nothing (.fault cause)
  | none => answers

/-- How many tokens were put back and not read again. -/
def backlog (calls : List Call) : Nat :=
  calls.foldl (fun count call => match call with
    | .next => count - 1
    | .putBack _ => count + 1) 0

variable {c : Cursor} {s : TokenStream} {call : Call} {calls history : List Call} {cause : LexFault}

/-! ### Answers -/

/-- Everything that reading can do: it takes the token in front of those ahead, or there is none,
and then nothing at all is ahead from there on. -/
theorem serve_next_cases (c : Cursor) :
    (∃ t tokens, c.ahead.tokens = t :: tokens ∧ (c.serve .next).1 = .token t ∧
      (c.serve .next).2.ahead = ⟨tokens, c.ahead.fault?⟩) ∨
    c.ahead.tokens = [] ∧ (c.serve .next).1 = (c.ahead.fault?.elim .nothing .fault) ∧
      (c.serve .next).2.ahead = {} := by
  have reading := c.next_ahead
  simp only [serve]
  generalize c.ahead = ts at reading ⊢
  obtain ⟨_ | ⟨t, tokens⟩, fault?⟩ := ts
  · right
    cases fault? <;> simp only [Prod.mk.injEq] at reading <;> simp [reading, Answer.ofRead]
  · left
    simp only [Prod.mk.injEq] at reading
    exact ⟨t, tokens, rfl, by rw [reading.1]; rfl, reading.2⟩

/-- One call leaves ahead what it leaves of the list. -/
theorem tokens_ahead_serve (c : Cursor) (call : Call) :
    (c.serve call).2.ahead.tokens = (serveList c.ahead.tokens call).2 := by
  cases call with
  | putBack t => rfl
  | next =>
    rcases serve_next_cases c with ⟨t, tokens, ahead, -, left⟩ | ⟨ahead, -, left⟩
    · rw [left, ahead]
      rfl
    · rw [left, ahead]
      rfl

/-- Calls leave ahead what they leave of the list. -/
theorem tokens_ahead_after (c : Cursor) (calls : List Call) :
    (after serve c calls).ahead.tokens = after serveList c.ahead.tokens calls := by
  induction calls generalizing c with
  | nil => rfl
  | cons call calls ih =>
    refine (ih (c.serve call).2).trans ?_
    rw [tokens_ahead_serve]
    rfl

/-- A cursor answers as the list of the tokens ahead of it, with the fault in the first place where
the list has no token. -/
theorem answers_eq (c : Cursor) (calls : List Call) :
    answers serve c calls = raising c.ahead.fault? (answers serveList c.ahead.tokens calls) := by
  induction calls generalizing c with
  | nil => cases c.ahead.fault? <;> rfl
  | cons call calls ih =>
    rw [answers, ih]
    cases call with
    | putBack t =>
      change _ :: raising c.ahead.fault? _ = _
      cases c.ahead.fault? <;> rfl
    | next =>
      rcases serve_next_cases c with ⟨t, tokens, ahead, answer, left⟩ | ⟨ahead, answer, left⟩
      · rw [answer, left, ahead]
        cases c.ahead.fault? <;> rfl
      · rw [answer, left, ahead]
        cases c.ahead.fault? <;> rfl

/-- A fault that has been met, or was never there, is not met again. -/
theorem fault?_ahead_serve (cause : LexFault)
    (met : c.ahead.fault? = none ∨ (c.serve call).1 = .fault cause) :
    (c.serve call).2.ahead.fault? = none := by
  cases call with
  | putBack t => exact met.resolve_right nofun
  | next =>
    rcases serve_next_cases c with ⟨t, tokens, -, answer, left⟩ | ⟨-, -, left⟩
    · rw [left]
      exact met.resolve_right (by simp [answer])
    · rw [left]

theorem fault?_ahead_after (met : c.ahead.fault? = none ∨ .fault cause ∈ answers serve c calls) :
    (after serve c calls).ahead.fault? = none := by
  induction calls generalizing c with
  | nil => exact met.resolve_right (List.not_mem_nil)
  | cons call calls ih =>
    refine ih ?_
    rcases met with none | member
    · exact .inl (fault?_ahead_serve cause (.inl none))
    · rcases List.mem_cons.mp member with first | later
      · exact .inl (fault?_ahead_serve cause (.inr first.symm))
      · exact .inr later

/-! ### Tokens taken from the stream -/

/-- What the calls so far say about a cursor that started at `s`: how many tokens are put back, and
that the count of tokens is the number of those that are missing from the stream. -/
structure Tracks (s : TokenStream) (history : List Call) (c : Cursor) : Prop where
  pending : c.pending.length = backlog history
  stream : c.stream.transcript.tokens = s.transcript.tokens.drop c.pulled

theorem backlog_concat (history : List Call) (call : Call) :
    backlog (history ++ [call]) = match call with
      | .next => backlog history - 1
      | .putBack _ => backlog history + 1 :=
  List.foldl_append

/-- What reading does to the parts of a cursor: it takes the latest token that was put back, or else
the next one of the stream, or nothing if the stream is at its end or at a fault. -/
theorem next_cases (c : Cursor) :
    (∃ t pending, c.pending = t :: pending ∧ c.next.2 = { c with pending }) ∨
    (∃ t tokens, c.pending = [] ∧ c.stream.transcript.tokens = t :: tokens ∧
      c.next.2.pending = [] ∧ c.next.2.stream.transcript.tokens = tokens ∧
      c.next.2.pulled = c.pulled + 1) ∨
    c.pending = [] ∧ c.stream.transcript.tokens = [] ∧ c.next.2.pending = [] ∧
      c.next.2.stream.transcript.tokens = [] ∧ c.next.2.pulled = c.pulled := by
  obtain ⟨_ | ⟨t, pending⟩, stream, pulled⟩ := c
  · cases stream with
    | done => exact .inr (.inr ⟨rfl, rfl, rfl, rfl, rfl⟩)
    | fault cause => exact .inr (.inr ⟨rfl, rfl, rfl, rfl, rfl⟩)
    | token t rest => exact .inr (.inl ⟨t, _, rfl, rfl, rfl, rfl, rfl⟩)
  · exact .inl ⟨t, pending, rfl, rfl⟩

theorem Tracks.serve (tracks : Tracks s history c) (call : Call) :
    Tracks s (history ++ [call]) (c.serve call).2 := by
  obtain ⟨backlogged, left⟩ := tracks
  cases call with
  | putBack t => exact ⟨by simp [Cursor.serve, putBack, backlog_concat, backlogged], left⟩
  | next =>
    simp only [Cursor.serve]
    -- The tokens that were put back come first; only behind them is the stream touched.
    rcases next_cases c with ⟨t, pending, put, next⟩ | ⟨t, tokens, none, more, put, rest, pulled⟩ |
      ⟨none, ended, put, rest, pulled⟩
    · refine ⟨?_, by rw [next]; exact left⟩
      rw [next, backlog_concat, ← backlogged, put]
      rfl
    · refine ⟨by simp [put, backlog_concat, ← backlogged, none], ?_⟩
      rw [rest, pulled, ← List.drop_drop, ← left, more]
      rfl
    · refine ⟨by simp [put, backlog_concat, ← backlogged, none], ?_⟩
      rw [rest, pulled, ← left, ended]

/-- The calls from the start of a stream say how many tokens are put back, and the count says how
many tokens are missing from the stream. -/
theorem tracks_after (s : TokenStream) (history : List Call) :
    Tracks s history (after serve (ofStream s) history) := by
  induction history using List.reverseRecOn with
  | nil => exact ⟨rfl, rfl⟩
  | append_singleton history call ih =>
    rw [after_concat]
    exact ih.serve call

/-- The count grows by one if a token is read while none is put back and the stream has one. -/
theorem Tracks.pulled_serve (tracks : Tracks s history c) (call : Call) :
    (c.serve call).2.pulled = c.pulled +
      if call = .next ∧ backlog history = 0 ∧ c.pulled < s.transcript.tokens.length then 1
      else 0 := by
  obtain ⟨backlogged, left⟩ := tracks
  have more : c.pulled < s.transcript.tokens.length ↔ c.stream.transcript.tokens ≠ [] := by
    rw [left, Ne, List.drop_eq_nil_iff, Nat.not_le]
  simp only [more, ← backlogged, List.length_eq_zero_iff]
  cases call with
  | putBack t => rfl
  | next =>
    simp only [Cursor.serve]
    rcases next_cases c with ⟨t, pending, put, next⟩ | ⟨t, tokens, none, more, -, -, pulled⟩ |
      ⟨none, ended, -, -, pulled⟩
    · simp [next, put]
    · simp [pulled, none, more]
    · simp [pulled, ended]

/-! ### Streams and lists -/

/-- **Reading a list.** A cursor at the start of a stream answers any calls as the list of the
tokens of the stream, where tokens are read and put back at the front; only the first answer that
there is no token is the fault of the stream if it has one. Behind the fault the list alone answers.
What can still be read is what the calls leave of the list. A token is taken from the stream, and
counted, only by a call that reads while no token is put back and the stream has one. -/
theorem reads_as_a_list (s : TokenStream) :
    (∀ calls, answers serve (ofStream s) calls =
      raising s.transcript.fault? (answers serveList s.transcript.tokens calls)) ∧
    (∀ history cause, .fault cause ∈ answers serve (ofStream s) history →
      ∀ later, answers serve (after serve (ofStream s) history) later =
        answers serveList (after serveList s.transcript.tokens history) later) ∧
    (ofStream s).pulled = 0 ∧
    ∀ history,
      (after serve (ofStream s) history).ahead.tokens =
        after serveList s.transcript.tokens history ∧
      (after serve (ofStream s) history).stream.transcript.tokens =
        s.transcript.tokens.drop (after serve (ofStream s) history).pulled ∧
      ∀ call, (after serve (ofStream s) (history ++ [call])).pulled =
        (after serve (ofStream s) history).pulled +
          if call = .next ∧ backlog history = 0 ∧
            (after serve (ofStream s) history).pulled < s.transcript.tokens.length then 1
          else 0 := by
  refine ⟨answers_eq (ofStream s), ?_, rfl, ?_⟩
  · intro history cause raised later
    rw [answers_eq, fault?_ahead_after (.inr raised), tokens_ahead_after]
    rfl
  · intro history
    have tracks := tracks_after s history
    refine ⟨tokens_ahead_after (ofStream s) history, tracks.stream, ?_⟩
    intro call
    rw [after_concat]
    exact tracks.pulled_serve call

/-- The tokens of a word that breaks off behind its first letter. -/
def brokenWord : TokenStream :=
  (⟨['@']⟩ : Lexer).tokens "x@y"

/-- A token that comes from no source. -/
def stray : Token :=
  ⟨.root, "", ⟨0, 7⟩⟩

/-- The fault of a broken word is met once. Tokens that are put back behind it are read again, the
latest first, and the one token of the word is counted once. -/
theorem reads_as_a_list_behind_brokenWord :
    .fault ⟨'@'⟩ ∈ answers serve (ofStream brokenWord) [.next, .putBack stray, .next, .next] ∧
    answers serve (after serve (ofStream brokenWord) [.next, .putBack stray, .next, .next])
        [.putBack stray, .putBack ⟨.nop, "nop", {}⟩, .next, .next, .next] =
      [.done, .done, .token ⟨.nop, "nop", {}⟩, .token stray, .nothing] ∧
    (after serve (ofStream brokenWord) [.next]).pulled = 1 ∧
    (after serve (ofStream brokenWord) [.next, .next]).pulled = 1 := by
  have list : brokenWord.transcript = ⟨[⟨.name, "x", ⟨1, 1⟩⟩], some ⟨'@'⟩⟩ :=
    (Lexer.transcript_stream _ _ .content).trans (by decide +kernel)
  obtain ⟨answered, behind, -, counted⟩ := reads_as_a_list brokenWord
  rw [list] at answered behind counted
  have met : .fault ⟨'@'⟩ ∈
      answers serve (ofStream brokenWord) [.next, .putBack stray, .next, .next] := by
    rw [answered]
    decide
  have one : (after serve (ofStream brokenWord) [.next]).pulled = 1 := (counted []).2.2 .next
  refine ⟨met, ?_, one, ?_⟩
  · rw [behind _ _ met]
    decide
  · have two := (counted [.next]).2.2 .next
    rw [one] at two
    exact two

end Spire.Cursor
