import Spire.Lexer.Session

/-!
# Streams under any schedule

Streams of one lexer may be opened, asked for single tokens and drained in any order. What comes
out of a stream can be said without streams: work on the whole source, stage by stage, and read
the list that results from the start. How far it has been read is how often the stream has been
asked since it was opened, and what was asked of other streams does not count.

A fault stands behind the last token of a list and is read like one more element. When it has been
read, or the list has been drained, nothing is left.

## Main definitions

* `Lexer.Request`, `Lexer.Answer` — what may be asked of a session, and what comes back
* `Lexer.answer` — the answer to a request behind others
* `Transcript.nth`, `Transcript.drop` — an element of a list, and what is left behind some

## Main results

* `Lexer.Session.transcript_after` — what is left of a stream, by the requests since it was opened
* `Lexer.Session.stream_after_filter` — requests to other streams make no difference
* `Lexer.answers_are_read_off_lists` — the answer to each request
-/

namespace Spire

/-! ### Reading lists -/

namespace Transcript

/-- The answer to a request for a token behind `n` others: the tokens come one by one, behind the
last of them the fault if there is one, and nothing from then on. -/
def nth (ts : Transcript) (n : Nat) : Except LexFault (Option Token) :=
  if inside : n < ts.tokens.length then .ok (some ts.tokens[n])
  else if n = ts.tokens.length then
    match ts.fault? with
    | some fault => .error fault
    | none => .ok none
  else .ok none

/-- What is left when `n` tokens have been asked for. -/
def drop (ts : Transcript) (n : Nat) : Transcript :=
  ⟨ts.tokens.drop n, if n ≤ ts.tokens.length then ts.fault? else none⟩

variable {ts : Transcript}

@[simp] theorem drop_zero : ts.drop 0 = ts := by
  simp [drop]

@[simp] theorem drop_empty (n : Nat) : ({} : Transcript).drop n = {} := by
  simp [drop]

theorem drop_drop (m n : Nat) : (ts.drop m).drop n = ts.drop (m + n) := by
  simp only [drop, List.drop_drop, List.length_drop]
  by_cases inside : m ≤ ts.tokens.length
  · have both : n ≤ ts.tokens.length - m ↔ m + n ≤ ts.tokens.length := by omega
    simp only [inside, both, if_true]
  · have beyond : ¬ m + n ≤ ts.tokens.length := by omega
    simp [inside, beyond]

/-- The next element is the first of those that are left. -/
theorem nth_zero_drop (n : Nat) : (ts.drop n).nth 0 = ts.nth n := by
  by_cases inside : n < ts.tokens.length
  · have some : 0 < ts.tokens.length - n := by omega
    simp [nth, drop, inside, some]
  by_cases atEnd : n = ts.tokens.length
  · simp [nth, drop, atEnd]
  · have beyond : ¬ n ≤ ts.tokens.length := by omega
    have none : ts.tokens.length - n = 0 := by omega
    simp [nth, drop, inside, atEnd, beyond, none]

end Transcript

/-- A request for a token is answered by the first element, and leaves the others. -/
theorem TokenStream.next_eq (s : TokenStream) :
    s.next.1 = s.transcript.nth 0 ∧ s.next.2.transcript = s.transcript.drop 1 := by
  cases s with
  | done => exact ⟨rfl, rfl⟩
  | fault cause => exact ⟨rfl, rfl⟩
  | token t rest =>
    refine ⟨rfl, ?_⟩
    simp [next, transcript, Transcript.drop]

namespace Lexer

/-! ### Requests -/

/-- What may be asked of a session. -/
inductive Request where
  /-- Open a stream under a name. -/
  | start (name source : String) (stage : Stage)
  /-- Take one token. -/
  | next (name : String)
  /-- Take everything that is left. -/
  | drain (name : String)
deriving DecidableEq, Repr

/-- The name of the stream that a request is about. -/
def Request.name : Request → String
  | start name _ _ => name
  | next name => name
  | drain name => name

/-- What comes back. -/
inductive Answer where
  | started
  | token (answer : Except LexFault (Option Token))
  | rest (ts : Transcript)

/-- What a request does to the stream that it is about, and its answer. -/
def Request.act (lexer : Lexer) (s : TokenStream) : Request → Answer × TokenStream
  | start _ source stage => (.started, lexer.stream source stage)
  | next _ => (.token s.next.1, s.next.2)
  | drain _ => (.rest s.transcript, .done)

namespace Session

/-- Answer a request with a lexer. -/
def serve (lexer : Lexer) (session : Session) : Request → Answer × Session
  | .start name source stage => (.started, session.start name lexer source stage)
  | .next name =>
    let (answer, session) := session.next name
    (.token answer, session)
  | .drain name =>
    let (ts, session) := session.drain name
    (.rest ts, session)

/-- The session behind some requests. -/
def after (lexer : Lexer) (session : Session) (requests : List Request) : Session :=
  requests.foldl (fun session request => (session.serve lexer request).2) session

variable {lexer : Lexer} {session other : Session} {request : Request} {name : String}
  {requests : List Request}

theorem after_cons :
    session.after lexer (request :: requests) =
      (session.serve lexer request).2.after lexer requests := rfl

/-- A request has to do with one stream only. -/
theorem serve_eq (session : Session) (request : Request) :
    (session.serve lexer request).1 = (request.act lexer (session.stream request.name)).1 ∧
      ∀ name, (session.serve lexer request).2.stream name =
        if name = request.name then (request.act lexer (session.stream request.name)).2
        else session.stream name := by
  cases request with
  | start opened source stage => exact ⟨rfl, fun _ => stream_start lexer source stage⟩
  | next asked => exact ⟨rfl, fun _ => stream_next⟩
  | drain asked => exact ⟨rfl, fun _ => stream_drain⟩

/-- Requests to other streams make no difference to a stream. -/
theorem stream_after_filter (same : session.stream name = other.stream name) :
    (session.after lexer (requests.filter (·.name = name))).stream name =
      (other.after lexer requests).stream name := by
  induction requests generalizing session other with
  | nil => exact same
  | cons request requests ih =>
    by_cases about : request.name = name
    · subst about
      rw [List.filter_cons_of_pos (by simp), after_cons, after_cons]
      apply ih
      rw [(serve_eq session request).2, (serve_eq other request).2, same]
    · rw [List.filter_cons_of_neg (by simpa using about), after_cons]
      apply ih
      rw [(serve_eq other request).2, if_neg (Ne.symm about), same]

/-- What is left of a stream behind some requests, none of which opens it again. -/
theorem transcript_after (notReopened : ∀ source stage, .start name source stage ∉ requests) :
    ((session.after lexer requests).stream name).transcript =
      if .drain name ∈ requests then {}
      else (session.stream name).transcript.drop (requests.count (.next name)) := by
  induction requests generalizing session with
  | nil => simp [after]
  | cons request requests ih =>
    have others := @ih (session.serve lexer request).2 fun source stage member =>
      notReopened source stage (List.mem_cons_of_mem _ member)
    rw [after_cons, others, (serve_eq session request).2]
    by_cases about : name = request.name
    · rw [if_pos about, ← about]
      cases request with
      | start opened source stage =>
        obtain rfl : name = opened := about
        exact absurd (List.mem_cons_self ..) (notReopened source stage)
      | next asked =>
        obtain rfl : name = asked := about
        have left := (TokenStream.next_eq (session.stream name)).2
        simp [Request.act, left, Transcript.drop_drop, Nat.add_comm]
      | drain asked =>
        obtain rfl : name = asked := about
        simp [Request.act, TokenStream.transcript]
    · have notNext : request ≠ .next name := fun same => about (by rw [same]; rfl)
      have notDrain : .drain name ≠ request := fun same => about (by rw [← same]; rfl)
      rw [if_neg about, List.count_cons_of_ne notNext]
      simp [notDrain]

/-- What is left of a stream since it was opened, whatever has been asked before. -/
theorem transcript_after_start {earlier : List Request} {source : String} {stage : Stage}
    (notReopened : ∀ source stage, .start name source stage ∉ requests) :
    ((session.after lexer (earlier ++ .start name source stage :: requests)).stream
      name).transcript =
      if .drain name ∈ requests then {}
      else (stage.run lexer source).drop (requests.count (.next name)) := by
  let opened := (session.after lexer earlier).start name lexer source stage
  have split : session.after lexer (earlier ++ .start name source stage :: requests) =
      opened.after lexer requests := List.foldl_append
  have fresh : opened.stream name = lexer.stream source stage :=
    (stream_start lexer source stage).trans (if_pos rfl)
  rw [split, transcript_after notReopened, fresh, transcript_stream]

end Session

/-! ### Answers -/

/-- The answer to a request behind others, in a session that starts without streams. -/
def answer (lexer : Lexer) (history : List Request) (request : Request) : Answer :=
  ((Session.after lexer {} history).serve lexer request).1

/-- **Streams and lists.** Let a stream be opened and not opened again, with any other requests
before and behind. Behind `n` requests for a token of this stream, the next one is answered by the
element `n` of the list that the stages give for the source, each worked to its end before the
next, and draining the stream gives all elements from there on. When the stream has been drained
there is nothing left. Whatever is asked of a stream, what has been asked of others makes no
difference to the answer. -/
theorem answers_are_read_off_lists (lexer : Lexer) :
    (∀ (earlier later : List Request) (name source : String) (stage : Stage),
      (∀ source stage, .start name source stage ∉ later) →
        answer lexer (earlier ++ .start name source stage :: later) (.next name) =
            .token (if .drain name ∈ later then .ok none
              else (stage.run lexer source).nth (later.count (.next name))) ∧
          answer lexer (earlier ++ .start name source stage :: later) (.drain name) =
            .rest (if .drain name ∈ later then {}
              else (stage.run lexer source).drop (later.count (.next name)))) ∧
    ∀ (history : List Request) (request : Request),
      answer lexer (history.filter (·.name = request.name)) request =
        answer lexer history request := by
  constructor
  · intro earlier later name source stage notReopened
    let session := Session.after lexer {} (earlier ++ .start name source stage :: later)
    have left : (session.stream name).transcript = _ := Session.transcript_after_start notReopened
    constructor
    · have asked : answer lexer (earlier ++ .start name source stage :: later) (.next name) =
          .token (session.stream name).next.1 := rfl
      rw [asked, (TokenStream.next_eq _).1, left]
      split
      · rfl
      · rw [Transcript.nth_zero_drop]
    · exact congrArg Answer.rest left
  · intro history request
    rw [answer, answer, (Session.serve_eq _ request).1, (Session.serve_eq _ request).1,
      Session.stream_after_filter rfl]

/-- A stream whose only word breaks off, asked for one token while another stream is opened twice:
the fault is what comes next, and what is left. -/
theorem answers_are_read_off_lists_at_fault :
    (∀ source stage, .start "a" source stage ∉
      [Request.next "b", .next "a", .start "b" "f" .content, .drain "b"]) ∧
    answer ⟨['@']⟩ ([.start "b" "nop @" .words] ++ .start "a" "x@y" .content ::
        [.next "b", .next "a", .start "b" "f" .content, .drain "b"]) (.next "a") =
      .token (.error ⟨'@'⟩) ∧
    answer ⟨['@']⟩ ([.start "b" "nop @" .words] ++ .start "a" "x@y" .content ::
        [.next "b", .next "a", .start "b" "f" .content, .drain "b"]) (.drain "a") =
      .rest ⟨[], some ⟨'@'⟩⟩ := by
  have notReopened : ∀ source stage, .start "a" source stage ∉
      [Request.next "b", .next "a", .start "b" "f" .content, .drain "b"] := by
    simp
  have list : Stage.content.run ⟨['@']⟩ "x@y" = ⟨[⟨.name, "x", ⟨1, 1⟩⟩], some ⟨'@'⟩⟩ := by
    decide +kernel
  obtain ⟨next, rest⟩ := (answers_are_read_off_lists ⟨['@']⟩).1 [.start "b" "nop @" .words] _
    "a" "x@y" .content notReopened
  rw [list] at next rest
  exact ⟨notReopened, next, rest⟩

end Lexer

end Spire
