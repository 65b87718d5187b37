import Spire.Lexer

/-!
# Several open streams

A session holds token streams under names of the reader's choice. A stream is opened,
asked for one token at a time, or drained. What is done with one name leaves the
streams under other names alone.

## Main definitions

* `Lexer.Session` — the streams by name
* `Lexer.Session.start`, `Lexer.Session.next`, `Lexer.Session.drain` — open a stream,
  take one token, take everything that is left

## Main results

* `Lexer.Session.stream_start`, `Lexer.Session.stream_next`, `Lexer.Session.stream_drain` —
  what each operation does to the stream under each name
-/

namespace Spire.Lexer

/-- Token streams by name. A name under which nothing was opened has an empty stream. -/
structure Session where
  stream : String → TokenStream := fun _ => .done

namespace Session

/-- The session with another stream under a name. -/
def set (session : Session) (name : String) (s : TokenStream) : Session :=
  ⟨fun other => if other = name then s else session.stream other⟩

/-- Open a stream under a name, in place of whatever was open there. -/
def start (session : Session) (name : String) (lexer : Lexer) (source : String) (stage : Stage) :
    Session :=
  session.set name (lexer.stream source stage)

/-- Take one token from the stream under a name. -/
def next (session : Session) (name : String) : Except LexFault (Option Token) × Session :=
  let (answer, rest) := (session.stream name).next
  (answer, session.set name rest)

/-- Take everything that is left of the stream under a name. -/
def drain (session : Session) (name : String) : Transcript × Session :=
  ((session.stream name).transcript, session.set name .done)

variable {session : Session} {name other : String}

theorem stream_start (lexer : Lexer) (source : String) (stage : Stage) :
    (session.start name lexer source stage).stream other =
      if other = name then lexer.stream source stage else session.stream other := rfl

theorem stream_next :
    (session.next name).2.stream other =
      if other = name then (session.stream name).next.2 else session.stream other := rfl

theorem stream_drain :
    (session.drain name).2.stream other =
      if other = name then .done else session.stream other := rfl

end Session

end Spire.Lexer
