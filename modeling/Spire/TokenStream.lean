import Spire.Token

/-!
# Supplies of tokens on demand

A token stream hands out one token at a time and computes the next one only when it
is asked for. It ends either because there are no more tokens or because the lexer
reaches a character that it has no kind for. What a stream hands out until then is
its transcript, and every operation on streams is described by what it does to the
transcript.

## Main definitions

* `LexFault` — an operator character without a kind
* `Transcript` — a finite list of tokens, possibly cut short by a fault
* `TokenStream` — a lazy supply of tokens
* `TokenStream.next` — one token and what is left of the stream
* `TokenStream.transcript` — everything that a stream hands out

## Main results

* `TokenStream.transcript_ofTranscript` — each transcript is that of some stream
* `TokenStream.transcript_flatMap`, `TokenStream.transcript_map`,
  `TokenStream.transcript_filter` — working token by token on demand gives what
  working on the whole list gives
-/

namespace Spire

/-- An operator character that stands for no kind of token. The table of operator
characters is wrong then, never the source text. -/
structure LexFault where
  char : Char
deriving DecidableEq, Repr, Inhabited

/-- The text that reports a fault. -/
def LexFault.message (fault : LexFault) : String :=
  "Lexer configuration error: operator character '" ++ fault.char.toString ++
    "' has no token type"

/-! ### Transcripts -/

/-- Tokens in order, and the fault after the last of them if there is one. -/
structure Transcript where
  tokens : List Token := []
  fault? : Option LexFault := none
deriving DecidableEq, Repr, Inhabited

namespace Transcript

/-- One transcript after another; nothing comes after a fault. -/
def append (first second : Transcript) : Transcript :=
  match first.fault? with
  | some _ => first
  | none => ⟨first.tokens ++ second.tokens, second.fault?⟩

instance : Append Transcript := ⟨append⟩

/-- A transcript with one more token in front. -/
def cons (t : Token) (rest : Transcript) : Transcript :=
  ⟨t :: rest.tokens, rest.fault?⟩

/-- Each token replaced by a transcript, up to the first fault. -/
def flatMap (f : Token → Transcript) (ts : Transcript) : Transcript :=
  ts.tokens.foldr (fun t rest => f t ++ rest) ⟨[], ts.fault?⟩

/-- Each token replaced by one token. -/
def map (f : Token → Token) (ts : Transcript) : Transcript :=
  ⟨ts.tokens.map f, ts.fault?⟩

/-- The tokens that pass a test. -/
def filter (keep : Token → Bool) (ts : Transcript) : Transcript :=
  ⟨ts.tokens.filter keep, ts.fault?⟩

/-- The tokens if there is no fault, and the fault alone otherwise. -/
def toExcept (ts : Transcript) : Except LexFault (List Token) :=
  match ts.fault? with
  | none => .ok ts.tokens
  | some fault => .error fault

variable {ts : Transcript}

@[simp] theorem tokens_cons (t : Token) : (cons t ts).tokens = t :: ts.tokens := rfl

@[simp] theorem fault?_cons (t : Token) : (cons t ts).fault? = ts.fault? := rfl

theorem mk_none_append (tokens : List Token) :
    (⟨tokens, none⟩ : Transcript) ++ ts = ⟨tokens ++ ts.tokens, ts.fault?⟩ := rfl

theorem mk_some_append (tokens : List Token) (fault : LexFault) :
    (⟨tokens, some fault⟩ : Transcript) ++ ts = ⟨tokens, some fault⟩ := rfl

@[simp] theorem nil_append : (⟨[], none⟩ : Transcript) ++ ts = ts := rfl

@[simp] theorem append_nil : ts ++ (⟨[], none⟩ : Transcript) = ts := by
  obtain ⟨tokens, _ | fault⟩ := ts
  · rw [mk_none_append, List.append_nil]
  · rw [mk_some_append]

theorem cons_append (t : Token) (rest : Transcript) : cons t ts ++ rest = cons t (ts ++ rest) := by
  obtain ⟨tokens, _ | fault⟩ := ts <;> rfl

theorem append_assoc (a b c : Transcript) : a ++ b ++ c = a ++ (b ++ c) := by
  obtain ⟨as, _ | f⟩ := a
  · obtain ⟨bs, _ | g⟩ := b
    · simp only [mk_none_append, List.append_assoc]
    · simp only [mk_none_append, mk_some_append]
  · simp only [mk_some_append]

@[simp] theorem flatMap_nil (f : Token → Transcript) (fault? : Option LexFault) :
    flatMap f ⟨[], fault?⟩ = ⟨[], fault?⟩ := rfl

theorem flatMap_cons (f : Token → Transcript) (t : Token) :
    (cons t ts).flatMap f = f t ++ ts.flatMap f := rfl

end Transcript

/-! ### Streams -/

/-- A lazy supply of tokens. -/
inductive TokenStream where
  /-- Nothing is left. -/
  | done
  /-- The next request meets a fault. -/
  | fault (cause : LexFault)
  /-- The next request is answered by `t`. -/
  | token (t : Token) (rest : Unit → TokenStream)

namespace TokenStream

instance : Inhabited TokenStream := ⟨done⟩

/-- The answer to one request and the stream that is left. A stream that met a fault
is at its end afterwards. -/
def next : TokenStream → Except LexFault (Option Token) × TokenStream
  | done => (.ok none, done)
  | fault cause => (.error cause, done)
  | token t rest => (.ok (some t), rest ())

/-- Everything that a stream hands out. -/
def transcript : TokenStream → Transcript
  | done => {}
  | fault cause => ⟨[], some cause⟩
  | token t rest => .cons t (rest ()).transcript

/-- The number of tokens in a stream. -/
def length : TokenStream → Nat
  | done => 0
  | fault _ => 0
  | token _ rest => (rest ()).length + 1

/-- The stream of given tokens, ended by `ending`. -/
def prepend (tokens : List Token) (ending : TokenStream) : TokenStream :=
  tokens.foldr (fun t rest => token t fun _ => rest) ending

/-- The stream that hands out a transcript. -/
def ofTranscript (ts : Transcript) : TokenStream :=
  prepend ts.tokens (match ts.fault? with
    | none => done
    | some cause => fault cause)

/-- The stream of a list of tokens. -/
def ofList (tokens : List Token) : TokenStream :=
  prepend tokens done

/-- One stream after another; nothing comes after a fault. -/
def append : TokenStream → (Unit → TokenStream) → TokenStream
  | done, second => second ()
  | fault cause, _ => fault cause
  | token t rest, second => token t fun _ => (rest ()).append second

/-- Each token replaced by a stream, on demand. -/
def flatMap (f : Token → TokenStream) : TokenStream → TokenStream
  | done => done
  | fault cause => fault cause
  | token t rest => (f t).append fun _ => (rest ()).flatMap f

/-- Each token replaced by one token, on demand. -/
def map (f : Token → Token) : TokenStream → TokenStream
  | done => done
  | fault cause => fault cause
  | token t rest => token (f t) fun _ => (rest ()).map f

/-- The tokens that pass a test, on demand. -/
def filter (keep : Token → Bool) : TokenStream → TokenStream
  | done => done
  | fault cause => fault cause
  | token t rest =>
    if keep t then token t fun _ => (rest ()).filter keep else (rest ()).filter keep

/-! ### What the operations do to the transcript -/

@[simp] theorem transcript_prepend (tokens : List Token) (ending : TokenStream) :
    (prepend tokens ending).transcript =
      ⟨tokens ++ ending.transcript.tokens, ending.transcript.fault?⟩ := by
  induction tokens with
  | nil => rfl
  | cons t tokens ih =>
    change Transcript.cons t (prepend tokens ending).transcript = _
    rw [ih]
    rfl

/-- Each transcript is that of some stream. -/
@[simp] theorem transcript_ofTranscript (ts : Transcript) :
    (ofTranscript ts).transcript = ts := by
  obtain ⟨tokens, _ | cause⟩ := ts <;> simp [ofTranscript, transcript]

@[simp] theorem transcript_ofList (tokens : List Token) :
    (ofList tokens).transcript = ⟨tokens, none⟩ := by
  simp [ofList, transcript]

theorem length_eq (s : TokenStream) : s.length = s.transcript.tokens.length := by
  induction s with
  | done => rfl
  | fault cause => rfl
  | token t rest ih => simp [length, transcript, ih ()]

@[simp] theorem transcript_append (s : TokenStream) (second : Unit → TokenStream) :
    (s.append second).transcript = s.transcript ++ (second ()).transcript := by
  induction s with
  | done => rfl
  | fault cause => rfl
  | token t rest ih =>
    rw [append, transcript, transcript, Transcript.cons_append, ih ()]

@[simp] theorem transcript_flatMap (f : Token → TokenStream) (s : TokenStream) :
    (s.flatMap f).transcript = s.transcript.flatMap fun t => (f t).transcript := by
  induction s with
  | done => rfl
  | fault cause => rfl
  | token t rest ih =>
    rw [flatMap, transcript_append, ih (), transcript, Transcript.flatMap_cons]

@[simp] theorem transcript_map (f : Token → Token) (s : TokenStream) :
    (s.map f).transcript = s.transcript.map f := by
  induction s with
  | done => rfl
  | fault cause => rfl
  | token t rest ih =>
    rw [map, transcript, ih ()]
    rfl

@[simp] theorem transcript_filter (keep : Token → Bool) (s : TokenStream) :
    (s.filter keep).transcript = s.transcript.filter keep := by
  induction s with
  | done => rfl
  | fault cause => rfl
  | token t rest ih =>
    by_cases kept : keep t <;>
      simp [filter, kept, transcript, ih (), Transcript.filter, Transcript.cons]

end TokenStream

end Spire
