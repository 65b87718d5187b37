import Spire.TokenStream

/-!
# Cutting a text into segments

A text is cut from left to right into line ends, comments, blank runs, strings and
runs of anything else. The first character of a segment decides its kind, and the
kind decides where it stops. Nothing of the text is lost: the segments, one after
another, are the text.

## Main definitions

* `Segment` — the kind and text of the first segment, and the text behind it
* `Segment.first` — the first segment of a non-empty text
* `Segment.cut` — the segments of a whole text, with their places
* `Segment.stream` — the same segments on demand

## Main results

* `Segment.first_text_append_rest` — a segment and the text behind it make up the text
* `Segment.transcript_stream` — segments on demand are the segments of the whole text
-/

namespace Spire

/-- Spaces and tabs. -/
def isBlank (c : Char) : Bool :=
  c == ' ' || c == '\t'

/-- The characters that end a run: blanks and line ends. -/
def isSeparator (c : Char) : Bool :=
  isBlank c || c == '\n'

/-- The first segment of a text and what follows it. -/
structure Segment where
  kind : Token.Kind
  text : List Char
  rest : List Char
deriving DecidableEq, Repr, Inhabited

namespace Segment

/-- The segment that takes `c` and then the characters that pass a test. -/
def takeWhile (kind : Token.Kind) (inside : Char → Bool) (c : Char) (rest : List Char) : Segment :=
  ⟨kind, c :: rest.takeWhile inside, rest.dropWhile inside⟩

/-- The segment of a string whose opening quote has been read: it runs through the next
quote, or to the end of the text if there is none. -/
def quoted (rest : List Char) : Segment :=
  let body := rest.takeWhile (· != '"')
  let behind := rest.dropWhile (· != '"')
  ⟨.string, '"' :: (body ++ behind.take 1), behind.drop 1⟩

/-- The first segment of the text `c :: rest`. -/
def first (c : Char) (rest : List Char) : Segment :=
  if c = '\n' then ⟨.newline, [c], rest⟩
  else if c = '/' ∧ rest.head? = some '/' then takeWhile .comment (· != '\n') c rest
  else if isBlank c then takeWhile .space isBlank c rest
  else if c = '"' then quoted rest
  else takeWhile .unknown (fun d => !isSeparator d) c rest

variable {c : Char} {rest : List Char}

theorem takeWhile_text_append_rest (kind : Token.Kind) (inside : Char → Bool) :
    (takeWhile kind inside c rest).text ++ (takeWhile kind inside c rest).rest = c :: rest := by
  simp [takeWhile]

theorem quoted_text_append_rest : (quoted rest).text ++ (quoted rest).rest = '"' :: rest := by
  simp only [quoted, List.cons_append, List.append_assoc, List.take_append_drop,
    List.takeWhile_append_dropWhile]

/-- A segment and the text behind it make up the text. -/
theorem first_text_append_rest : (first c rest).text ++ (first c rest).rest = c :: rest := by
  unfold first
  split
  · rfl
  split
  · exact takeWhile_text_append_rest _ _
  split
  · exact takeWhile_text_append_rest _ _
  split
  · next isQuote => rw [quoted_text_append_rest, isQuote]
  · exact takeWhile_text_append_rest _ _

/-- A segment takes at least its first character. -/
theorem first_text_ne_nil : (first c rest).text ≠ [] := by
  unfold first
  split
  · exact List.cons_ne_nil _ _
  split
  · exact List.cons_ne_nil _ _
  split
  · exact List.cons_ne_nil _ _
  split
  · exact List.cons_ne_nil _ _
  · exact List.cons_ne_nil _ _

/-- The text behind a segment is shorter than the text. -/
theorem length_first_rest_lt : (first c rest).rest.length < (c :: rest).length := by
  have whole := congrArg List.length (@first_text_append_rest c rest)
  have some := List.length_pos_iff.mpr (@first_text_ne_nil c rest)
  rw [List.length_append] at whole
  omega

/-- The token of a segment that starts at `p`. -/
def token (s : Segment) (p : Position) : Token :=
  ⟨s.kind, String.ofList s.text, p⟩

/-- The segments of a text that starts at `p`. -/
def cut (p : Position) (text : List Char) : List Token :=
  match text with
  | [] => []
  | c :: rest => (first c rest).token p :: cut (p.advance (first c rest).text) (first c rest).rest
termination_by text.length
decreasing_by exact length_first_rest_lt

/-- The segments of a text that starts at `p`, on demand. -/
def stream (p : Position) (text : List Char) : TokenStream :=
  match text with
  | [] => .done
  | c :: rest =>
    let segment := first c rest
    .token (segment.token p) fun _ => stream (p.advance segment.text) segment.rest
termination_by text.length
decreasing_by exact length_first_rest_lt

@[simp] theorem cut_nil (p : Position) : cut p [] = [] := by
  rw [cut]

theorem cut_cons (p : Position) :
    cut p (c :: rest) =
      (first c rest).token p :: cut (p.advance (first c rest).text) (first c rest).rest := by
  rw [cut]

@[simp] theorem stream_nil (p : Position) : stream p [] = .done := by
  rw [stream]

theorem stream_cons (p : Position) :
    stream p (c :: rest) = .token ((first c rest).token p) fun _ =>
      stream (p.advance (first c rest).text) (first c rest).rest := by
  rw [stream]

/-- Segments on demand are the segments of the whole text. -/
theorem transcript_stream (p : Position) (text : List Char) :
    (stream p text).transcript = ⟨cut p text, none⟩ := by
  fun_induction cut p text with
  | case1 p => rw [stream_nil]; rfl
  | case2 p c rest ih => rw [stream_cons, TokenStream.transcript, ih]; rfl

end Segment

end Spire
