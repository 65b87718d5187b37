import Spire.Proofs.Lexer.Fault

/-!
# Starting anew behind a line end

What stands in front of a line end has no effect on how the text behind it is read, except that
it moves this text further down. So the tokens of two texts with a line end between them are the
tokens of the first, the line end, and the tokens of the second with other line numbers. The one
exception is a string that is still open at the end of the first text: the line end falls into it.

Every stage of the lexer works on tokens one by one and computes places from the places of its
tokens alone, so it makes no difference whether tokens are moved down before a stage or behind it.

## Main definitions

* `Position.down`, `Token.down`, `Transcript.down` — moved down by a number of lines

## Main results

* `Segment.pieces_down` — a text that starts further down has the same tokens further down
* `Lexer.stream_append_newline` — every stage of every lexer starts anew behind a line end
* `Lexer.newline_resynchronises` — the tokens of two texts with a line end between them
-/

namespace Spire

/-! ### Further down -/

/-- The place in the same column a number of lines further down. -/
def Position.down (lines : Nat) (p : Position) : Position :=
  ⟨p.line + lines, p.column⟩

/-- A token a number of lines further down. -/
def Token.down (lines : Nat) (t : Token) : Token :=
  { t with position := t.position.down lines }

/-- A transcript with all tokens a number of lines further down. -/
def Transcript.down (lines : Nat) (ts : Transcript) : Transcript :=
  ts.map (Token.down lines)

section Down

variable {lines : Nat} {p : Position} {t : Token} {ts us : Transcript}

theorem Position.next_down (c : Char) : (p.down lines).next c = (p.next c).down lines := by
  by_cases newline : c = '\n'
  · simp [next, down, newline, Nat.add_right_comm]
  · simp [next, down, newline]

theorem Position.advance_down (text : List Char) :
    (p.down lines).advance text = (p.advance text).down lines := by
  induction text generalizing p with
  | nil => rfl
  | cons c text ih => rw [advance_cons, advance_cons, next_down, ih]

/-- A line end leads to the start of the line below. -/
theorem Position.next_newline : p.next '\n' = ({} : Position).down p.line := by
  simp [next, down, Nat.add_comm]

@[simp] theorem Token.kind_down : (t.down lines).kind = t.kind := rfl

@[simp] theorem Token.raw_down : (t.down lines).raw = t.raw := rfl

theorem Transcript.down_append : (ts ++ us).down lines = ts.down lines ++ us.down lines :=
  map_append (Token.down lines)

end Down

/-! ### Texts that start further down -/

namespace OperatorRun

variable {isOperator : Char → Bool} {lines : Nat}

theorem read_down (p : Position) (run : List Char) :
    read (p.down lines) run = (read p run).down lines := by
  induction run generalizing p with
  | nil => rfl
  | cons c rest ih =>
    rw [read, read]
    split
    · rfl
    split
    · have others : read ((p.down lines).right 1) rest = (read (p.right 1) rest).down lines :=
        ih (p.right 1)
      rw [others]
      rfl
    · rfl

theorem readAll_down (p : Position) (runs : List (List Char)) :
    readAll isOperator (p.down lines) runs = (readAll isOperator p runs).down lines := by
  induction runs generalizing p with
  | nil => rfl
  | cons run others ih =>
    have behind : readAll isOperator ((p.down lines).right run.length) others =
        (readAll isOperator (p.right run.length) others).down lines := ih (p.right run.length)
    rw [readAll, readAll, behind, Transcript.down_append]
    congr 1
    split
    · exact read_down p run
    · rfl

/-- The pieces of a token move with it. -/
theorem pieces_down (t : Token) :
    pieces isOperator (t.down lines) = (pieces isOperator t).down lines := by
  by_cases unknown : t.kind = .unknown
  · have alsoUnknown : (t.down lines).kind = .unknown := unknown
    rw [pieces_of_unknown unknown, pieces_of_unknown alsoUnknown]
    exact readAll_down t.position _
  · have alsoKnown : (t.down lines).kind ≠ .unknown := unknown
    rw [pieces_of_not_unknown unknown, pieces_of_not_unknown alsoKnown]
    rfl

end OperatorRun

namespace Segment

variable {isOperator : Char → Bool} {lines : Nat} {p : Position} {text more : List Char}

/-- The segments of a text that starts further down. -/
theorem cut_down (p : Position) (text : List Char) :
    cut (p.down lines) text = (cut p text).map (Token.down lines) := by
  fun_induction cut p text with
  | case1 p => rw [cut_nil, List.map_nil]
  | case2 p c rest ih =>
    rw [cut_cons, Position.advance_down, ih]
    rfl

/-- The tokens of a text that starts further down. -/
theorem pieces_down (p : Position) (text : List Char) :
    pieces isOperator (p.down lines) text = (pieces isOperator p text).down lines := by
  have each : ∀ t, OperatorRun.pieces isOperator (Token.down lines t) =
      (OperatorRun.pieces isOperator t).down lines := OperatorRun.pieces_down
  rw [pieces, pieces, cut_down, Transcript.down, Transcript.map_flatMap]
  simp only [Transcript.flatMap, List.foldr_map, each]
  rfl

/-- A line end is a segment of its own, and the text behind it starts further down. -/
theorem cut_newline (p : Position) (more : List Char) :
    cut p ('\n' :: more) =
      ⟨.newline, "\n", p⟩ :: (cut {} more).map (Token.down p.line) := by
  have lineEnd : Shaped .newline ['\n'] (.ofText more) := rfl
  have first : cut p (['\n'] ++ more) =
      ⟨.newline, String.ofList ['\n'], p⟩ :: cut (p.advance ['\n']) more := cut_append p lineEnd
  have below : p.advance ['\n'] = ({} : Position).down p.line := Position.next_newline
  rw [below, cut_down] at first
  exact first

/-- The pieces of two texts with a line end between them. -/
theorem pieces_append_newline (closed : ∀ t ∈ (cut p text).getLast?, ¬ Unterminated t) :
    pieces isOperator p (text ++ '\n' :: more) =
      pieces isOperator p text ++ ((⟨[⟨.newline, "\n", p.advance text⟩], none⟩ : Transcript) ++
        (pieces isOperator {} more).down (p.advance text).line) := by
  rw [pieces, cut_append_newline closed, Transcript.flatMap_append, cut_newline, ← cut_down,
    ← pieces_down]
  rfl

end Segment

/-! ### The stages of the lexer -/

namespace Lexer

variable {lines : Nat}

/-- Naming a word does not look at its place. -/
theorem classify_down (t : Token) : classify (t.down lines) = (classify t).down lines := by
  by_cases unknown : t.kind = .unknown
  · simp [classify, unknown, Token.down]
  · simp [classify, unknown]

theorem map_classify_down (ts : Transcript) :
    (ts.down lines).map classify = (ts.map classify).down lines := by
  simp only [Transcript.down, Transcript.map, List.map_map]
  congr 2
  exact funext classify_down

/-- What is dropped as noise does not depend on its place. -/
theorem filter_isContent_down (ts : Transcript) :
    (ts.down lines).filter isContent = (ts.filter isContent).down lines := by
  have sameTest : isContent ∘ Token.down lines = isContent := funext fun _ => rfl
  simp only [Transcript.down, Transcript.filter, Transcript.map, List.filter_map, sameTest]

/-- What a stage makes of a line end: all stages but the last keep it. -/
def Stage.lineEnd (p : Position) : Stage → Transcript
  | .content => {}
  | _ => ⟨[⟨.newline, "\n", p⟩], none⟩

/-- Whatever works on transcripts piece by piece and does not look at places starts anew behind a
line end. -/
theorem apply_pieces_newline {lexer : Lexer} {first second : List Char}
    {h : Transcript → Transcript} (goes : ∀ a b, h (a ++ b) = h a ++ h b)
    (moves : ∀ lines ts, h (ts.down lines) = (h ts).down lines)
    (closed : ∀ t ∈ (Segment.cut {} first).getLast?, ¬ Segment.Unterminated t) :
    h (Segment.pieces lexer.isOperator {} (first ++ '\n' :: second)) =
      h (Segment.pieces lexer.isOperator {} first) ++
        (h ⟨[⟨.newline, "\n", Position.behind first⟩], none⟩ ++
          (h (Segment.pieces lexer.isOperator {} second)).down (Position.behind first).line) := by
  rw [Segment.pieces_append_newline closed, goes, goes, moves, Position.advance_eq_behind]

/-- **Lines.** Every stage of every lexer starts anew behind a line end, unless the line end falls
into a string. Nothing comes behind a fault in front of it. -/
theorem stream_append_newline (lexer : Lexer) (first second : String) (stage : Stage)
    (closed : ∀ t ∈ (Segment.cut {} first.toList).getLast?, ¬ Segment.Unterminated t) :
    (lexer.stream (first ++ "\n" ++ second) stage).transcript =
      (lexer.stream first stage).transcript ++
        (stage.lineEnd (Position.behind first.toList) ++
          (lexer.stream second stage).transcript.down (Position.behind first.toList).line) := by
  have joined : (first ++ "\n" ++ second).toList = first.toList ++ '\n' :: second.toList := by
    simp
  simp only [transcript_stream, Stage.run, joined]
  cases stage with
  | segments =>
    rw [Segment.cut_append_newline closed, Segment.cut_newline, Position.advance_eq_behind]
    rfl
  | operators => exact apply_pieces_newline (h := id) (fun _ _ => rfl) (fun _ _ => rfl) closed
  | words =>
    exact apply_pieces_newline (fun _ _ => Transcript.map_append classify)
      (fun _ => map_classify_down) closed
  | content =>
    refine apply_pieces_newline (h := fun ts => (ts.map classify).filter isContent) ?_ ?_ closed
    · intro a b
      rw [Transcript.map_append, Transcript.filter_append]
    · intro lines ts
      rw [map_classify_down, filter_isContent_down]

theorem Stage.fault?_lineEnd (p : Position) (stage : Stage) :
    (stage.lineEnd p).fault? = none := by
  cases stage <;> rfl

/-- Where no source has a fault, the tokens are simply one list after the other. -/
theorem stream_newline_of_no_fault {lexer : Lexer} {first second : String} {stage : Stage}
    (noFault : ∀ source, (lexer.stream source stage).transcript.fault? = none)
    (closed : ∀ t ∈ (Segment.cut {} first.toList).getLast?, ¬ Segment.Unterminated t) :
    (lexer.stream (first ++ "\n" ++ second) stage).transcript =
      ⟨(lexer.stream first stage).transcript.tokens ++
        ((stage.lineEnd (Position.behind first.toList)).tokens ++
          (lexer.stream second stage).transcript.tokens.map
            (Token.down (Position.behind first.toList).line)), none⟩ := by
  rw [stream_append_newline lexer first second stage closed,
    Transcript.append_of_fault?_eq_none (noFault first),
    Transcript.append_of_fault?_eq_none (stage.fault?_lineEnd _), Transcript.down, Transcript.map,
    noFault second]

/-- **Two texts with a line end between them.** If the first one does not end in a string that is
still open, its tokens are followed by the line end, which stands right behind it, and by the
tokens of the second text, each as many lines further down as the first text and the line end
open, in the same column. The same holds of segments and, but for the line end, of the tokens
without noise. -/
theorem newline_resynchronises (first second : String)
    (closed : ∀ t ∈ (({} : Lexer).stream first .segments).transcript.tokens.getLast?,
      ¬ Segment.Unterminated t) :
    (({} : Lexer).tokens (first ++ "\n" ++ second) true).transcript =
        ⟨(({} : Lexer).tokens first true).transcript.tokens ++
          ⟨.newline, "\n", Position.behind first.toList⟩ ::
            (({} : Lexer).tokens second true).transcript.tokens.map
              (Token.down (1 + first.toList.count '\n')), none⟩ ∧
      (({} : Lexer).stream (first ++ "\n" ++ second) .segments).transcript =
        ⟨(({} : Lexer).stream first .segments).transcript.tokens ++
          ⟨.newline, "\n", Position.behind first.toList⟩ ::
            (({} : Lexer).stream second .segments).transcript.tokens.map
              (Token.down (1 + first.toList.count '\n')), none⟩ ∧
      (({} : Lexer).tokens (first ++ "\n" ++ second) false).transcript =
        ⟨(({} : Lexer).tokens first false).transcript.tokens ++
          (({} : Lexer).tokens second false).transcript.tokens.map
            (Token.down (1 + first.toList.count '\n')), none⟩ := by
  rw [transcript_stream] at closed
  have segments (source : String) :
      (({} : Lexer).stream source .segments).transcript.fault? = none := by
    rw [transcript_stream]
    rfl
  have words (source : String) : (({} : Lexer).stream source .words).transcript.fault? = none :=
    fault?_tokens source true
  have content (source : String) :
      (({} : Lexer).stream source .content).transcript.fault? = none :=
    fault?_tokens source false
  exact ⟨stream_newline_of_no_fault words closed, stream_newline_of_no_fault segments closed,
    stream_newline_of_no_fault content closed⟩

/-- The first text ends in a slash and the second one begins with one, but no comment arises; the
quote behind it belongs to a name. The string that the first text does close may have a line end
inside, which counts. -/
theorem newline_resynchronises_between_slashes :
    (∀ t ∈ (({} : Lexer).stream "\"a\n\"x/" .segments).transcript.tokens.getLast?,
      ¬ Segment.Unterminated t) ∧
    (({} : Lexer).tokens ("\"a\n\"x/" ++ "\n" ++ "/y\"") true).transcript =
      ⟨[⟨.string, "\"a\n\"", ⟨1, 1⟩⟩, ⟨.name, "x", ⟨2, 2⟩⟩, ⟨.div, "/", ⟨2, 3⟩⟩,
        ⟨.newline, "\n", ⟨2, 4⟩⟩, ⟨.div, "/", ⟨3, 1⟩⟩, ⟨.name, "y\"", ⟨3, 2⟩⟩], none⟩ := by
  have closed : ∀ t ∈ (({} : Lexer).stream "\"a\n\"x/" .segments).transcript.tokens.getLast?,
      ¬ Segment.Unterminated t := by
    have last : (({} : Lexer).stream "\"a\n\"x/" .segments).transcript.tokens.getLast? =
        some ⟨.unknown, "x/", ⟨2, 2⟩⟩ := by
      decide +kernel
    rw [last]
    rintro t ⟨⟩ ⟨isString, -⟩
    cases isString
  refine ⟨closed, (newline_resynchronises _ _ closed).1.trans ?_⟩
  decide +kernel

end Lexer

end Spire
