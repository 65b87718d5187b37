import Spire.Proofs.Parser.Places

/-!
# Layout

Blanks, line ends and comments may be replaced by others without any effect on what a source
means. The replacements happen between the segments of a source, all at once, and what is put
there need not be cut into segments like what it replaces. As long as it begins with a separator,
the segments around it are the same as before.

## Main definitions

* `Layout` — texts that have no content
* `Layout.Fits` — layouts that may stand at a given place of a source
* `Layout.Relaid` — texts that come of segments by putting a layout for each run of noise
* `Outcome.Alike` — outcomes of parsing that show the same apart from places

## Main results

* `Layout.content_append` — a layout has no effect on the content of what is behind it
* `Layout.content_of_relaid` — replacing layout keeps the content
* `Layout.relayout_keeps_meaning` — replacing layout keeps tokens, trees and errors
-/

namespace Spire

/-- Blanks, line ends and comments. A comment is ended by a line end, or else by the end of the
source, where the layout may be the last thing there is. -/
inductive Layout (last : Bool) : List Char → Prop where
  | nil : Layout last []
  | separator {c : Char} {rest : List Char} (separates : isSeparator c = true)
      (others : Layout last rest) : Layout last (c :: rest)
  | comment {body rest : List Char} (oneLine : '\n' ∉ body) (others : Layout last rest) :
      Layout last ('/' :: '/' :: body ++ '\n' :: rest)
  | ending {body : List Char} (isLast : last = true) (oneLine : '\n' ∉ body) :
      Layout last ('/' :: '/' :: body)

namespace Layout

/-- The layouts for a place in a source where segments stand in front of it and behind it, or
it is the first or the last one. Between segments there has to be a separator. -/
structure Fits (first last : Bool) (gap : List Char) : Prop where
  layout : Layout last gap
  nonempty : gap = [] → first = true ∨ last = true
  separates : first = false → ∀ c ∈ gap.head?, isSeparator c = true

/-- The texts that come of segments by replacing each maximal run of noise. The flag tells
whether these are the first segments of a source. -/
inductive Relaid : Bool → List Token → List Char → Prop where
  | done {first : Bool} : Relaid first [] []
  | keep {first : Bool} {t : Token} {ts : List Token} {text : List Char}
      (content : t.kind.isNoise = false) (others : Relaid false ts text) :
      Relaid first (t :: ts) (t.raw.toList ++ text)
  | replace {first : Bool} {run ts : List Token} {gap text : List Char} (nonempty : run ≠ [])
      (noise : ∀ t ∈ run, t.kind.isNoise = true)
      (maximal : ∀ t ∈ ts.head?, t.kind.isNoise = false)
      (fits : Fits first ts.isEmpty gap) (others : Relaid false ts text) :
      Relaid first (run ++ ts) (gap ++ text)

variable {lexer : Lexer} {first last : Bool} {kind : Token.Kind} {raw gap text : List Char}
  {ts us : List Token}

open Segment

/-! ### Layout has no content -/

/-- A layout has no effect on the content of what is behind it. -/
theorem content_append (layout : Layout last gap) (closes : last = true → text = []) :
    lexer.content (gap ++ text) = lexer.content text := by
  induction layout with
  | nil => rfl
  | separator separates others ih =>
    rw [List.cons_append, Lexer.content_separator separates, ih]
  | @comment body rest oneLine others ih =>
    have lineEnd : isSeparator '\n' = true := rfl
    have shaped : Shaped .comment ('/' :: '/' :: body) (.ofText ('\n' :: (rest ++ text))) := by
      refine ⟨⟨body, rfl⟩, ?_, .inr rfl⟩
      simpa using oneLine
    rw [List.append_assoc]
    exact (Lexer.content_append_of_noise shaped rfl).trans
      ((Lexer.content_separator lineEnd).trans ih)
  | @ending body isLast oneLine =>
    have shaped : Shaped .comment ('/' :: '/' :: body) (.ofText []) := by
      refine ⟨⟨body, rfl⟩, ?_, .inl rfl⟩
      simpa using oneLine
    rw [closes isLast, Lexer.content_append_of_noise shaped rfl]

/-- Noise among the segments has no content. -/
theorem flatMap_contentOf_of_noise (noise : ∀ t ∈ ts, t.kind.isNoise = true) :
    Transcript.flatMap lexer.contentOf ⟨ts ++ us, none⟩ =
      Transcript.flatMap lexer.contentOf ⟨us, none⟩ := by
  induction ts with
  | nil => rfl
  | cons t ts ih =>
    have others := ih fun u member => noise u (List.mem_cons_of_mem _ member)
    have whole : Transcript.flatMap lexer.contentOf ⟨t :: ts ++ us, none⟩ =
        lexer.contentOf t ++ Transcript.flatMap lexer.contentOf ⟨ts ++ us, none⟩ := rfl
    rw [whole, Lexer.contentOf_of_noise (noise t (List.mem_cons_self ..)), others]
    exact Transcript.nil_append

/-! ### The segments around a layout -/

theorem wellFormed_of_append (wellFormed : WellFormed (ts ++ us)) : WellFormed us := by
  induction ts with
  | nil => exact wellFormed
  | cons t ts ih => exact ih wellFormed.2

theorem Relaid.eq_nil (relaid : Relaid first ts text) (empty : ts = []) : text = [] := by
  cases relaid with
  | done => rfl
  | keep => cases empty
  | replace nonempty => exact absurd (List.append_eq_nil_iff.mp empty).1 nonempty

/-- A segment that is no noise keeps its shape when the layout behind it is replaced. -/
theorem Relaid.shaped (relaid : Relaid false ts text) (wellFormed : WellFormed ts)
    (content : kind.isNoise = false) (shaped : Shaped kind raw (.ofSegments ts)) :
    Shaped kind raw (.ofText text) := by
  cases relaid with
  | done => exact shaped
  | @keep _ t ts text isContent others =>
    rwa [wellFormed.1.ofText_append (p := t.position)]
  | @replace _ run ts gap text nonempty noise maximal fits others =>
    cases gap with
    | nil =>
      have isLast : ts.isEmpty = true := (fits.nonempty rfl).resolve_left Bool.false_ne_true
      rw [others.eq_nil (List.isEmpty_iff.mp isLast)]
      exact shaped.ending
    | cons c gap =>
      have separates : isSeparator c = true := fits.separates rfl c rfl
      have notOther : Boundary.ofText (c :: gap ++ text) ≠ .other := by
        rw [Boundary.ofText_ne_other_iff]
        rintro d ⟨⟩
        exact separates
      obtain ⟨t, run, rfl⟩ := List.exists_cons_of_ne_nil nonempty
      have notEnding : Boundary.ofSegments (t :: run ++ ts) ≠ .ending := by
        rw [wellFormed.ofSegments_eq, ne_eq, Boundary.ofText_eq_ending_iff, List.cons_append,
          Token.text_cons]
        exact List.append_ne_nil_of_left_ne_nil wellFormed.1.ne_nil _
      -- Only strings and words are left: a string here is closed, and a word may end here.
      cases kind
      case string =>
        obtain ⟨quote, closed | ⟨-, ends⟩⟩ := shaped
        · exact ⟨quote, .inl closed⟩
        · exact absurd ends notEnding
      case unknown =>
        obtain ⟨some, solid, notQuote, notComment, -⟩ := shaped
        exact ⟨some, solid, notQuote, notComment, notOther⟩
      case newline | space | comment => cases content
      all_goals cases shaped

/-- Replacing layout keeps the content. -/
theorem content_of_relaid (relaid : Relaid first ts text) (wellFormed : WellFormed ts) :
    lexer.content text = Transcript.flatMap lexer.contentOf ⟨ts, none⟩ := by
  induction relaid with
  | done => exact Lexer.content_nil
  | @keep first t ts text isContent others ih =>
    have shaped := others.shaped wellFormed.2 isContent wellFormed.1
    rw [Lexer.content_append shaped, ih wellFormed.2, String.ofList_toList]
    have samePlace : lexer.contentOf ⟨t.kind, t.raw, {}⟩ = lexer.contentOf t :=
      Lexer.contentOf_unplaced lexer t
    rw [samePlace]
    rfl
  | @replace first run ts gap text nonempty noise maximal fits others ih =>
    have closes : ts.isEmpty = true → text = [] := by
      intro isLast
      exact others.eq_nil (List.isEmpty_iff.mp isLast)
    rw [content_append fits.layout closes, ih (wellFormed_of_append wellFormed),
      flatMap_contentOf_of_noise noise]

end Layout

/-! ### Outcomes -/

/-- Outcomes of parsing that show the same apart from places: trees with the same drawings and
the same JSON value, or errors of the same sort about tokens of the same kind and text, whose
messages differ in the place that they name. -/
inductive Outcome.Alike : Outcome → Outcome → Prop where
  | trees {a b : Tree} (drawing : ∀ indent, a.draw indent = b.draw indent)
      (json : a.toJson = b.toJson) : Alike (.ok a) (.ok b)
  | errors {d e : ParseError} (sameSort : d.unplaced = e.unplaced)
      (token : d.token?.map Token.unplaced = e.token?.map Token.unplaced)
      (message : ∃ complaint,
        d.message = "Parse error at " ++ ParseError.place d.token? ++ ": " ++ complaint ∧
          e.message = "Parse error at " ++ ParseError.place e.token? ++ ": " ++ complaint) :
      Alike (.error (.parse d)) (.error (.parse e))

/-- Trees that differ in places only look alike, and so do errors. -/
theorem Outcome.alike_of_unplaced {a b : Outcome} (same : a.unplaced = b.unplaced)
    (noFault : ∀ fault, a ≠ .error (.lex fault)) : Alike a b := by
  rcases a with (d | fault) | s
  · rcases b with (e | fault) | t
    · have sameSort : d.unplaced = e.unplaced := by
        simpa [unplaced, Except.map, Except.mapError, Failure.unplaced] using same
      have complaint : d.complaint = e.complaint := by
        rw [← d.complaint_unplaced, sameSort, e.complaint_unplaced]
      refine .errors sameSort ?_ ⟨d.complaint, rfl, ?_⟩
      · rw [← d.token?_unplaced, sameSort, e.token?_unplaced]
      · rw [complaint]
        rfl
    · simp [unplaced, Except.map, Except.mapError, Failure.unplaced] at same
    · cases same
  · exact absurd rfl (noFault fault)
  · rcases b with e | t
    · cases same
    · have sameTree : s.unplaced = t.unplaced := Except.ok.inj same
      refine .trees ?_ ?_
      · intro indent
        rw [← s.draw_unplaced, sameTree, t.draw_unplaced]
      · rw [← s.toJson_unplaced, sameTree, t.toJson_unplaced]

/-- The lexer has no fault to report where a source is parsed. -/
theorem parse_ne_lex (source : String) (tracing : Bool) (fault : LexFault) :
    (parse source tracing).outcome ≠ .error (.lex fault) := by
  intro stopped
  rw [parse_outcome] at stopped
  generalize (({} : Lexer).tokens source).transcript.tokens = ts at stopped
  cases reached : (Reading.verdict none {} ts).outcome with
  | ok program =>
    rw [reached] at stopped
    cases stopped
  | error failure =>
    rw [reached] at stopped
    cases stopped
    exact Reading.verdict_ne_lex _ _ fault reached

/-- Sources of the same content have outcomes that look alike. -/
theorem parse_alike_of_content {s t : String}
    (same : ({} : Lexer).content s.toList = ({} : Lexer).content t.toList) (tracing : Bool) :
    Outcome.Alike (parse s tracing).outcome (parse t tracing).outcome := by
  refine Outcome.alike_of_unplaced ?_ (parse_ne_lex s tracing)
  rw [unplaced_parse, unplaced_parse, same]

namespace Layout

/-- **Layout means nothing.** A source and one that comes of it by replacing layout have the
same tokens apart from places, and parsing them gives trees that look the same, or errors that
say the same of different places. -/
theorem relayout_keeps_meaning (source relaid : String)
    (relays : Relaid true (Lexer.segments source).transcript.tokens relaid.toList) :
    (∀ lexer : Lexer,
      (lexer.tokens relaid).transcript.unplaced = (lexer.tokens source).transcript.unplaced) ∧
      ∀ tracing, Outcome.Alike (parse relaid tracing).outcome (parse source tracing).outcome := by
  have segments : (Lexer.segments source).transcript.tokens = Segment.cut {} source.toList := by
    rw [Lexer.segments, Segment.transcript_stream]
  rw [segments] at relays
  have sameContent (lexer : Lexer) : lexer.content relaid.toList = lexer.content source.toList :=
    content_of_relaid relays (Segment.wellFormed_cut {} source.toList)
  constructor
  · intro lexer
    rw [Lexer.unplaced_tokens, Lexer.unplaced_tokens, sameContent]
  · intro tracing
    exact parse_alike_of_content (sameContent {}) tracing

/-- The comment in front is dropped, and the one right behind the string, which becomes another
one with a quote in it, is moved away from the string. -/
theorem relayout_of_comments :
    Relaid true (Lexer.segments "//x\n\"a\"//b\nc").transcript.tokens "\"a\" //\"\nc".toList ∧
      (∀ lexer : Lexer, (lexer.tokens "\"a\" //\"\nc").transcript.unplaced =
        (lexer.tokens "//x\n\"a\"//b\nc").transcript.unplaced) ∧
      ∀ tracing, Outcome.Alike (parse "\"a\" //\"\nc" tracing).outcome
        (parse "//x\n\"a\"//b\nc" tracing).outcome := by
  have segments : (Lexer.segments "//x\n\"a\"//b\nc").transcript.tokens =
      [⟨.comment, "//x", ⟨1, 1⟩⟩, ⟨.newline, "\n", ⟨1, 4⟩⟩] ++ (⟨.string, "\"a\"", ⟨2, 1⟩⟩ ::
        ([⟨.comment, "//b", ⟨2, 4⟩⟩, ⟨.newline, "\n", ⟨2, 7⟩⟩] ++ [⟨.unknown, "c", ⟨3, 1⟩⟩])) := by
    cbv
  have relays : Relaid true (Lexer.segments "//x\n\"a\"//b\nc").transcript.tokens
      "\"a\" //\"\nc".toList := by
    have text : "\"a\" //\"\nc".toList =
        [] ++ ("\"a\"".toList ++ (" //\"\n".toList ++ ("c".toList ++ []))) := by
      decide
    have comment : Layout false ('/' :: '/' :: ['"'] ++ '\n' :: []) := .comment (by decide) .nil
    have gap : Layout false " //\"\n".toList := .separator rfl comment
    refine (congrArg₂ (Relaid true) segments text).mpr ?_
    refine .replace (by decide) (by decide) (by decide) ⟨.nil, fun _ => .inl rfl, ?_⟩ ?_
    · simp
    refine .keep rfl (.replace (by decide) (by decide) (by decide) ⟨gap, ?_, ?_⟩ ?_)
    · simp
    · intro _ c blank
      obtain rfl : ' ' = c := by simpa using blank
      rfl
    · exact .keep rfl .done
  exact ⟨relays, relayout_keeps_meaning _ _ relays⟩

end Layout

end Spire
