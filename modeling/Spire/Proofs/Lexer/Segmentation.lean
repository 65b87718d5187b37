import Spire.Proofs.Unplaced
import Mathlib.Data.List.TakeWhile

/-!
# The grammar of segments

Which lists of tokens are the segments of some text can be said token by token: each kind has
its shape, and some kinds restrict what may stand behind them. A text determines its segments
and well-formed segments determine their text, so that cutting texts and joining segments
undo each other.

What stands behind a segment can be told from the text there as well as from the segments
there. The first tells where a text is cut, the second is the grammar; that both agree is what
makes the two directions meet.

## Main definitions

* `Segment.Boundary` — what stands behind a segment, as far as segments depend on it
* `Segment.Shaped` — the shape of a segment in front of a boundary
* `Segment.WellFormed` — segments that have their shapes

## Main results

* `Segment.shaped_first`, `Segment.first_eq` — the first segment of a text is the one that has
  a shape
* `Segment.cut_append_newline` — a line end behind a text starts new segments
* `Segment.segments_biject` — the segments of texts are the well-formed ones
-/

namespace Spire.Segment

/-! ### What stands behind a segment -/

/-- What stands behind a segment: nothing, a line end, a blank, or anything else. -/
inductive Boundary where
  | ending
  | newline
  | blank
  | other
deriving DecidableEq, Repr

namespace Boundary

/-- What a text begins with. -/
def ofText : List Char → Boundary
  | [] => ending
  | c :: _ => if c = '\n' then newline else if isBlank c then blank else other

/-- What segments begin with. -/
def ofSegments : List Token → Boundary
  | [] => ending
  | t :: _ =>
    match t.kind with
    | .newline => newline
    | .space => blank
    | _ => other

variable {text rest : List Char}

theorem ofText_eq_ending_iff : ofText text = ending ↔ text = [] := by
  cases text with
  | nil => simp [ofText]
  | cons c rest =>
    simp only [ofText]
    split
    · simp
    split
    · simp
    · simp

theorem ofText_ne_blank_iff : ofText text ≠ blank ↔ ∀ c ∈ text.head?, isBlank c = false := by
  cases text with
  | nil => simp [ofText]
  | cons c rest =>
    by_cases newline : c = '\n'
    · subst newline
      simp [ofText, isBlank]
    · by_cases gap : isBlank c
      · simp [ofText, newline, gap]
      · simp [ofText, newline, gap]

theorem ofText_ends_line_iff :
    (ofText text = ending ∨ ofText text = newline) ↔ ∀ c ∈ text.head?, c = '\n' := by
  cases text with
  | nil => simp [ofText]
  | cons c rest =>
    by_cases newline : c = '\n'
    · simp [ofText, newline]
    · by_cases gap : isBlank c
      · simp [ofText, newline, gap]
      · simp [ofText, newline, gap]

theorem ofText_ne_other_iff : ofText text ≠ other ↔ ∀ c ∈ text.head?, isSeparator c = true := by
  cases text with
  | nil => simp [ofText]
  | cons c rest =>
    by_cases newline : c = '\n'
    · simp [ofText, newline, isSeparator]
    · by_cases gap : isBlank c
      · simp [ofText, newline, gap, isSeparator]
      · simp [ofText, newline, gap, isSeparator]

/-- The beginning of a text begins like the text, unless it is empty. -/
theorem ofText_of_prefix (begins : text <+: rest) :
    ofText text = ending ∨ ofText text = ofText rest := by
  obtain ⟨more, rfl⟩ := begins
  cases text with
  | nil => exact .inl rfl
  | cons c text => exact .inr rfl

end Boundary

/-! ### Shapes -/

/-- The shape of a segment with the given kind and text. A comment runs to the end of its line,
a string without a closing quote to the end of the text, blanks and runs of anything else as
far as they can. -/
def Shaped (kind : Token.Kind) (text : List Char) (behind : Boundary) : Prop :=
  match kind with
  | .newline => text = ['\n']
  | .space => text ≠ [] ∧ (∀ c ∈ text, isBlank c = true) ∧ behind ≠ .blank
  | .comment => ['/', '/'] <+: text ∧ '\n' ∉ text ∧ (behind = .ending ∨ behind = .newline)
  | .string => ['"'] <+: text ∧ (text.count '"' = 2 ∧ text.getLast? = some '"' ∨
      text.count '"' = 1 ∧ behind = .ending)
  | .unknown => text ≠ [] ∧ (∀ c ∈ text, isSeparator c = false) ∧ ¬ ['"'] <+: text ∧
      ¬ ['/', '/'] <+: text ∧ behind ≠ .other
  | _ => False

instance (kind : Token.Kind) (text : List Char) (behind : Boundary) :
    Decidable (Shaped kind text behind) := by
  have overText (test : Char → Bool) (value : Bool) : Decidable (∀ c ∈ text, test c = value) :=
    List.decidableBAll _ text
  cases kind <;> dsimp only [Shaped] <;> infer_instance

/-- Segments of which each has a shape in front of those behind it. -/
def WellFormed : List Token → Prop
  | [] => True
  | t :: ts => Shaped t.kind t.raw.toList (.ofSegments ts) ∧ WellFormed ts

instance WellFormed.decidable : (ts : List Token) → Decidable (WellFormed ts)
  | [] => .isTrue trivial
  | t :: ts =>
    have := WellFormed.decidable ts
    inferInstanceAs (Decidable (Shaped t.kind t.raw.toList (.ofSegments ts) ∧ WellFormed ts))

/-- A string that lacks its closing quote. -/
def Unterminated (t : Token) : Prop :=
  t.kind = .string ∧ t.raw.toList.count '"' = 1

variable {kind : Token.Kind} {text rest more : List Char} {c : Char} {behind : Boundary}
  {p : Position} {t : Token} {ts : List Token}

/-- A string is closed by its second quote, or it has no second quote and ends the text. -/
theorem shaped_string_iff :
    Shaped .string text behind ↔ ∃ body, '"' ∉ body ∧
      (text = '"' :: (body ++ ['"']) ∨ text = '"' :: body ∧ behind = .ending) := by
  constructor
  · rintro ⟨⟨tail, rfl⟩, ⟨two, last⟩ | ⟨one, ends⟩⟩
    · rw [List.singleton_append, List.count_cons_self] at two
      rcases List.eq_nil_or_concat tail with rfl | ⟨body, d, rfl⟩
      · cases two
      · rw [List.concat_eq_append] at two last ⊢
        rw [List.singleton_append, List.getLast?_cons, List.getLast?_concat] at last
        obtain rfl : d = '"' := by simpa using last
        refine ⟨body, ?_, .inl rfl⟩
        rw [← List.count_eq_zero]
        simpa using two
    · rw [List.singleton_append, List.count_cons_self] at one
      exact ⟨tail, List.count_eq_zero.mp (by omega), .inr ⟨rfl, ends⟩⟩
  · rintro ⟨body, unquoted, rfl | ⟨rfl, ends⟩⟩
    · refine ⟨List.prefix_append ['"'] _, .inl ⟨?_, ?_⟩⟩
      · simp [List.count_eq_zero_of_not_mem unquoted]
      · rw [List.getLast?_cons, List.getLast?_concat]
        rfl
    · refine ⟨List.prefix_append ['"'] _, .inr ⟨?_, ends⟩⟩
      simp [List.count_eq_zero_of_not_mem unquoted]

theorem Shaped.ne_nil (shaped : Shaped kind text behind) : text ≠ [] := by
  cases kind
  case newline =>
    cases shaped
    exact List.cons_ne_nil _ _
  case comment | string =>
    obtain ⟨⟨body, rfl⟩, -⟩ := shaped
    exact List.cons_ne_nil _ _
  case space | unknown => exact shaped.1
  all_goals cases shaped

/-- A run of anything else has no line end in it. -/
theorem Shaped.oneLine (shaped : Shaped .unknown text behind) : '\n' ∉ text := by
  intro member
  exact absurd (shaped.2.1 '\n' member) (by decide)

/-- Every segment may stand at the end of a text. -/
theorem Shaped.ending (shaped : Shaped kind text behind) : Shaped kind text .ending := by
  cases kind
  case newline => exact shaped
  case comment => exact ⟨shaped.1, shaped.2.1, .inl rfl⟩
  case space => exact ⟨shaped.1, shaped.2.1, nofun⟩
  case string =>
    obtain ⟨quote, closed | ⟨one, -⟩⟩ := shaped
    · exact ⟨quote, .inl closed⟩
    · exact ⟨quote, .inr ⟨one, rfl⟩⟩
  case unknown =>
    obtain ⟨nonempty, solid, notQuote, notComment, -⟩ := shaped
    exact ⟨nonempty, solid, notQuote, notComment, nofun⟩
  all_goals cases shaped

/-- Every segment but an unterminated string may stand in front of a line end. -/
theorem Shaped.newline (shaped : Shaped kind text behind)
    (closed : ¬ (kind = .string ∧ text.count '"' = 1)) : Shaped kind text .newline := by
  cases kind
  case newline => exact shaped
  case comment => exact ⟨shaped.1, shaped.2.1, .inr rfl⟩
  case space => exact ⟨shaped.1, shaped.2.1, nofun⟩
  case string =>
    obtain ⟨quote, isClosed | ⟨one, -⟩⟩ := shaped
    · exact ⟨quote, .inl isClosed⟩
    · exact absurd ⟨rfl, one⟩ closed
  case unknown =>
    obtain ⟨nonempty, solid, notQuote, notComment, -⟩ := shaped
    exact ⟨nonempty, solid, notQuote, notComment, nofun⟩
  all_goals cases shaped

/-- A text begins with a line end or a blank when its first segment is one. -/
theorem Shaped.ofText_append (shaped : Shaped kind text behind) :
    Boundary.ofText (text ++ rest) = .ofSegments [⟨kind, String.ofList text, p⟩] := by
  obtain ⟨c, text, rfl⟩ := List.exists_cons_of_ne_nil shaped.ne_nil
  cases kind
  case newline =>
    cases shaped
    rfl
  case comment | string =>
    obtain ⟨⟨body, same⟩, -⟩ := shaped
    cases same
    rfl
  case space =>
    have gap : isBlank c = true := shaped.2.1 c (List.mem_cons_self ..)
    have inLine : c ≠ '\n' := by
      rintro rfl
      cases gap
    simp [Boundary.ofText, Boundary.ofSegments, inLine, gap]
  case unknown =>
    have inside : isSeparator c = false := shaped.2.1 c (List.mem_cons_self ..)
    rw [isSeparator, Bool.or_eq_false_iff, beq_eq_false_iff_ne] at inside
    simp [Boundary.ofText, Boundary.ofSegments, inside.1, inside.2]
  all_goals cases shaped

/-- The boundary in front of well-formed segments is that in front of their text. -/
theorem WellFormed.ofSegments_eq (wellFormed : WellFormed ts) :
    Boundary.ofSegments ts = .ofText (Token.text ts) := by
  cases ts with
  | nil => rfl
  | cons t ts => exact (wellFormed.1.ofText_append (p := t.position)).symm

/-! ### The first segment -/

section First

variable {inside : Char → Bool}

theorem takeWhile_eq (passes : ∀ d ∈ more, inside d = true)
    (stops : ∀ d ∈ rest.head?, inside d = false) :
    takeWhile kind inside c (more ++ rest) = ⟨kind, c :: more, rest⟩ := by
  have nothing : rest.takeWhile inside = [] ∧ rest.dropWhile inside = rest := by
    cases rest with
    | nil => exact ⟨rfl, rfl⟩
    | cons d rest =>
      have stop : inside d = false := stops d rfl
      simp [stop]
  rw [takeWhile, List.takeWhile_append_of_pos passes, List.dropWhile_append_of_pos passes,
    nothing.1, nothing.2, List.append_nil]

theorem bne_quote_of_mem {body : List Char} (unquoted : '"' ∉ body) :
    ∀ d ∈ body, (d != '"') = true := by
  intro d member
  rw [bne_iff_ne]
  rintro rfl
  exact unquoted member

theorem quoted_eq_of_closed (unquoted : '"' ∉ more) :
    quoted (more ++ '"' :: rest) = ⟨.string, '"' :: (more ++ ['"']), rest⟩ := by
  rw [quoted, List.takeWhile_append_of_pos (bne_quote_of_mem unquoted),
    List.dropWhile_append_of_pos (bne_quote_of_mem unquoted)]
  simp

theorem quoted_eq_of_unclosed (unquoted : '"' ∉ more) :
    quoted more = ⟨.string, '"' :: more, []⟩ := by
  have all : more.takeWhile (· != '"') = more :=
    List.takeWhile_eq_self_iff.mpr (bne_quote_of_mem unquoted)
  have none : more.dropWhile (· != '"') = [] :=
    List.dropWhile_eq_nil_iff.mpr (bne_quote_of_mem unquoted)
  simp [quoted, all, none]

/-- Two slashes begin a comment. -/
theorem first_slashes :
    first '/' ('/' :: rest) = takeWhile .comment (· != '\n') '/' ('/' :: rest) := by
  simp [first]

theorem first_blank (gap : isBlank c = true) :
    first c rest = takeWhile .space isBlank c rest := by
  have inLine : c ≠ '\n' := by
    rintro rfl
    cases gap
  have notSlash : c ≠ '/' := by
    rintro rfl
    cases gap
  simp [first, inLine, notSlash, gap]

/-- What is neither a separator nor a quote nor the first of two slashes begins a run. -/
theorem first_run (solid : isSeparator c = false) (notQuote : c ≠ '"')
    (oneSlash : ¬ (c = '/' ∧ rest.head? = some '/')) :
    first c rest = takeWhile .unknown (fun d => !isSeparator d) c rest := by
  rw [isSeparator, Bool.or_eq_false_iff, beq_eq_false_iff_ne] at solid
  rw [first, if_neg solid.2, if_neg oneSlash, if_neg (by simp [solid.1]), if_neg notQuote]

/-- A text that begins with a segment in its shape has this segment first. -/
theorem first_eq (same : text ++ rest = c :: more) (shaped : Shaped kind text (.ofText rest)) :
    first c more = ⟨kind, text, rest⟩ := by
  -- In each case the first character selects the branch, and the boundary stops the scan.
  cases kind
  case newline =>
    cases shaped
    cases same
    rfl
  case comment =>
    obtain ⟨⟨body, rfl⟩, oneLine, stops⟩ := shaped
    rw [Boundary.ofText_ends_line_iff] at stops
    obtain ⟨rfl, rfl⟩ := List.cons.inj same
    have isComment : first '/' ('/' :: body ++ rest) =
        takeWhile .comment (· != '\n') '/' ('/' :: body ++ rest) := first_slashes
    refine isComment.trans (takeWhile_eq ?_ ?_)
    · intro d member
      rw [bne_iff_ne]
      rintro rfl
      exact oneLine (List.mem_cons_of_mem _ member)
    · intro d isNext
      simp [stops d isNext]
  case space =>
    obtain ⟨nonempty, blanks, stops⟩ := shaped
    rw [Boundary.ofText_ne_blank_iff] at stops
    obtain ⟨d, text, rfl⟩ := List.exists_cons_of_ne_nil nonempty
    obtain ⟨rfl, rfl⟩ := List.cons.inj same
    refine (first_blank (blanks d (List.mem_cons_self ..))).trans (takeWhile_eq ?_ stops)
    intro e member
    exact blanks e (List.mem_cons_of_mem _ member)
  case string =>
    obtain ⟨body, unquoted, rfl | ⟨rfl, ends⟩⟩ := shaped_string_iff.mp shaped
    · rw [List.cons_append, List.append_assoc] at same
      obtain ⟨rfl, rfl⟩ := List.cons.inj same
      exact quoted_eq_of_closed unquoted
    · obtain rfl := Boundary.ofText_eq_ending_iff.mp ends
      rw [List.append_nil] at same
      obtain ⟨rfl, rfl⟩ := List.cons.inj same
      exact quoted_eq_of_unclosed unquoted
  case unknown =>
    obtain ⟨nonempty, solid, notQuote, notComment, stops⟩ := shaped
    rw [Boundary.ofText_ne_other_iff] at stops
    obtain ⟨d, text, rfl⟩ := List.exists_cons_of_ne_nil nonempty
    obtain ⟨rfl, rfl⟩ := List.cons.inj same
    have quoteless : d ≠ '"' := by
      rintro rfl
      exact notQuote (List.prefix_append ['"'] text)
    have oneSlash : ¬ (d = '/' ∧ (text ++ rest).head? = some '/') := by
      rintro ⟨rfl, slash⟩
      cases text with
      | nil =>
        exact absurd (stops '/' slash) (by decide)
      | cons e text =>
        cases slash
        exact notComment (List.prefix_append ['/', '/'] text)
    have inside : isSeparator d = false := solid d (List.mem_cons_self ..)
    refine (first_run inside quoteless oneSlash).trans (takeWhile_eq ?_ ?_)
    · intro e member
      simp [solid e (List.mem_cons_of_mem _ member)]
    · intro e isNext
      simp [stops e isNext]
  all_goals cases shaped

theorem passes_of_mem_takeWhile (passes : inside c = true) :
    ∀ d ∈ (takeWhile kind inside c rest).text, inside d = true := by
  intro d member
  rcases List.mem_cons.mp member with rfl | later
  · exact passes
  · exact List.mem_takeWhile_imp later

theorem head?_dropWhile : ∀ d ∈ (rest.dropWhile inside).head?, inside d = false := by
  intro d isNext
  have found : rest.find? (fun e => !inside e) = some d := by
    rw [← isNext]
    simpa using List.find?_not_eq_head?_dropWhile inside rest
  simpa using List.find?_some found

theorem shaped_quoted : Shaped .string (quoted rest).text (.ofText (quoted rest).rest) := by
  refine shaped_string_iff.mpr ⟨rest.takeWhile (· != '"'), ?_, ?_⟩
  · intro member
    simpa using List.mem_takeWhile_imp member
  · cases behind : rest.dropWhile (· != '"') with
    | nil => exact .inr (by simp [quoted, behind, Boundary.ofText])
    | cons d more =>
      have stopped : (d != '"') = false := head?_dropWhile d (by rw [behind]; rfl)
      have isQuote : d = '"' := by simpa using stopped
      exact .inl (by simp [quoted, behind, isQuote])

/-- The first segment of a text has its shape there. -/
theorem shaped_first :
    Shaped (first c rest).kind (first c rest).text (.ofText (first c rest).rest) := by
  unfold first
  -- A goal for each test on the first character, in the order in which they are made.
  split
  · next isNewline => exact congrArg (fun d => [d]) isNewline
  split
  · next isComment =>
    obtain ⟨rfl, slash⟩ := isComment
    obtain ⟨more, rfl⟩ := List.head?_eq_some_iff.mp slash
    refine ⟨⟨more.takeWhile (· != '\n'), by simp [takeWhile]⟩, ?_, ?_⟩
    · intro member
      simpa using passes_of_mem_takeWhile (by decide) '\n' member
    · rw [Boundary.ofText_ends_line_iff]
      intro d isNext
      simpa using head?_dropWhile d isNext
  split
  · next gap =>
    refine ⟨List.cons_ne_nil _ _, passes_of_mem_takeWhile gap, ?_⟩
    · rw [Boundary.ofText_ne_blank_iff]
      exact head?_dropWhile
  split
  · exact shaped_quoted
  · next inLine notComment noGap notQuote =>
    refine ⟨List.cons_ne_nil _ _, ?_, ?_, ?_, ?_⟩
    · have solid : (!isSeparator c) = true := by simp [isSeparator, noGap, inLine]
      intro d member
      simpa using passes_of_mem_takeWhile solid d member
    · rintro ⟨more, same⟩
      exact notQuote (List.cons.inj same).1.symm
    · rintro ⟨more, same⟩
      obtain ⟨rfl, slashes⟩ := List.cons.inj same
      refine notComment ⟨rfl, ?_⟩
      cases rest with
      | nil => cases slashes
      | cons d rest =>
        rw [List.takeWhile_cons] at slashes
        split at slashes
        · rw [(List.cons.inj slashes).1]
          rfl
        · cases slashes
    · rw [Boundary.ofText_ne_other_iff]
      intro d isNext
      simpa using head?_dropWhile d isNext

end First

/-! ### All segments -/

/-- A text that begins with a segment in its shape is cut behind it. -/
theorem cut_append (p : Position) (shaped : Shaped kind text (.ofText rest)) :
    cut p (text ++ rest) = ⟨kind, String.ofList text, p⟩ :: cut (p.advance text) rest := by
  have nonempty : text ++ rest ≠ [] := List.append_ne_nil_of_left_ne_nil shaped.ne_nil rest
  obtain ⟨c, more, same⟩ := List.exists_cons_of_ne_nil nonempty
  rw [same, cut_cons, first_eq same shaped]
  rfl

/-- The texts of the segments make up the text. -/
theorem text_cut (p : Position) (text : List Char) : Token.text (cut p text) = text :=
  have covers : Transcript.Covers (fun _ => False) ⟨cut p text, none⟩ p text := covers_cut p text
  covers.text_tokens rfl

theorem wellFormed_cut (p : Position) (text : List Char) : WellFormed (cut p text) := by
  fun_induction cut p text with
  | case1 p => trivial
  | case2 p c rest ih =>
    refine ⟨?_, ih⟩
    rw [ih.ofSegments_eq, text_cut, token, String.toList_ofList]
    exact shaped_first

/-- Well-formed segments are cut out of their text again. -/
theorem cut_text (wellFormed : WellFormed ts) :
    (cut p (Token.text ts)).map Token.unplaced = ts.map Token.unplaced := by
  -- Behind the first segment the rest starts at another place, so the place is left open.
  induction ts generalizing p with
  | nil => rw [Token.text_nil, cut_nil]
  | cons t ts ih =>
    obtain ⟨shaped, others⟩ := wellFormed
    rw [others.ofSegments_eq] at shaped
    rw [Token.text_cons, cut_append p shaped, List.map_cons, List.map_cons, ih others,
      String.ofList_toList]
    rfl

/-- A segment keeps its shape when the text behind it is cut off. -/
theorem Shaped.behind_part {part : List Char} (shaped : Shaped kind text (.ofText rest))
    (begins : part <+: rest) : Shaped kind text (.ofText part) := by
  rcases Boundary.ofText_of_prefix begins with ends | same
  · rw [ends]
    exact shaped.ending
  · rwa [same]

/-- A line end behind a text starts new segments, unless it falls into a string. -/
theorem cut_append_newline (closed : ∀ t ∈ (cut p text).getLast?, ¬ Unterminated t) :
    cut p (text ++ '\n' :: more) = cut p text ++ cut (p.advance text) ('\n' :: more) := by
  fun_induction cut p text with
  | case1 p => rfl
  | case2 p c rest ih =>
    have shaped : Shaped (first c rest).kind (first c rest).text
        (.ofText ((first c rest).rest ++ '\n' :: more)) := by
      have here : Shaped (first c rest).kind (first c rest).text (.ofText (first c rest).rest) :=
        shaped_first
      cases behind : (first c rest).rest with
      | nil =>
        rw [behind, cut_nil] at closed
        have isClosed : ¬ Unterminated ((first c rest).token p) := closed _ rfl
        rw [Unterminated, token, String.toList_ofList] at isClosed
        exact here.newline isClosed
      | cons d others => rwa [behind] at here
    have whole : c :: rest ++ '\n' :: more =
        (first c rest).text ++ ((first c rest).rest ++ '\n' :: more) := by
      rw [← List.append_assoc, first_text_append_rest]
    have place : p.advance (c :: rest) =
        (p.advance (first c rest).text).advance (first c rest).rest := by
      rw [← Position.advance_append, first_text_append_rest]
    rw [whole, cut_append p shaped, ih, place]
    · rfl
    · intro t isLast
      refine closed t ?_
      rw [List.getLast?_cons, isLast]
      rfl

/-- **Segments of texts.** Cutting a text gives well-formed segments that make up the text, and
cutting the text of well-formed segments gives them back, kind by kind and text by text. -/
theorem segments_biject (lexer : Lexer) :
    (∀ source : String,
      WellFormed (lexer.stream source .segments).transcript.tokens ∧
        Token.text (lexer.stream source .segments).transcript.tokens = source.toList ∧
        (lexer.stream source .segments).transcript.fault? = none) ∧
      ∀ ts, WellFormed ts →
        (lexer.stream (String.ofList (Token.text ts)) .segments).transcript.unplaced =
          ⟨ts.map Token.unplaced, none⟩ := by
  constructor
  · intro source
    rw [Lexer.transcript_stream]
    exact ⟨wellFormed_cut {} source.toList, text_cut {} source.toList, rfl⟩
  · intro ts wellFormed
    rw [Lexer.transcript_stream, Lexer.Stage.run, String.toList_ofList]
    exact congrArg (fun tokens => (⟨tokens, none⟩ : Transcript)) (cut_text wellFormed)

/-- Segments at which quotes and slashes mean different things: a string over two lines with
another one right behind it, a run with both inside, a comment with a quote, and a string
that is never closed. -/
def quotesAndSlashes : List Token :=
  [⟨.string, "\"a\nb\"", {}⟩, ⟨.string, "\"\"", {}⟩, ⟨.unknown, "x\"//y", {}⟩, ⟨.space, " \t", {}⟩,
    ⟨.comment, "// \"c", {}⟩, ⟨.newline, "\n", {}⟩, ⟨.string, "\"open // ", {}⟩]

theorem segments_of_quotesAndSlashes :
    WellFormed quotesAndSlashes ∧
      (({} : Lexer).stream (String.ofList (Token.text quotesAndSlashes)) .segments
        ).transcript.unplaced = ⟨quotesAndSlashes.map Token.unplaced, none⟩ := by
  have wellFormed : WellFormed quotesAndSlashes := by decide
  exact ⟨wellFormed, (segments_biject {}).2 _ wellFormed⟩

end Spire.Segment
