import Spire.Json.Reader
import Spire.Json.Writer
import Spire.Proofs.Json.Words

/-!
# Reading back what is written

A JSON value is written with line breaks and steps of spaces, or without, and in both forms it can
be read back. Reading goes through the text from left to right, so it is enough to say how reading
goes on behind each part of the text: behind the text of a value, the value is complete. Numbers
and names end where their characters end, and what is written behind a value never begins with one
of these.

## Main definitions

* `Json.Writable` — values whose numbers are spelled as numbers
* `Json.resume` — reading on from a state
* `Json.Resumes` — behind the text of a value reading goes on with the value complete

## Main results

* `Json.resume_word` — one word takes reading from state to state
* `Json.Writable.resumes` — how reading goes on behind the text of a value
* `Json.parse_write`, `Json.write_inj` — values are read back, and differ if their texts do
* `Json.parse_quoted` — a quoted text is read back as a JSON string
-/

namespace Spire.Json

/-- Values whose numbers are spelled as numbers. -/
inductive Writable : Json → Prop where
  | null : Writable null
  | bool (value : Bool) : Writable (bool value)
  | number {literal : String} (spelled : isNumber literal.toList = true) : Writable (number literal)
  | string (text : String) : Writable (string text)
  | array {items : List Json} (each : ∀ item ∈ items, Writable item) : Writable (array items)
  | object {members : List (String × Json)} (each : ∀ member ∈ members, Writable member.2) :
      Writable (object members)

/-- Read on from a state. -/
def resume (state : State) (text : List Char) : Except SyntaxError Json := do
  let lexemes ← (Lexeme.all text).mapError .badCharacter
  let state ← lexemes.foldlM State.next state
  state.result

variable {state next : State} {lexeme : Lexeme} {c : Char} {rest behind : List Char}
  {step depth : Nat} {stack : List Frame}

/-! ### Words -/

theorem resume_space (blank : isSpace c = true) : resume state (c :: rest) = resume state rest := by
  rw [resume, Lexeme.all, if_pos blank]
  rfl

/-- One word takes reading from state to state. -/
theorem resume_word (visible : isSpace c = false)
    (found : Lexeme.first c rest = some (lexeme, behind)) (moves : state.next lexeme = .ok next) :
    resume state (c :: rest) = resume next behind := by
  rw [resume, Lexeme.all_of_first visible found, resume]
  cases Lexeme.all behind with
  | error c => rfl
  | ok lexemes =>
    change (lexeme :: lexemes).foldlM State.next state >>= State.result = _
    rw [List.foldlM_cons, moves]
    rfl

/-- Line breaks and steps of spaces are passed over. -/
theorem resume_lineBreak (step depth : Nat) (rest : List Char) :
    resume state (lineBreak step depth ++ rest) = resume state rest := by
  rw [lineBreak]
  split
  · rfl
  · rw [List.cons_append, resume_space rfl]
    generalize step * depth = count
    induction count with
    | zero => rfl
    | succ count ih => rw [List.replicate_succ, List.cons_append, resume_space rfl, ih]

theorem resume_mark (mark : Lexeme.punctuation.lookup c = some lexeme)
    (moves : state.next lexeme = .ok next) : resume state (c :: rest) = resume next rest := by
  obtain ⟨visible, found⟩ := Lexeme.first_mark mark rest
  exact resume_word visible found moves

theorem Lexeme.first_quote (text rest : List Char) :
    Lexeme.first '"' (text.flatMap Quoted.escape ++ '"' :: rest) =
      some (.scalar (.string (String.ofList text)), rest) := by
  rw [Lexeme.first_of_read Quoted.read_quote, Quoted.decode_map_toNat]

theorem resume_quote (text : String) (moves : state.next (.scalar (.string text)) = .ok next) :
    resume state (quote text.toList ++ rest) = resume next rest := by
  have found := Lexeme.first_quote text.toList rest
  rw [String.ofList_toList] at found
  rw [quote, List.cons_append, List.append_assoc]
  exact resume_word (by decide) found moves

/-- A number in front of a text that does not go on with it. -/
theorem resume_number {literal : String} (spelled : isNumber literal.toList = true)
    (ends : Delimited rest) (moves : state.next (.scalar (.number literal)) = .ok next) :
    resume state (literal.toList ++ rest) = resume next rest := by
  obtain ⟨c, more, whole, visible, found⟩ := Lexeme.first_number spelled ends
  rw [whole, List.cons_append]
  exact resume_word visible found moves

/-- One of the three names in front of a text that does not go on with it. -/
theorem resume_name (name : List Char) {value : Json}
    (entry : Lexeme.names.lookup (c :: name) = some value) (ends : Delimited rest)
    (moves : state.next (.scalar value) = .ok next) :
    resume state (c :: (name ++ rest)) = resume next rest := by
  obtain ⟨visible, found⟩ := Lexeme.first_name entry ends
  exact resume_word visible found moves

/-! ### Values -/

theorem Delimited.lineBreak (ends : Delimited rest) (step depth : Nat) :
    Delimited (lineBreak step depth ++ rest) := by
  rw [Json.lineBreak]
  split
  · exact ends
  · exact delimited_cons (by decide)

theorem delimited_itemChars (items : List Json) : Delimited (itemChars step depth items rest) := by
  cases items with
  | nil =>
    rw [itemChars]
    exact (delimited_cons (by decide)).lineBreak step depth
  | cons item items =>
    rw [itemChars]
    exact delimited_cons (by decide)

theorem delimited_memberChars (members : List (String × Json)) :
    Delimited (memberChars step depth members rest) := by
  cases members with
  | nil =>
    rw [memberChars]
    exact (delimited_cons (by decide)).lineBreak step depth
  | cons member members =>
    rw [memberChars]
    exact delimited_cons (by decide)

/-- Behind the text of a value reading goes on with the value complete, wherever the value
stands. -/
def Resumes (step : Nat) (json : Json) : Prop :=
  ∀ (depth : Nat) (mayClose : Bool) (stack : List Frame) (rest : List Char), Delimited rest →
    resume (.value mayClose stack) (chars step depth json rest) =
      resume (.complete json stack) rest

/-- Behind the text of the items that are left, the array is complete. -/
theorem resume_itemChars {items : List Json} (each : ∀ item ∈ items, Resumes step item)
    (done : List Json) :
    resume (.item done stack) (itemChars step depth items rest) =
      resume (.complete (.array (done.reverse ++ items)) stack) rest := by
  induction items generalizing done with
  | nil => rw [itemChars, resume_lineBreak, resume_mark rfl rfl, List.append_nil]
  | cons item items ih =>
    obtain ⟨first, others⟩ := List.forall_mem_cons.mp each
    rw [itemChars, resume_mark rfl rfl, resume_lineBreak,
      first (depth + 1) _ _ _ (delimited_itemChars items), State.complete, ih others,
      List.reverse_cons, List.append_assoc, List.singleton_append]

/-- Behind the text of a member reading goes on with the member complete. -/
theorem resume_member {value : Json} (resumes : Resumes step value) {mayClose : Bool}
    (done : List (String × Json)) (name : String) (ends : Delimited rest) :
    resume (.name mayClose done stack)
        (lineBreak step (depth + 1) ++ quote name.toList ++ colon step ++
          chars step (depth + 1) value rest) =
      resume (.member ((name, value) :: done) stack) rest := by
  rw [List.append_assoc, List.append_assoc, resume_lineBreak, resume_quote name rfl]
  have between : ∀ text : List Char, resume (.colon done name stack) (colon step ++ text) =
      resume (.value false (.member done name :: stack)) text := by
    intro text
    rw [colon]
    split
    · exact resume_mark rfl rfl
    · rw [List.cons_append, resume_mark rfl rfl, List.cons_append, resume_space rfl]
      rfl
  rw [between, resumes (depth + 1) _ _ _ ends, State.complete]

/-- Behind the text of the members that are left, the object is complete. -/
theorem resume_memberChars {members : List (String × Json)}
    (each : ∀ member ∈ members, Resumes step member.2) (done : List (String × Json)) :
    resume (.member done stack) (memberChars step depth members rest) =
      resume (.complete (.object (done.reverse ++ members)) stack) rest := by
  induction members generalizing done with
  | nil => rw [memberChars, resume_lineBreak, resume_mark rfl rfl, List.append_nil]
  | cons member members ih =>
    obtain ⟨name, value⟩ := member
    obtain ⟨first, others⟩ := List.forall_mem_cons.mp each
    rw [memberChars, resume_mark rfl rfl, resume_member first done name
      (delimited_memberChars members), ih others, List.reverse_cons, List.append_assoc,
      List.singleton_append]

/-- How reading goes on behind the text of a value. -/
theorem Writable.resumes {json : Json} (writable : Writable json) (step : Nat) :
    Resumes step json := by
  induction writable with
  | null =>
    intro depth mayClose stack rest ends
    rw [chars]
    exact resume_name ['u', 'l', 'l'] rfl ends rfl
  | bool value =>
    intro depth mayClose stack rest ends
    cases value with
    | false =>
      rw [chars]
      exact resume_name ['a', 'l', 's', 'e'] rfl ends rfl
    | true =>
      rw [chars]
      exact resume_name ['r', 'u', 'e'] rfl ends rfl
  | number spelled =>
    intro depth mayClose stack rest ends
    rw [chars, resume_number spelled ends rfl]
  | string text =>
    intro depth mayClose stack rest _
    rw [chars, resume_quote text rfl]
  | @array items _ resumes =>
    intro depth mayClose stack rest _
    cases items with
    | nil =>
      rw [chars, resume_mark rfl rfl, resume_mark rfl rfl]
      rfl
    | cons item items =>
      obtain ⟨first, others⟩ := List.forall_mem_cons.mp resumes
      rw [chars, resume_mark rfl rfl, resume_lineBreak,
        first (depth + 1) _ _ _ (delimited_itemChars items), State.complete,
        resume_itemChars others]
      rfl
  | @object members _ resumes =>
    intro depth mayClose stack rest _
    cases members with
    | nil =>
      rw [chars, resume_mark rfl rfl, resume_mark rfl rfl]
      rfl
    | cons member members =>
      obtain ⟨name, value⟩ := member
      obtain ⟨first, others⟩ := List.forall_mem_cons.mp resumes
      rw [chars, resume_mark rfl rfl, resume_member first [] name (delimited_memberChars members),
        resume_memberChars others]
      rfl

/-- Values are read back from their texts. -/
theorem parse_write {json : Json} (writable : Writable json) (step : Nat) :
    parse (json.write step) = .ok json := by
  have resumed := writable.resumes step 0 false [] [] (by simp [Delimited])
  rw [write, parse, String.toList_ofList]
  refine resumed.trans ?_
  rw [resume, Lexeme.all]
  rfl

/-- Values with the same text are the same. -/
theorem write_inj {a b : Json} (first : Writable a) (second : Writable b) {step : Nat} :
    a.write step = b.write step ↔ a = b := by
  refine ⟨fun same => ?_, fun same => by rw [same]⟩
  have read := parse_write first step
  rw [same, parse_write second step] at read
  exact (Except.ok.inj read).symm

/-- A quoted text is read back as a JSON string. -/
theorem parse_quoted (text : String) : parse (quoted text) = .ok (string text) := by
  have read := parse_write (.string text) 0
  rwa [write, chars, List.append_nil] at read

end Spire.Json
