import Spire.Json.Reader
import Spire.Proofs.Json.Words

/-!
# The grammar of JSON

Which text denotes which value is settled by a grammar. It has two layers: a text is put together
from words, and the words of a value follow a few rules, in which items and members come in lists
that grow at their end. Reading goes through the words once and keeps a stack of what is not
complete. This file shows that reading finds the value that the grammar gives to a text, and refuses
a text to which it gives none.

The rules lead reading from a place for a value to the state where the value is complete. The other
way round, each state that reading can be in says which words have led there.

## Main definitions

* `Json.Part`, `Json.Phrase` — the rules for the words of a value
* `Json.Denotes` — which text denotes which value
* `Json.Behind`, `Json.Reads` — the words that lead to a stack, and to a state

## Main results

* `Json.Phrase.leads` — words that follow the rules are read as what they stand for
* `Json.Reads.next` — what one more word does to the words that lead to a state
* `Json.parse_eq_ok_iff` — reading finds the value that a text denotes, and no other
-/

namespace Spire.Json

/-! ### Rules -/

/-- What words may stand for. -/
inductive Part where
  | value (json : Json)
  /-- The items of an array that has some. -/
  | items (items : List Json)
  /-- The members of an object that has some. -/
  | members (members : List (String × Json))

/-- The words of a value, and those between its brackets. -/
inductive Phrase : Part → List Lexeme → Prop where
  | scalar (json : Json) : Phrase (.value json) [.scalar json]
  | emptyArray : Phrase (.value (.array [])) [.openArray, .closeArray]
  | array {items : List Json} {words : List Lexeme} (inside : Phrase (.items items) words) :
      Phrase (.value (.array items)) (.openArray :: (words ++ [.closeArray]))
  | emptyObject : Phrase (.value (.object [])) [.openObject, .closeObject]
  | object {members : List (String × Json)} {words : List Lexeme}
      (inside : Phrase (.members members) words) :
      Phrase (.value (.object members)) (.openObject :: (words ++ [.closeObject]))
  | item {json : Json} {words : List Lexeme} (only : Phrase (.value json) words) :
      Phrase (.items [json]) words
  | items {items : List Json} {json : Json} {words others : List Lexeme}
      (before : Phrase (.items items) words) (last : Phrase (.value json) others) :
      Phrase (.items (items ++ [json])) (words ++ .comma :: others)
  | member (name : String) {json : Json} {words : List Lexeme}
      (only : Phrase (.value json) words) :
      Phrase (.members [(name, json)]) (.scalar (.string name) :: .colon :: words)
  | members {members : List (String × Json)} {json : Json} {words others : List Lexeme}
      (before : Phrase (.members members) words) (name : String)
      (last : Phrase (.value json) others) :
      Phrase (.members (members ++ [(name, json)]))
        (words ++ .comma :: .scalar (.string name) :: .colon :: others)

/-- A text denotes a value: it is put together from words of the value. -/
def Denotes (text : String) (json : Json) : Prop :=
  ∃ words, Words words text.toList ∧ Phrase (.value json) words

variable {part : Part} {json : Json} {items : List Json} {members : List (String × Json)}
  {words others : List Lexeme} {lexeme : Lexeme} {state moved : State} {stack : List Frame}
  {text : String}

/-! ### Following the rules -/

theorem isChain_mark (mark : lexeme.isScalar = false) (behind : words.IsChain Lexeme.Apart) :
    (lexeme :: words).IsChain Lexeme.Apart :=
  List.isChain_cons.mpr ⟨fun _ _ => .inl mark, behind⟩

theorem isChain_append_mark (mark : lexeme.isScalar = false) (front : words.IsChain Lexeme.Apart)
    (behind : others.IsChain Lexeme.Apart) :
    (words ++ lexeme :: others).IsChain Lexeme.Apart := by
  refine List.isChain_append.mpr ⟨front, isChain_mark mark behind, ?_⟩
  rintro word - _ ⟨⟩
  exact .inr mark

theorem isChain_member (value : words.IsChain Lexeme.Apart) :
    (.scalar json :: .colon :: words).IsChain Lexeme.Apart :=
  isChain_append_mark rfl (List.isChain_singleton _) value

/-- Between two words that are values there is a mark. -/
theorem Phrase.isChain (phrase : Phrase part words) : words.IsChain Lexeme.Apart := by
  induction phrase with
  | scalar json => exact List.isChain_singleton _
  | emptyArray => exact isChain_mark rfl (List.isChain_singleton _)
  | array _ ih => exact isChain_mark rfl (isChain_append_mark rfl ih .nil)
  | emptyObject => exact isChain_mark rfl (List.isChain_singleton _)
  | object _ ih => exact isChain_mark rfl (isChain_append_mark rfl ih .nil)
  | item _ ih => exact ih
  | items _ _ before last => exact isChain_append_mark rfl before last
  | member name _ ih => exact isChain_member ih
  | members _ name _ before last => exact isChain_append_mark rfl before (isChain_member last)

theorem foldlM_next_cons (moves : state.next lexeme = .ok moved) (words : List Lexeme) :
    (lexeme :: words).foldlM State.next state = words.foldlM State.next moved := by
  rw [List.foldlM_cons, moves]
  rfl

theorem foldlM_next_append (leads : words.foldlM State.next state = .ok moved)
    (others : List Lexeme) :
    (words ++ others).foldlM State.next state = others.foldlM State.next moved := by
  rw [List.foldlM_append, leads]
  rfl

/-- What words lead to from a place where they may stand. -/
def Leads (words : List Lexeme) : Part → Prop
  | .value json => ∀ mayClose stack,
      words.foldlM State.next (.value mayClose stack) = .ok (.complete json stack)
  | .items items => ∀ mayClose stack,
      words.foldlM State.next (.value mayClose (.array [] :: stack)) =
        .ok (.item items.reverse stack)
  | .members members => ∀ mayClose stack,
      words.foldlM State.next (.name mayClose [] stack) = .ok (.member members.reverse stack)

/-- Words that follow the rules are read as what they stand for. -/
theorem Phrase.leads (phrase : Phrase part words) : Leads words part := by
  induction phrase with
  | scalar json => exact fun _ _ => rfl
  | emptyArray => exact fun _ _ => rfl
  | array _ inside =>
    intro mayClose stack
    rw [foldlM_next_cons rfl, foldlM_next_append (inside true stack), foldlM_next_cons rfl,
      List.reverse_reverse]
    rfl
  | emptyObject => exact fun _ _ => rfl
  | object _ inside =>
    intro mayClose stack
    rw [foldlM_next_cons rfl, foldlM_next_append (inside true stack), foldlM_next_cons rfl,
      List.reverse_reverse]
    rfl
  | item _ only => exact fun mayClose stack => only mayClose (.array [] :: stack)
  | items _ _ before last =>
    intro mayClose stack
    rw [foldlM_next_append (before mayClose stack), foldlM_next_cons rfl, last, State.complete,
      List.reverse_append]
    rfl
  | member name _ only =>
    intro mayClose stack
    rw [foldlM_next_cons rfl, foldlM_next_cons rfl, only, State.complete]
    rfl
  | members _ name _ before last =>
    intro mayClose stack
    rw [foldlM_next_append (before mayClose stack), foldlM_next_cons rfl, foldlM_next_cons rfl,
      foldlM_next_cons rfl, last, State.complete, List.reverse_append]
    rfl

/-! ### Words that have been read -/

/-- The words in front of one more item or member, where those before it are kept in reverse: none,
or words for the ones before and a comma. -/
inductive Before {α : Type} (part : List α → Part) : List α → List Lexeme → Prop where
  | first : Before part [] []
  | later {done : List α} {words : List Lexeme} (phrase : Phrase (part done.reverse) words) :
      Before part done (words ++ [.comma])

/-- The words that lead to a place for a value inside what is not complete. -/
inductive Behind : List Frame → List Lexeme → Prop where
  | nil : Behind [] []
  | array {items : List Json} {stack : List Frame} {outer words : List Lexeme}
      (behind : Behind stack outer) (before : Before .items items words) :
      Behind (.array items :: stack) (outer ++ .openArray :: words)
  | member {members : List (String × Json)} {stack : List Frame} {outer words : List Lexeme}
      (behind : Behind stack outer) (before : Before .members members words) (name : String) :
      Behind (.member members name :: stack)
        (outer ++ .openObject :: (words ++ [.scalar (.string name), .colon]))

/-- The words that lead to a state. -/
inductive Reads : State → List Lexeme → Prop where
  | value {stack : List Frame} {words : List Lexeme} (behind : Behind stack words) :
      Reads (.value false stack) words
  | firstItem {stack : List Frame} {outer : List Lexeme} (behind : Behind stack outer) :
      Reads (.value true (.array [] :: stack)) (outer ++ [.openArray])
  | firstName {stack : List Frame} {outer : List Lexeme} (behind : Behind stack outer) :
      Reads (.name true [] stack) (outer ++ [.openObject])
  | name {members : List (String × Json)} {stack : List Frame} {outer words : List Lexeme}
      (behind : Behind stack outer) (before : Before .members members words) :
      Reads (.name false members stack) (outer ++ .openObject :: words)
  | colon {members : List (String × Json)} {stack : List Frame} {outer words : List Lexeme}
      (behind : Behind stack outer) (before : Before .members members words) (name : String) :
      Reads (.colon members name stack)
        (outer ++ .openObject :: (words ++ [.scalar (.string name)]))
  | item {items : List Json} {stack : List Frame} {outer words : List Lexeme}
      (behind : Behind stack outer) (phrase : Phrase (.items items.reverse) words) :
      Reads (.item items stack) (outer ++ .openArray :: words)
  | member {members : List (String × Json)} {stack : List Frame} {outer words : List Lexeme}
      (behind : Behind stack outer) (phrase : Phrase (.members members.reverse) words) :
      Reads (.member members stack) (outer ++ .openObject :: words)
  | finished {json : Json} {words : List Lexeme} (phrase : Phrase (.value json) words) :
      Reads (.finished json) words

theorem Before.snoc_item (before : Before .items items words)
    (value : Phrase (.value json) others) :
    Phrase (.items (json :: items).reverse) (words ++ others) := by
  cases before with
  | first => exact .item value
  | later phrase =>
    rw [List.reverse_cons, List.append_assoc]
    exact .items phrase value

theorem Before.snoc_member (before : Before .members members words) (name : String)
    (value : Phrase (.value json) others) :
    Phrase (.members ((name, json) :: members).reverse)
      (words ++ .scalar (.string name) :: .colon :: others) := by
  cases before with
  | first => exact .member name value
  | later phrase =>
    rw [List.reverse_cons, List.append_assoc]
    exact .members phrase name value

/-- Behind a complete value. -/
theorem Behind.complete (behind : Behind stack words) (value : Phrase (.value json) others) :
    Reads (.complete json stack) (words ++ others) := by
  cases behind with
  | nil => exact .finished value
  | array behind before =>
    rw [List.append_assoc, List.cons_append]
    exact .item behind (before.snoc_item value)
  | member behind before name =>
    rw [List.append_assoc, List.cons_append, List.append_assoc]
    exact .member behind (before.snoc_member name value)

/-- A place for a value is behind the words that lead there, whether an array may end there or
not. -/
theorem Reads.behind {mayClose : Bool} (reads : Reads (.value mayClose stack) words) :
    Behind stack words := by
  cases reads with
  | value behind => exact behind
  | firstItem behind => exact behind.array .first

/-- Behind the opening brace, or a comma, there is a place for a name. -/
theorem Reads.before {mayClose : Bool} (reads : Reads (.name mayClose members stack) words) :
    ∃ outer others, words = outer ++ .openObject :: others ∧ Behind stack outer ∧
      Before .members members others := by
  cases reads with
  | firstName behind => exact ⟨_, [], rfl, behind, .first⟩
  | name behind before => exact ⟨_, _, rfl, behind, before⟩

/-- One more word leads to the next state. -/
theorem Reads.next (reads : Reads state words) (moves : state.next lexeme = .ok moved) :
    Reads moved (words ++ [lexeme]) := by
  unfold State.next at moves
  -- One case for each move, in the order in which `State.next` has them.
  split at moves <;> cases moves
  · exact reads.behind.complete (.scalar _)
  · exact .firstItem reads.behind
  · exact .firstName reads.behind
  · cases reads with
    | firstItem behind =>
      rw [List.append_assoc]
      exact behind.complete .emptyArray
  · obtain ⟨outer, others, rfl, behind, before⟩ := reads.before
    rw [List.append_assoc]
    exact .colon behind before _
  · cases reads with
    | firstName behind =>
      rw [List.append_assoc]
      exact behind.complete .emptyObject
  · cases reads with
    | colon behind before =>
      rw [List.append_assoc, List.cons_append, List.append_assoc]
      exact .value (behind.member before _)
  · cases reads with
    | item behind phrase =>
      rw [List.append_assoc, List.cons_append]
      exact .value (behind.array (.later phrase))
  · cases reads with
    | item behind phrase =>
      rw [List.append_assoc, List.cons_append]
      exact behind.complete phrase.array
  · cases reads with
    | member behind phrase =>
      rw [List.append_assoc, List.cons_append]
      exact .name behind (.later phrase)
  · cases reads with
    | member behind phrase =>
      rw [List.append_assoc, List.cons_append]
      exact behind.complete phrase.object

/-- All words lead to the last state. -/
theorem Reads.foldlM (reads : Reads state words)
    (leads : others.foldlM State.next state = .ok moved) : Reads moved (words ++ others) := by
  induction others generalizing state words with
  | nil =>
    cases leads
    rwa [List.append_nil]
  | cons lexeme others ih =>
    cases moves : state.next lexeme with
    | error e =>
      rw [List.foldlM_cons, moves] at leads
      cases leads
    | ok between =>
      rw [foldlM_next_cons moves] at leads
      have read := ih (reads.next moves) leads
      rwa [List.append_assoc] at read

/-! ### Texts -/

theorem result_eq_ok_iff : state.result = .ok json ↔ state = .finished json := by
  cases state <;> simp [State.result]

/-- Words follow the rules for a value if they lead to it. -/
theorem phrase_iff :
    Phrase (.value json) words ↔
      words.foldlM State.next (.value false []) = .ok (.finished json) := by
  refine ⟨fun phrase => phrase.leads false [], fun leads => ?_⟩
  cases (Reads.value .nil).foldlM leads with
  | finished phrase => exact phrase

/-- Reading finds the value that a text denotes, and no other. -/
theorem parse_eq_ok_iff : parse text = .ok json ↔ Denotes text json := by
  constructor
  · intro read
    rw [parse] at read
    cases cut : Lexeme.all text.toList with
    | error c =>
      rw [cut] at read
      cases read
    | ok words =>
      rw [cut] at read
      change words.foldlM State.next (.value false []) >>= State.result = _ at read
      refine ⟨words, words_of_all cut, phrase_iff.mpr ?_⟩
      cases leads : words.foldlM State.next (.value false []) with
      | error e =>
        rw [leads] at read
        cases read
      | ok state =>
        rw [leads] at read
        rw [result_eq_ok_iff.mp read]
  · rintro ⟨words, written, phrase⟩
    rw [parse, written.all_eq phrase.isChain]
    change words.foldlM State.next (.value false []) >>= State.result = _
    rw [phrase_iff.mp phrase]
    rfl

instance (text : String) (json : Json) : Decidable (Denotes text json) :=
  decidable_of_iff ((parse text).toOption = some json) <| by
    rw [← parse_eq_ok_iff]
    cases parse text <;> simp [Except.toOption]

/-- A text that denotes nothing is refused. -/
theorem exists_parse_eq_error (nothing : ∀ json, ¬ Denotes text json) :
    ∃ e, parse text = .error e := by
  cases read : parse text with
  | error e => exact ⟨e, rfl⟩
  | ok json => exact absurd (parse_eq_ok_iff.mp read) (nothing json)

end Spire.Json
