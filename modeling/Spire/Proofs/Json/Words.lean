import Spire.Json.Lexeme
import Spire.Proofs.Json.Numbers
import Mathlib.Data.List.Chain

/-!
# How the words of JSON are written

A JSON text is a row of words with blanks in front of them, between them and behind them. This file
says how each word is written, and compares that with the words that are cut out of a text. Numbers
and names are cut out as long as they go on, so a text can be put together from words and be cut
otherwise, but not if a mark stands between any two words that are values.

## Main definitions

* `Json.Quoted.Spells` — how code units are written between quotes
* `Json.Lexeme.Written` — how a word is written
* `Json.Words` — texts that are put together from words and blanks
* `Json.Lexeme.Apart` — two words that may stand side by side
* `Json.Delimited` — texts in front of which a number or a name ends

## Main results

* `Json.Quoted.read_eq_some_iff` — reading a quoted text finds what is written
* `Json.Lexeme.exists_written_of_first`, `Json.Lexeme.Written.exists_first` — the word at the
  front of a text is one that is written there, and each word that is written there is found
* `Json.words_of_all`, `Json.Words.all_eq` — the same for all words of a text
-/

namespace Spire.Json

variable {lexeme : Lexeme} {lexemes : List Lexeme} {c : Char} {text run rest behind : List Char}
  {units : List Nat}

/-! ### Quoted texts -/

namespace Quoted

/-- How code units are written between quotes: a character stands for itself, a letter behind a
backslash stands for a character that has no better form, and four hexadecimal digits for any
unit. -/
inductive Spells : List Nat → List Char → Prop where
  | nil : Spells [] []
  | plain {c : Char} {units : List Nat} {text : List Char} (noQuote : c ≠ '"')
      (noBackslash : c ≠ '\\') (visible : 0x20 ≤ c.toNat) (others : Spells units text) :
      Spells (c.toNat :: units) (c :: text)
  | simple {c : Char} {code : Nat} {units : List Nat} {text : List Char}
      (known : simple? c = some code) (others : Spells units text) :
      Spells (code :: units) ('\\' :: c :: text)
  | code {a b c d : Char} {i j k l : Nat} {units : List Nat} {text : List Char}
      (first : hexValue? a = some i) (second : hexValue? b = some j) (third : hexValue? c = some k)
      (fourth : hexValue? d = some l) (others : Spells units text) :
      Spells ((16 * (16 * (16 * i + j) + k) + l) :: units)
        ('\\' :: 'u' :: a :: b :: c :: d :: text)

theorem Spells.read (spells : Spells units text) (rest : List Char) :
    read (text ++ '"' :: rest) = some (units, rest) := by
  unfold Quoted.read
  induction spells with
  | nil => rfl
  | plain noQuote noBackslash visible _ ih =>
    simp [readFrom, noQuote, noBackslash, Nat.not_lt.mpr visible, ih]
  | @simple c code _ _ known _ ih =>
    have notUnit : c ≠ 'u' := by
      rintro rfl
      cases known
    simp [readFrom, notUnit, known, ih]
  | code first second third fourth _ ih => simp [readFrom, first, second, third, fourth, ih]

/-- One digit of a code unit with more to come. -/
theorem exists_of_readFrom_hex {owed value : Nat} {result : List Nat × List Char}
    (found : readFrom (.hex (owed + 1) value) text = some result) :
    ∃ c digit rest, text = c :: rest ∧ hexValue? c = some digit ∧
      readFrom (.hex owed (16 * value + digit)) rest = some result := by
  cases text with
  | nil => cases found
  | cons c rest =>
    obtain ⟨digit, isDigit, found⟩ := Option.bind_eq_some_iff.mp found
    exact ⟨c, digit, rest, rfl, isDigit, found⟩

/-- Behind a complete unit reading goes on. -/
theorem exists_of_unit {value : Nat}
    (found : ((readFrom .plain text).map fun (units, behind) => (value :: units, behind)) =
      some (units, rest)) :
    ∃ others, units = value :: others ∧ read text = some (others, rest) := by
  obtain ⟨⟨others, _⟩, more, same⟩ := Option.map_eq_some_iff.mp found
  cases same
  exact ⟨others, rfl, more⟩

/-- The last digit of a code unit. -/
theorem exists_of_readFrom_last {value : Nat}
    (found : readFrom (.hex 0 value) text = some (units, rest)) :
    ∃ c digit more others, text = c :: more ∧ hexValue? c = some digit ∧
      units = (16 * value + digit) :: others ∧ read more = some (others, rest) := by
  cases text with
  | nil => cases found
  | cons c more =>
    obtain ⟨digit, isDigit, last⟩ := Option.bind_eq_some_iff.mp found
    obtain ⟨others, same, behind⟩ := exists_of_unit last
    exact ⟨c, digit, more, others, rfl, isDigit, same, behind⟩

/-- What is read as a quoted text is written so, up to a quote. -/
theorem exists_spells_of_read (found : read text = some (units, rest)) :
    ∃ spelled, text = spelled ++ '"' :: rest ∧ Spells units spelled := by
  -- A unit may take several characters, so the induction is on the length of the text.
  induction length : text.length using Nat.strongRecOn generalizing text units with
  | ind n ih =>
  subst length
  cases text with
  | nil => cases found
  | cons c text =>
    simp only [read, readFrom] at found
    split at found
    · next isQuote =>
      cases found
      exact ⟨[], by rw [isQuote]; rfl, .nil⟩
    split at found
    · next isBackslash =>
      subst isBackslash
      cases text with
      | nil => cases found
      | cons c text =>
        simp only [readFrom] at found
        split at found
        · next isUnit =>
          subst isUnit
          obtain ⟨a, i, _, rfl, first, next⟩ := exists_of_readFrom_hex found
          obtain ⟨b, j, _, rfl, second, next⟩ := exists_of_readFrom_hex next
          obtain ⟨c, k, _, rfl, third, next⟩ := exists_of_readFrom_hex next
          obtain ⟨d, l, text, others, rfl, fourth, rfl, behind⟩ := exists_of_readFrom_last next
          obtain ⟨spelled, rfl, spells⟩ :=
            ih text.length (by simp only [List.length_cons]; omega) behind rfl
          exact ⟨_, rfl, by simpa using spells.code first second third fourth⟩
        · obtain ⟨code, known, unit⟩ := Option.bind_eq_some_iff.mp found
          obtain ⟨others, rfl, behind⟩ := exists_of_unit unit
          obtain ⟨spelled, rfl, spells⟩ :=
            ih text.length (by simp only [List.length_cons]; omega) behind rfl
          exact ⟨_, rfl, spells.simple known⟩
    split at found
    · cases found
    · next noQuote noBackslash visible =>
      obtain ⟨others, rfl, behind⟩ := exists_of_unit found
      obtain ⟨spelled, rfl, spells⟩ :=
        ih text.length (by simp only [List.length_cons]; omega) behind rfl
      exact ⟨_, rfl, spells.plain noQuote noBackslash (Nat.le_of_not_lt visible)⟩

/-- Reading a quoted text finds what is written up to a quote. -/
theorem read_eq_some_iff : read text = some (units, rest) ↔
    ∃ spelled, text = spelled ++ '"' :: rest ∧ Spells units spelled := by
  refine ⟨exists_spells_of_read, ?_⟩
  rintro ⟨spelled, rfl, spells⟩
  exact spells.read rest

end Quoted

/-! ### Words that end where their characters end -/

/-- A number or a name that stands in front of this text ends there. -/
def Delimited (rest : List Char) : Prop :=
  ∀ c ∈ rest.head?, inNumber c = false ∧ c.isAlpha = false

theorem takeWhile_run {inside : Char → Bool} (passes : ∀ c ∈ run, inside c = true)
    (stops : ∀ c ∈ rest.head?, inside c = false) :
    (run ++ rest).takeWhile inside = run ∧ (run ++ rest).dropWhile inside = rest := by
  have nothing : rest.takeWhile inside = [] ∧ rest.dropWhile inside = rest := by
    cases rest with
    | nil => exact ⟨rfl, rfl⟩
    | cons c rest => simp [stops c rfl]
  rw [List.takeWhile_append_of_pos passes, List.dropWhile_append_of_pos passes, nothing.1,
    nothing.2, List.append_nil]
  exact ⟨rfl, rfl⟩

/-- The check of a number passes over characters of numbers only. -/
theorem NumberState.inNumber_of_next {state next : NumberState}
    (moves : state.next c = some next) : inNumber c = true := by
  cases outside : inNumber c with
  | true => rfl
  | false =>
    have others : c.isDigit = false ∧ c ≠ '+' ∧ c ≠ '-' ∧ c ≠ '.' ∧ c ≠ 'e' ∧ c ≠ 'E' := by
      simpa [inNumber] using outside
    obtain ⟨noDigit, noPlus, noMinus, noPoint, noMark, noCapital⟩ := others
    have notZero : c ≠ '0' := by
      rintro rfl
      cases noDigit
    cases state <;>
      simp [NumberState.next, NumberState.next.firstDigit, NumberState.next.behindWhole,
        NumberState.next.behindFraction, NumberState.next.exponentDigit, noDigit, noPlus, noMinus,
        noPoint, noMark, noCapital, notZero] at moves

theorem inNumber_of_mem {state next : NumberState}
    (moves : run.foldlM NumberState.next state = some next) : ∀ c ∈ run, inNumber c = true := by
  induction run generalizing state with
  | nil => simp
  | cons c run ih =>
    rw [List.foldlM_cons] at moves
    obtain ⟨between, first, others⟩ := Option.bind_eq_some_iff.mp moves
    exact List.forall_mem_cons.mpr ⟨NumberState.inNumber_of_next first, ih others⟩

/-- A number begins with a sign or a digit, and goes on with characters of numbers. -/
theorem exists_cons_of_isNumber (spelled : isNumber run = true) :
    ∃ c more, run = c :: more ∧ (c = '-' ∨ c.isDigit = true) ∧ ∀ d ∈ more, inNumber d = true := by
  obtain ⟨final, moves, -⟩ := (Option.any_eq_true _ _).mp spelled
  cases run with
  | nil => cases spelled
  | cons c more =>
    refine ⟨c, more, rfl, ?_, (List.forall_mem_cons.mp (inNumber_of_mem moves)).2⟩
    rw [List.foldlM_cons] at moves
    obtain ⟨between, first, -⟩ := Option.bind_eq_some_iff.mp moves
    by_cases sign : c = '-'
    · exact .inl sign
    by_cases zero : c = '0'
    · exact .inr (by rw [zero]; decide)
    cases digit : c.isDigit with
    | true => exact .inr rfl
    | false => simp [NumberState.next, NumberState.next.firstDigit, sign, zero, digit] at first

theorem outside_of_mem_punctuation : ∀ entry ∈ Lexeme.punctuation,
    inNumber entry.1 = false ∧ entry.1.isAlpha = false := by
  decide

/-- A character that begins a number or a name is no mark and no blank. -/
theorem apart_of_begins (begins : inNumber c = true ∨ c.isAlpha = true) :
    Lexeme.punctuation.lookup c = none ∧ isSpace c = false ∧ c ≠ '"' := by
  have apart : ∀ d : Char, inNumber d = false ∧ d.isAlpha = false → c ≠ d := by
    rintro d ⟨noNumber, noAlpha⟩ rfl
    simp [noNumber, noAlpha] at begins
  refine ⟨List.lookup_eq_none_iff.mpr fun entry member => ?_, ?_, apart _ (by decide)⟩
  · simpa using apart entry.1 (outside_of_mem_punctuation entry member)
  · simp [isSpace, apart ' ' (by decide), apart '\t' (by decide), apart '\n' (by decide),
      apart '\r' (by decide)]

theorem delimited_cons (outside : inNumber c = false ∧ c.isAlpha = false) :
    Delimited (c :: rest) := by
  rintro _ ⟨⟩
  exact outside

namespace Lexeme

theorem mem_punctuation (mark : punctuation.lookup c = some lexeme) :
    (c, lexeme) ∈ punctuation := by
  obtain ⟨before, after, whole, -⟩ := List.lookup_eq_some_iff.mp mark
  simp [whole]

theorem first_mark (mark : punctuation.lookup c = some lexeme) (rest : List Char) :
    isSpace c = false ∧ first c rest = some (lexeme, rest) := by
  have visible : ∀ entry ∈ punctuation, isSpace entry.1 = false := by decide
  exact ⟨visible (c, lexeme) (mem_punctuation mark), by rw [first, mark]⟩

theorem first_of_read (read : Quoted.read text = some (units, rest)) :
    first '"' text = some (.scalar (.string (String.ofList (Quoted.decode units))), rest) := by
  have mark : punctuation.lookup '"' = none := by decide
  rw [first, mark]
  simp only [if_true, read, Option.map_some]

/-- A number in front of a text that does not go on with it. -/
theorem first_number {literal : String} (spelled : isNumber literal.toList = true)
    (ends : Delimited rest) :
    ∃ c more, literal.toList = c :: more ∧ isSpace c = false ∧
      first c (more ++ rest) = some (.scalar (.number literal), rest) := by
  obtain ⟨c, more, whole, begins, inside⟩ := exists_cons_of_isNumber spelled
  have member : inNumber c = true := by
    rcases begins with rfl | digit
    · decide
    · simp [inNumber, digit]
  obtain ⟨noMark, visible, noQuote⟩ := apart_of_begins (.inl member)
  obtain ⟨taken, left⟩ := takeWhile_run inside fun d next => (ends d next).1
  refine ⟨c, more, whole, visible, ?_⟩
  rw [first, noMark]
  simp only [if_neg noQuote, if_pos begins, taken, left, ← whole, spelled, if_true,
    String.ofList_toList]

/-- One of the three names in front of a text that does not go on with it. -/
theorem first_name {name : List Char} {value : Json}
    (entry : names.lookup (c :: name) = some value) (ends : Delimited rest) :
    isSpace c = false ∧ first c (name ++ rest) = some (.scalar value, rest) := by
  have letters : ∀ entry ∈ names,
      entry.1.all (fun d => d.isAlpha && !(d == '-' || d.isDigit)) = true := by
    decide
  obtain ⟨before, after, whole, -⟩ := List.lookup_eq_some_iff.mp entry
  have inside : ∀ d ∈ c :: name, d.isAlpha = true ∧ ¬ (d = '-' ∨ d.isDigit = true) := by
    simpa using letters (c :: name, value) (by simp [whole])
  obtain ⟨begins, noNumber⟩ := inside c List.mem_cons_self
  obtain ⟨noMark, visible, noQuote⟩ := apart_of_begins (.inr begins)
  have alpha : ∀ d ∈ name, d.isAlpha = true := fun d member =>
    (inside d (List.mem_cons_of_mem c member)).1
  obtain ⟨taken, left⟩ := takeWhile_run alpha fun d next => (ends d next).2
  refine ⟨visible, ?_⟩
  rw [first, noMark]
  simp only [if_neg noQuote, if_neg noNumber, taken, left, entry, Option.map_some]

theorem all_of_first (visible : isSpace c = false) (found : first c rest = some (lexeme, behind)) :
    all (c :: rest) = (all behind).map (lexeme :: ·) := by
  rw [all, if_neg (by simp [visible])]
  split
  · next same =>
    rw [found] at same
    cases same
    rfl
  · next missing =>
    rw [found] at missing
    cases missing

/-! ### Words as they are written -/

/-- How a word is written. -/
inductive Written : Lexeme → List Char → Prop where
  | mark {c : Char} {lexeme : Lexeme} (known : punctuation.lookup c = some lexeme) :
      Written lexeme [c]
  | name {name : List Char} {value : Json} (known : names.lookup name = some value) :
      Written (.scalar value) name
  | number {literal : String} (spelled : NumberText literal.toList) :
      Written (.scalar (.number literal)) literal.toList
  | string {units : List Nat} {text : List Char} (spells : Quoted.Spells units text) :
      Written (.scalar (.string (String.ofList (Quoted.decode units)))) ('"' :: (text ++ ['"']))

/-- Whether a word is a value. -/
def isScalar : Lexeme → Bool
  | scalar _ => true
  | _ => false

/-- Two words that may stand side by side. -/
def Apart (first second : Lexeme) : Prop :=
  first.isScalar = false ∨ second.isScalar = false

/-- The word at the front of a text is written there. -/
theorem exists_written_of_first (found : first c rest = some (lexeme, behind)) :
    ∃ more, rest = more ++ behind ∧ Written lexeme (c :: more) := by
  unfold first at found
  split at found
  · next mark known =>
    cases found
    exact ⟨[], rfl, .mark known⟩
  split at found
  · next isQuote =>
    subst isQuote
    obtain ⟨⟨units, _⟩, read, same⟩ := Option.map_eq_some_iff.mp found
    cases same
    obtain ⟨text, rfl, spells⟩ := Quoted.read_eq_some_iff.mp read
    exact ⟨text ++ ['"'], by simp, .string spells⟩
  split at found
  · simp only at found
    split at found
    · next spelled =>
      cases found
      refine ⟨rest.takeWhile inNumber, List.takeWhile_append_dropWhile.symm, ?_⟩
      have written := @Written.number (String.ofList (c :: rest.takeWhile inNumber))
      rw [String.toList_ofList] at written
      exact written (isNumber_iff.mp spelled)
    · cases found
  · obtain ⟨value, known, same⟩ := Option.map_eq_some_iff.mp found
    cases same
    exact ⟨rest.takeWhile Char.isAlpha, List.takeWhile_append_dropWhile.symm, .name known⟩

/-- A word that is written at the front of a text is found, if it ends there. -/
theorem Written.exists_first {chars : List Char} (written : Written lexeme chars)
    (ends : lexeme.isScalar = true → Delimited rest) :
    ∃ c more, chars = c :: more ∧ isSpace c = false ∧
      first c (more ++ rest) = some (lexeme, rest) := by
  cases written with
  | mark known => exact ⟨_, [], rfl, first_mark known rest⟩
  | name known =>
    cases chars with
    | nil => cases known
    | cons c more => exact ⟨c, more, rfl, first_name known (ends rfl)⟩
  | number spelled => exact first_number (isNumber_iff.mpr spelled) (ends rfl)
  | @string units text spells =>
    refine ⟨'"', text ++ ['"'], rfl, by decide, ?_⟩
    rw [List.append_assoc]
    exact first_of_read (spells.read rest)

end Lexeme

/-! ### Texts -/

/-- Texts that are put together from words, with any number of blanks before, between and behind
them. -/
inductive Words : List Lexeme → List Char → Prop where
  | nil : Words [] []
  | space {lexemes : List Lexeme} {c : Char} {text : List Char} (blank : isSpace c = true)
      (others : Words lexemes text) : Words lexemes (c :: text)
  | word {lexeme : Lexeme} {lexemes : List Lexeme} {chars text : List Char}
      (written : lexeme.Written chars) (others : Words lexemes text) :
      Words (lexeme :: lexemes) (chars ++ text)

/-- The words that are cut out of a text are written there. -/
theorem words_of_all (found : Lexeme.all text = .ok lexemes) : Words lexemes text := by
  fun_induction Lexeme.all text generalizing lexemes with
  | case1 =>
    cases found
    exact .nil
  | case2 c rest blank ih => exact .space blank (ih found)
  | case3 c rest visible lexeme behind first ih =>
    cases others : Lexeme.all behind with
    | error e =>
      rw [others] at found
      cases found
    | ok more =>
      rw [others] at found
      cases found
      obtain ⟨run, rfl, written⟩ := Lexeme.exists_written_of_first first
      exact .word written (ih others)
  | case4 c rest visible missing => cases found

/-- Numbers and names end in front of a text that does not begin with a value. -/
theorem Words.delimited (words : Words lexemes text)
    (noScalar : ∀ lexeme ∈ lexemes.head?, lexeme.isScalar = false) : Delimited text := by
  cases words with
  | nil => nofun
  | @space _ c _ blank _ =>
    have blanks : c = ' ' ∨ c = '\t' ∨ c = '\n' ∨ c = '\r' := by
      simpa [isSpace, or_assoc] using blank
    rcases blanks with rfl | rfl | rfl | rfl <;> exact delimited_cons (by decide)
  | word written _ =>
    cases written with
    | mark known =>
      exact delimited_cons (outside_of_mem_punctuation _ (Lexeme.mem_punctuation known))
    | name => cases noScalar _ rfl
    | number => cases noScalar _ rfl
    | string => cases noScalar _ rfl

/-- The words that are written in a text are cut out of it, if no two values stand side by side. -/
theorem Words.all_eq (words : Words lexemes text) (apart : lexemes.IsChain Lexeme.Apart) :
    Lexeme.all text = .ok lexemes := by
  induction words with
  | nil => rw [Lexeme.all]
  | space blank _ ih => rw [Lexeme.all, if_pos blank, ih apart]
  | @word lexeme lexemes chars text written others ih =>
    obtain ⟨side, apart⟩ := List.isChain_cons.mp apart
    have ends : lexeme.isScalar = true → Delimited text := by
      intro isScalar
      refine others.delimited fun next isNext => ?_
      exact (side next isNext).resolve_left (by simp [isScalar])
    obtain ⟨c, more, rfl, visible, found⟩ := written.exists_first ends
    rw [List.cons_append, Lexeme.all_of_first visible found, ih apart]
    rfl

end Spire.Json
