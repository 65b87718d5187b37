import Spire.Json.Lexeme

/-!
# How numbers are written in JSON

A number is a whole part with a minus sign in front of it if one likes, then perhaps a fraction,
then perhaps an exponent. The check of a number goes through its characters one by one. For each
state of the check this file says which texts it accepts from there on, from the last part of a
number to the first; what it accepts from the start are the numbers.

## Main definitions

* `Json.Digits`, `Json.Whole`, `Json.Fraction`, `Json.Exponent` — the parts of a number
* `Json.NumberText` — numbers, as they are written
* `Json.NumberState.Accepts` — the texts that the check accepts from a state on

## Main results

* `Json.NumberState.accepts_loop_iff` — a state that passes over digits
* `Json.isNumber_iff` — the check accepts numbers and nothing else
-/

namespace Spire.Json

variable {text : List Char} {c : Char}

/-! ### The parts of a number -/

/-- One digit or more. -/
def Digits (text : List Char) : Prop :=
  text ≠ [] ∧ ∀ c ∈ text, c.isDigit = true

/-- A zero alone, or digits of which the first is no zero. -/
def Whole (text : List Char) : Prop :=
  text = ['0'] ∨ Digits text ∧ text.head? ≠ some '0'

/-- Digits behind a point. -/
def Fraction (text : List Char) : Prop :=
  ∃ digits, text = '.' :: digits ∧ Digits digits

/-- Digits behind a letter, perhaps with a sign. -/
def Exponent (text : List Char) : Prop :=
  ∃ mark sign digits, text = mark :: (sign ++ digits) ∧ (mark = 'e' ∨ mark = 'E') ∧
    sign ∈ [[], ['+'], ['-']] ∧ Digits digits

/-- A part that may be left out. -/
def Optional (part : List Char → Prop) (text : List Char) : Prop :=
  text = [] ∨ part text

/-- What may follow a whole part. -/
def Tail (text : List Char) : Prop :=
  ∃ fraction exponent, text = fraction ++ exponent ∧ Optional Fraction fraction ∧
    Optional Exponent exponent

/-- Numbers, as they are written. -/
def NumberText (text : List Char) : Prop :=
  ∃ sign whole tail, text = sign ++ (whole ++ tail) ∧ sign ∈ [[], ['-']] ∧ Whole whole ∧ Tail tail

/-! ### The check of a number -/

namespace NumberState

variable {state : NumberState}

/-- The texts that the check accepts from a state on. -/
def Accepts (state : NumberState) (text : List Char) : Prop :=
  (text.foldlM next state).any accepts = true

theorem accepts_nil : state.Accepts [] ↔ state.accepts = true := Iff.rfl

theorem accepts_cons : state.Accepts (c :: text) ↔ ∃ s, state.next c = some s ∧ s.Accepts text := by
  rw [Accepts, List.foldlM_cons]
  cases state.next c <;> simp [Accepts]

/-- Two states that go on alike at a character accept the same texts that begin with it. -/
theorem accepts_cons_congr {other : NumberState} (same : state.next c = other.next c) :
    state.Accepts (c :: text) ↔ other.Accepts (c :: text) := by
  rw [accepts_cons, accepts_cons, same]

/-- A state that passes over digits, and accepts `rest` behind them. -/
theorem accepts_loop_iff {rest : List Char → Prop}
    (passes : ∀ c, c.isDigit = true → state.next c = some state)
    (stops : ∀ text, (∀ c ∈ text.head?, c.isDigit = false) → (state.Accepts text ↔ rest text))
    (apart : ∀ text, rest text → ∀ c ∈ text.head?, c.isDigit = false) :
    state.Accepts text ↔
      ∃ digits more, text = digits ++ more ∧ (∀ c ∈ digits, c.isDigit = true) ∧ rest more := by
  -- Both directions take one digit after the other, and `stops` speaks where the first other
  -- character stands.
  constructor
  · intro accepted
    induction text with
    | nil => exact ⟨[], [], rfl, nofun, (stops [] nofun).mp accepted⟩
    | cons c text ih =>
      cases digit : c.isDigit with
      | false =>
        have stopped := (stops (c :: text) (by simpa using digit)).mp accepted
        exact ⟨[], c :: text, rfl, nofun, stopped⟩
      | true =>
        obtain ⟨s, moved, accepted⟩ := accepts_cons.mp accepted
        obtain rfl : state = s := by simpa [passes c digit] using moved
        obtain ⟨digits, more, rfl, isDigits, isRest⟩ := ih accepted
        exact ⟨c :: digits, more, rfl, List.forall_mem_cons.mpr ⟨digit, isDigits⟩, isRest⟩
  · rintro ⟨digits, more, rfl, isDigits, isRest⟩
    induction digits with
    | nil => exact (stops more (apart more isRest)).mpr isRest
    | cons c digits ih =>
      obtain ⟨digit, isDigits⟩ := List.forall_mem_cons.mp isDigits
      exact accepts_cons.mpr ⟨state, passes c digit, ih isDigits⟩

/-- A state that asks for a digit before it passes over digits. -/
theorem accepts_digits_iff {loop : NumberState} {rest : List Char → Prop}
    (unfinished : state.accepts = false)
    (opens : ∀ c, state.next c = if c.isDigit then some loop else none)
    (loops : ∀ text, loop.Accepts text ↔
      ∃ digits more, text = digits ++ more ∧ (∀ c ∈ digits, c.isDigit = true) ∧ rest more) :
    state.Accepts text ↔ ∃ digits more, text = digits ++ more ∧ Digits digits ∧ rest more := by
  constructor
  · intro accepted
    cases text with
    | nil => simp [accepts_nil, unfinished] at accepted
    | cons c text =>
      obtain ⟨s, moved, accepted⟩ := accepts_cons.mp accepted
      obtain ⟨digit, rfl⟩ : c.isDigit = true ∧ loop = s := by simpa [opens c] using moved
      obtain ⟨digits, more, rfl, isDigits, isRest⟩ := (loops text).mp accepted
      have all : ∀ d ∈ c :: digits, d.isDigit = true := List.forall_mem_cons.mpr ⟨digit, isDigits⟩
      exact ⟨c :: digits, more, rfl, ⟨List.cons_ne_nil c digits, all⟩, isRest⟩
  · rintro ⟨_ | ⟨c, digits⟩, more, rfl, ⟨nonempty, all⟩, isRest⟩
    · exact absurd rfl nonempty
    · obtain ⟨digit, isDigits⟩ := List.forall_mem_cons.mp all
      refine accepts_cons.mpr ⟨loop, by rw [opens, if_pos digit], ?_⟩
      exact (loops _).mpr ⟨digits, more, rfl, isDigits, isRest⟩

/-! ### From the last part to the first -/

theorem accepts_exponent_iff : exponent.Accepts text ↔
    ∃ digits more, text = digits ++ more ∧ (∀ c ∈ digits, c.isDigit = true) ∧ more = [] := by
  refine accepts_loop_iff ?_ ?_ ?_
  · intro c digit
    simp [next, next.exponentDigit, digit]
  · rintro (_ | ⟨c, text⟩) noDigit
    · simp [accepts_nil, accepts]
    · have other : c.isDigit = false := noDigit c rfl
      simp [accepts_cons, next, next.exponentDigit, other]
  · rintro _ rfl
    nofun

theorem accepts_markSign_iff : markSign.Accepts text ↔ Digits text := by
  have opens : ∀ c, markSign.next c = if c.isDigit then some exponent else none := fun _ => rfl
  rw [accepts_digits_iff rfl opens fun _ => accepts_exponent_iff]
  constructor
  · rintro ⟨digits, _, rfl, isDigits, rfl⟩
    rwa [List.append_nil]
  · intro isDigits
    exact ⟨text, [], (List.append_nil text).symm, isDigits, rfl⟩

/-- A state that may pass over a sign to another state, and is like that state otherwise. -/
theorem accepts_sign_iff (other : NumberState) (signs : List Char)
    (same : state.accepts = other.accepts)
    (passes : ∀ c ∈ signs, state.next c = some other)
    (refuses : ∀ c ∈ signs, other.next c = none)
    (alike : ∀ c ∉ signs, state.next c = other.next c) :
    state.Accepts text ↔
      ∃ sign rest, text = sign ++ rest ∧ sign ∈ [] :: signs.map ([·]) ∧ other.Accepts rest := by
  constructor
  · intro accepted
    cases text with
    | nil => exact ⟨[], [], rfl, List.mem_cons_self, by rwa [accepts_nil, ← same]⟩
    | cons c text =>
      by_cases isSign : c ∈ signs
      · obtain ⟨s, moved, accepted⟩ := accepts_cons.mp accepted
        obtain rfl : other = s := by simpa [passes c isSign] using moved
        exact ⟨[c], text, rfl, List.mem_cons_of_mem _ (List.mem_map_of_mem isSign), accepted⟩
      · have accepted := (accepts_cons_congr (alike c isSign)).mp accepted
        exact ⟨[], c :: text, rfl, List.mem_cons_self, accepted⟩
  · rintro ⟨sign, rest, rfl, member, accepted⟩
    rcases List.mem_cons.mp member with rfl | member
    · cases rest with
      | nil => rwa [List.append_nil, accepts_nil, same]
      | cons c rest =>
        have noSign : c ∉ signs := by
          intro isSign
          simp [accepts_cons, refuses c isSign] at accepted
        exact (accepts_cons_congr (alike c noSign)).mpr accepted
    · obtain ⟨c, isSign, rfl⟩ := List.mem_map.mp member
      exact accepts_cons.mpr ⟨other, passes c isSign, accepted⟩

/-- Behind the letter of an exponent there is a sign if one likes, and there are digits. -/
theorem accepts_mark_iff : mark.Accepts text ↔
    ∃ sign digits, text = sign ++ digits ∧ sign ∈ [[], ['+'], ['-']] ∧ Digits digits := by
  simp only [← accepts_markSign_iff]
  refine accepts_sign_iff markSign ['+', '-'] rfl ?_ ?_ ?_
  · intro c isSign
    exact if_pos (by simpa using isSign)
  · intro c isSign
    obtain rfl | rfl : c = '+' ∨ c = '-' := by simpa using isSign
    · rfl
    · rfl
  · intro c noSign
    exact if_neg (by simpa using noSign)

/-- What may follow the digits of a fraction. -/
theorem accepts_behindFraction_iff :
    (∃ s, next.behindFraction c = some s ∧ s.Accepts text) ↔ Exponent (c :: text) := by
  constructor
  · rintro ⟨s, moved, accepted⟩
    obtain ⟨isMark, rfl⟩ : (c = 'e' ∨ c = 'E') ∧ mark = s := by
      simpa [next.behindFraction] using moved
    obtain ⟨sign, digits, rfl, isSign, isDigits⟩ := accepts_mark_iff.mp accepted
    exact ⟨c, sign, digits, rfl, isMark, isSign, isDigits⟩
  · rintro ⟨_, sign, digits, ⟨⟩, isMark, isSign, isDigits⟩
    refine ⟨mark, if_pos isMark, ?_⟩
    exact accepts_mark_iff.mpr ⟨sign, digits, rfl, isSign, isDigits⟩

theorem accepts_fraction_iff : fraction.Accepts text ↔
    ∃ digits more, text = digits ++ more ∧ (∀ c ∈ digits, c.isDigit = true) ∧
      Optional Exponent more := by
  refine accepts_loop_iff ?_ ?_ ?_
  · intro c digit
    simp [next, digit]
  · rintro (_ | ⟨c, text⟩) noDigit
    · simp [accepts_nil, accepts, Optional]
    · have other : c.isDigit = false := noDigit c rfl
      simp [accepts_cons, next, other, accepts_behindFraction_iff, Optional]
  · rintro _ (rfl | ⟨_, sign, digits, rfl, isMark, -⟩)
    · nofun
    · rintro _ ⟨⟩
      rcases isMark with rfl | rfl <;> rfl

theorem accepts_point_iff : point.Accepts text ↔
    ∃ digits more, text = digits ++ more ∧ Digits digits ∧ Optional Exponent more :=
  accepts_digits_iff rfl (fun _ => rfl) fun _ => accepts_fraction_iff

theorem tail_cons_iff : Tail (c :: text) ↔
    (c = '.' ∧ ∃ digits more, text = digits ++ more ∧ Digits digits ∧ Optional Exponent more) ∨
      Exponent (c :: text) := by
  constructor
  · rintro ⟨_, exponent, whole, rfl | ⟨digits, rfl, isDigits⟩, isExponent⟩
    · obtain rfl : c :: text = exponent := whole
      exact .inr (isExponent.resolve_left nofun)
    · obtain ⟨rfl, rfl⟩ := List.cons.inj whole
      exact .inl ⟨rfl, digits, exponent, rfl, isDigits, isExponent⟩
  · rintro (⟨rfl, digits, more, rfl, isDigits, isExponent⟩ | isExponent)
    · exact ⟨'.' :: digits, more, rfl, .inr ⟨digits, rfl, isDigits⟩, isExponent⟩
    · exact ⟨[], c :: text, rfl, .inl rfl, .inr isExponent⟩

theorem accepts_zero_iff : zero.Accepts text ↔ Tail text := by
  cases text with
  | nil => exact ⟨fun _ => ⟨[], [], rfl, .inl rfl, .inl rfl⟩, fun _ => rfl⟩
  | cons c text =>
    rw [tail_cons_iff]
    by_cases isPoint : c = '.'
    · subst isPoint
      have noExponent : ¬ Exponent ('.' :: text) := by
        rintro ⟨_, _, _, ⟨⟩, isMark, -⟩
        simp at isMark
      simp [accepts_cons, next, next.behindWhole, accepts_point_iff, noExponent]
    · simp [accepts_cons, next, next.behindWhole, isPoint, accepts_behindFraction_iff]

theorem accepts_whole_iff : whole.Accepts text ↔
    ∃ digits more, text = digits ++ more ∧ (∀ c ∈ digits, c.isDigit = true) ∧ Tail more := by
  refine accepts_loop_iff ?_ ?_ ?_
  · intro c digit
    exact if_pos digit
  · rintro (_ | ⟨c, text⟩) noDigit <;> rw [← accepts_zero_iff]
    · rfl
    · have other : c.isDigit = false := noDigit c rfl
      exact accepts_cons_congr (by simp [next, other])
  · rintro (_ | ⟨c, text⟩) isTail
    · nofun
    · rintro _ ⟨⟩
      rcases tail_cons_iff.mp isTail with ⟨rfl, -⟩ | ⟨_, _, _, ⟨⟩, isMark, -⟩
      · rfl
      · rcases isMark with rfl | rfl <;> rfl

/-- A number without a sign. -/
theorem accepts_unsigned_iff : sign.Accepts text ↔
    ∃ whole tail, text = whole ++ tail ∧ Whole whole ∧ Tail tail := by
  constructor
  · intro accepted
    cases text with
    | nil => cases accepted
    | cons c text =>
      obtain ⟨s, moved, accepted⟩ := accepts_cons.mp accepted
      by_cases isZero : c = '0'
      · subst isZero
        obtain rfl : zero = s := by simpa [next, next.firstDigit] using moved
        exact ⟨['0'], text, rfl, .inl rfl, accepts_zero_iff.mp accepted⟩
      · obtain ⟨digit, rfl⟩ : c.isDigit = true ∧ whole = s := by
          simpa [next, next.firstDigit, isZero] using moved
        obtain ⟨digits, more, rfl, isDigits, isTail⟩ := accepts_whole_iff.mp accepted
        refine ⟨c :: digits, more, rfl, .inr ⟨⟨List.cons_ne_nil c digits, ?_⟩, ?_⟩, isTail⟩
        · exact List.forall_mem_cons.mpr ⟨digit, isDigits⟩
        · simpa using isZero
  · rintro ⟨_, tail, rfl, rfl | ⟨⟨nonempty, isDigits⟩, notZero⟩, isTail⟩
    · exact accepts_cons.mpr ⟨zero, rfl, accepts_zero_iff.mpr isTail⟩
    · obtain ⟨c, digits, rfl⟩ := List.exists_cons_of_ne_nil nonempty
      obtain ⟨digit, isDigits⟩ := List.forall_mem_cons.mp isDigits
      have other : c ≠ '0' := by simpa using notZero
      refine accepts_cons.mpr ⟨whole, by simp [next, next.firstDigit, other, digit], ?_⟩
      exact accepts_whole_iff.mpr ⟨digits, tail, rfl, isDigits, isTail⟩

end NumberState

/-- The check accepts numbers and nothing else. -/
theorem isNumber_iff : isNumber text = true ↔ NumberText text := by
  change NumberState.start.Accepts text ↔ _
  refine (NumberState.accepts_sign_iff .sign ['-'] ?_ ?_ ?_ ?_).trans ?_
  · rfl
  · intro c isSign
    exact if_pos (List.mem_singleton.mp isSign)
  · intro c isSign
    obtain rfl := List.mem_singleton.mp isSign
    rfl
  · intro c noSign
    exact if_neg (mt List.mem_singleton.mpr noSign)
  · constructor
    · rintro ⟨sign, _, rfl, isSign, accepted⟩
      obtain ⟨whole, tail, rfl, isWhole, isTail⟩ := NumberState.accepts_unsigned_iff.mp accepted
      exact ⟨sign, whole, tail, rfl, isSign, isWhole, isTail⟩
    · rintro ⟨sign, whole, tail, rfl, isSign, isWhole, isTail⟩
      refine ⟨sign, whole ++ tail, rfl, isSign, ?_⟩
      exact NumberState.accepts_unsigned_iff.mpr ⟨whole, tail, rfl, isWhole, isTail⟩

end Spire.Json
