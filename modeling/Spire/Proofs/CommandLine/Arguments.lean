import Spire.CommandLine.Options

/-!
# Passes over the arguments

The options of a run come from several passes over its arguments. One looks for the words that
mean something wherever they stand, one for the value of the settings flag, and one for the
arguments that name input files. This file says what the last one finds in terms of places: an
argument is passed over if it is a flag, or if it stands behind a settings flag that is not itself
passed over as a value. It also says what becomes of the options when a flag is put in, or when
the value of the settings flag is exchanged.

## Main definitions

* `Options.AsksHelp` — arguments that ask for help
* `Options.IsValue`, `Options.IsInput` — places of values and of input files
* `Options.FirstInput` — the first argument that names an input file
* `Options.heeding` — options with what one more word asks for
* `Options.words` — the words that mean something wherever they stand
* `Options.NamesSettings` — the path behind the first settings flag, if it is one

## Main results

* `Options.input?_ofArgs_eq_some_iff` — the input of a run is the first input file
* `Options.settingsPath?_ofArgs_eq_some_iff` — the settings path of a run is the one that is named
* `Options.ofArgs_insert` — a flag does what it asks for and nothing else
* `Options.ofArgs_value` — another value of the settings flag is another settings path, unless
  one of the two is a word that means something wherever it stands
-/

namespace Spire.Options

variable {args before after : List String} {arg flag value word input : String} {i : Nat}

/-! ### Places -/

/-- Arguments that ask for help: none at all, or one of the two words for it. -/
def AsksHelp (args : List String) : Prop :=
  args = [] ∨ "--help" ∈ args ∨ "-h" ∈ args

/-- There is a value of the settings flag at a place: the flag stands in front of it, and is not
a value itself. -/
def IsValue (args : List String) : Nat → Prop
  | 0 => False
  | i + 1 => args[i]? = some settingsFlag ∧ ¬ IsValue args i

/-- There is an input file at a place: an argument that is no flag and no value. -/
def IsInput (args : List String) (i : Nat) : Prop :=
  (∃ arg, args[i]? = some arg ∧ isFlag arg = false) ∧ ¬ IsValue args i

/-- The argument at the first place with an input file. -/
def FirstInput (args : List String) (input : String) : Prop :=
  ∃ i, args[i]? = some input ∧ IsInput args i ∧ ∀ j < i, ¬ IsInput args j

@[simp] theorem lex_ofArgs : (ofArgs args).lex = decide ("--lex" ∈ args) := by
  simp [ofArgs]

@[simp] theorem json_ofArgs : (ofArgs args).json = decide ("--json" ∈ args) := by
  simp [ofArgs]

@[simp] theorem noise_ofArgs : (ofArgs args).noise = decide ("--noise" ∈ args) := by
  simp [ofArgs]

@[simp] theorem trace_ofArgs : (ofArgs args).trace = decide ("--trace" ∈ args) := by
  simp [ofArgs]

theorem help_ofArgs_iff : (ofArgs args).help = true ↔ AsksHelp args := by
  simp [ofArgs, AsksHelp, or_assoc]

theorem not_asksHelp (nonempty : args ≠ []) (noHelp : "--help" ∉ args) (noShort : "-h" ∉ args) :
    ¬ AsksHelp args := by
  simp [AsksHelp, nonempty, noHelp, noShort]

/-- Behind another argument than the settings flag, values stand where they stood before. -/
theorem isValue_cons (other : arg ≠ settingsFlag) :
    IsValue (arg :: args) (i + 1) ↔ IsValue args i := by
  induction i with
  | zero => simp [IsValue, other]
  | succ i ih => rw [IsValue, ih, IsValue, List.getElem?_cons_succ]

/-- Behind the settings flag and its value, values stand where they stood before. -/
theorem isValue_settings :
    IsValue (settingsFlag :: value :: args) (i + 2) ↔ IsValue args i := by
  induction i with
  | zero => simp [IsValue]
  | succ i ih => rw [IsValue, ih, IsValue, List.getElem?_cons_succ, List.getElem?_cons_succ]

theorem isInput_cons (other : arg ≠ settingsFlag) :
    IsInput (arg :: args) (i + 1) ↔ IsInput args i := by
  rw [IsInput, IsInput, isValue_cons other, List.getElem?_cons_succ]

theorem isInput_settings :
    IsInput (settingsFlag :: value :: args) (i + 2) ↔ IsInput args i := by
  rw [IsInput, IsInput, isValue_settings, List.getElem?_cons_succ, List.getElem?_cons_succ]

theorem isInput_zero : IsInput (arg :: args) 0 ↔ isFlag arg = false := by
  simp [IsInput, IsValue]

theorem not_isInput_value : ¬ IsInput (settingsFlag :: value :: args) 1 := by
  simp [IsInput, IsValue]

/-- Arguments in front that hold no input file, and leave the places behind them as they are, do
not change what the first input file is. -/
theorem firstInput_append (none : ∀ i < before.length, ¬ IsInput (before ++ args) i)
    (shifted : ∀ i, IsInput (before ++ args) (before.length + i) ↔ IsInput args i) :
    FirstInput (before ++ args) input ↔ FirstInput args input := by
  constructor
  · rintro ⟨i, found, isInput, first⟩
    have behind : before.length ≤ i := Nat.le_of_not_lt fun inside => none i inside isInput
    obtain ⟨k, rfl⟩ := Nat.exists_eq_add_of_le behind
    refine ⟨k, ?_, (shifted k).mp isInput, ?_⟩
    · rwa [List.getElem?_append_right behind, Nat.add_sub_cancel_left] at found
    · intro j earlier
      rw [← shifted]
      exact first _ (Nat.add_lt_add_left earlier _)
  · rintro ⟨i, found, isInput, first⟩
    refine ⟨before.length + i, ?_, (shifted i).mpr isInput, ?_⟩
    · rwa [List.getElem?_append_right (Nat.le_add_right _ _), Nat.add_sub_cancel_left]
    · intro j earlier
      by_cases inside : j < before.length
      · exact none j inside
      · obtain ⟨k, rfl⟩ := Nat.exists_eq_add_of_le (Nat.le_of_not_lt inside)
        rw [shifted]
        exact first k (Nat.lt_of_add_lt_add_left earlier)

theorem not_firstInput_nil : ¬ FirstInput [] input := by
  rintro ⟨i, found, -⟩
  simp at found

theorem firstInput_cons_of_flag (isFlag : isFlag arg = true) (other : arg ≠ settingsFlag) :
    FirstInput (arg :: args) input ↔ FirstInput args input := by
  change FirstInput ([arg] ++ args) input ↔ _
  apply firstInput_append
  · intro i inside
    obtain rfl : i = 0 := by simpa using inside
    simp [isInput_zero, isFlag]
  · intro i
    rw [List.length_singleton, Nat.add_comm]
    exact isInput_cons other

theorem firstInput_settings :
    FirstInput (settingsFlag :: value :: args) input ↔ FirstInput args input := by
  change FirstInput ([settingsFlag, value] ++ args) input ↔ _
  apply firstInput_append
  · intro i inside
    match i, inside with
    | 0, _ =>
      rw [List.cons_append, isInput_zero]
      decide
    | 1, _ => exact not_isInput_value
  · intro i
    rw [Nat.add_comm]
    exact isInput_settings

theorem firstInput_cons_of_not_flag (notFlag : isFlag arg = false) :
    FirstInput (arg :: args) input ↔ arg = input := by
  constructor
  · rintro ⟨_ | i, found, -, first⟩
    · simpa using found
    · exact absurd (isInput_zero.mpr notFlag) (first 0 (Nat.succ_pos i))
  · rintro rfl
    exact ⟨0, rfl, isInput_zero.mpr notFlag, nofun⟩

/-! ### Input files -/

theorem isFlag_settingsFlag : isFlag settingsFlag = true := by
  decide

theorem inputs_cons_of_flag (isFlag : isFlag arg = true) (other : arg ≠ settingsFlag) :
    inputs (arg :: args) = inputs args := by
  cases args <;> simp [inputs, isFlag, other]

theorem inputs_cons_of_not_flag (notFlag : isFlag arg = false) :
    inputs (arg :: args) = arg :: inputs args := by
  have other : arg ≠ settingsFlag := by
    rintro rfl
    simp [isFlag_settingsFlag] at notFlag
  cases args <;> simp [inputs, notFlag, other]

theorem inputs_settings : inputs (settingsFlag :: value :: args) = inputs args := by
  simp [inputs]

/-- What is passed over when input files are looked for is no first input file, and what is not
passed over is one. -/
theorem head?_inputs_eq_some_iff : (inputs args).head? = some input ↔ FirstInput args input := by
  fun_induction inputs args with
  | case1 => simp [not_firstInput_nil]
  | case2 arg isFlag =>
    -- A single flag is no input file, even if it is the settings flag without a value.
    simp only [List.head?_nil, reduceCtorEq, false_iff]
    rintro ⟨_ | i, found, isInput, -⟩
    · simp [isInput_zero, isFlag] at isInput
    · simp at found
  | case3 arg notFlag =>
    rw [firstInput_cons_of_not_flag (by simpa using notFlag)]
    simp
  | case4 value args ih => rw [ih, firstInput_settings]
  | case5 arg value args other isFlag ih => rw [ih, firstInput_cons_of_flag isFlag other]
  | case6 arg value args other notFlag ih =>
    rw [firstInput_cons_of_not_flag (by simpa using notFlag)]
    simp

/-- The input of a run is the first input file. -/
theorem input?_ofArgs_eq_some_iff : (ofArgs args).input? = some input ↔ FirstInput args input :=
  head?_inputs_eq_some_iff

theorem FirstInput.ne_nil (first : FirstInput args input) : args ≠ [] := by
  rintro rfl
  exact not_firstInput_nil first

instance (args : List String) (input : String) : Decidable (FirstInput args input) :=
  decidable_of_iff _ head?_inputs_eq_some_iff

/-! ### One more flag -/

/-- The options with what one more word asks for, wherever it stands. -/
def heeding (o : Options) (word : String) : Options :=
  { o with
    help := o.help || word == "--help" || word == "-h"
    lex := o.lex || word == "--lex"
    json := o.json || word == "--json"
    noise := o.noise || word == "--noise"
    trace := o.trace || word == "--trace" }

theorem inputs_insert (isFlag : isFlag flag = true) (other : flag ≠ settingsFlag)
    (apart : ¬ IsValue (before ++ after) before.length) :
    inputs (before ++ flag :: after) = inputs (before ++ after) := by
  fun_induction inputs before with
  | case1 => exact inputs_cons_of_flag isFlag other
  | case2 arg argFlag =>
    have argOther : arg ≠ settingsFlag := by simpa [IsValue] using apart
    simp [inputs_cons_of_flag argFlag argOther, inputs_cons_of_flag isFlag other]
  | case3 arg argNotFlag =>
    have argInput : Options.isFlag arg = false := by simpa using argNotFlag
    simp [inputs_cons_of_not_flag argInput, inputs_cons_of_flag isFlag other]
  | case4 value args ih =>
    simp only [List.cons_append, inputs_settings]
    exact ih (mt isValue_settings.mpr apart)
  | case5 arg value args argOther argFlag ih =>
    have shorter := ih (mt (isValue_cons argOther).mpr apart)
    simpa [inputs_cons_of_flag argFlag argOther] using shorter
  | case6 arg value args argOther argNotFlag ih =>
    have argInput : Options.isFlag arg = false := by simpa using argNotFlag
    have shorter := ih (mt (isValue_cons argOther).mpr apart)
    simpa [inputs_cons_of_not_flag argInput] using shorter

theorem valueOf_insert (other : arg ≠ settingsFlag)
    (apart : ¬ IsValue (before ++ after) before.length) :
    valueOf settingsFlag (before ++ arg :: after) = valueOf settingsFlag (before ++ after) := by
  induction before with
  | nil => simp [valueOf, other]
  | cons first before ih =>
    by_cases named : first = settingsFlag
    · -- The first settings flag keeps its value, since nothing is put in front of the value.
      cases before with
      | nil => exact absurd ⟨congrArg some named, id⟩ apart
      | cons value before => simp [valueOf, named]
    · have shorter := ih (mt (isValue_cons named).mpr apart)
      simpa [valueOf, named] using shorter

theorem isEmpty_insert : (before ++ arg :: after).isEmpty = false := by
  cases before <;> rfl

theorem mem_insert : word ∈ before ++ arg :: after ↔ word = arg ∨ word ∈ before ++ after :=
  List.perm_middle.mem_iff.trans List.mem_cons

theorem contains_insert :
    (before ++ arg :: after).contains word = ((before ++ after).contains word || arg == word) := by
  rw [Bool.eq_iff_iff, Bool.or_eq_true, List.contains_iff_mem, List.contains_iff_mem, beq_iff_eq,
    mem_insert, or_comm, eq_comm]

/-- An argument that is put in does what it asks for and nothing else, if it does not take the
place of the value of the settings flag, and the input stays what it is. -/
theorem ofArgs_heeding (other : arg ≠ settingsFlag)
    (apart : ¬ IsValue (before ++ after) before.length) (nonempty : before ++ after ≠ [])
    (sameInput : (inputs (before ++ arg :: after)).head? = (inputs (before ++ after)).head?) :
    ofArgs (before ++ arg :: after) = (ofArgs (before ++ after)).heeding arg := by
  have others : (before ++ after).isEmpty = false := by simpa using nonempty
  simp only [ofArgs, heeding, contains_insert, sameInput, valueOf_insert other apart,
    isEmpty_insert, others, Bool.false_or]
  congr 1
  grind

/-- A flag that is put in does what it asks for and nothing else, wherever it stands, as long as
it does not take the place of the value of the settings flag. -/
theorem ofArgs_insert (isFlag : isFlag flag = true) (other : flag ≠ settingsFlag)
    (apart : ¬ IsValue (before ++ after) before.length) (nonempty : before ++ after ≠ []) :
    ofArgs (before ++ flag :: after) = (ofArgs (before ++ after)).heeding flag := by
  refine ofArgs_heeding other apart nonempty ?_
  rw [inputs_insert isFlag other apart]

/-! ### The value of the settings flag -/

/-- The words that mean something wherever they stand. -/
def words : List String :=
  ["--help", "-h", "--lex", "--json", "--noise", "--trace"]

/-- The value of the first settings flag is no input file. -/
theorem inputs_value (first : settingsFlag ∉ before) :
    inputs (before ++ settingsFlag :: value :: after) = inputs (before ++ after) := by
  induction before with
  | nil => exact inputs_settings
  | cons arg before ih =>
    rw [List.mem_cons, not_or] at first
    have shorter := ih first.2
    -- In front of the first settings flag nothing is passed over but flags.
    by_cases argFlag : isFlag arg = true
    · simpa [inputs_cons_of_flag argFlag (Ne.symm first.1)] using shorter
    · simpa [inputs_cons_of_not_flag (by simpa using argFlag)] using shorter

theorem valueOf_value (first : flag ∉ before) :
    valueOf flag (before ++ flag :: value :: after) = some value := by
  induction before with
  | nil => simp [valueOf]
  | cons arg before ih =>
    rw [List.mem_cons, not_or] at first
    simp [valueOf, Ne.symm first.1, ih first.2]

theorem valueOf_eq_some_iff :
    valueOf flag args = some value ↔
      ∃ before after, args = before ++ flag :: value :: after ∧ flag ∉ before := by
  constructor
  · intro found
    induction args with
    | nil => cases found
    | cons arg args ih =>
      rw [valueOf] at found
      split at found
      · next same =>
        obtain ⟨after, rfl⟩ := List.head?_eq_some_iff.mp found
        exact ⟨[], after, by rw [same, List.nil_append], List.not_mem_nil⟩
      · next other =>
        obtain ⟨before, after, rfl, first⟩ := ih found
        exact ⟨arg :: before, after, rfl, by simp [Ne.symm other, first]⟩
  · rintro ⟨before, after, rfl, first⟩
    exact valueOf_value first

/-- A path of settings is named: it stands behind the first settings flag, and it is not empty. -/
def NamesSettings (args : List String) (path : String) : Prop :=
  (∃ before after, args = before ++ "--config" :: path :: after ∧ "--config" ∉ before) ∧ path ≠ ""

/-- The settings path of a run is the one that is named. -/
theorem settingsPath?_ofArgs_eq_some_iff {path : String} :
    (ofArgs args).settingsPath? = some path ↔ NamesSettings args path := by
  rw [ofArgs, Option.filter_eq_some_iff, valueOf_eq_some_iff, NamesSettings, settingsFlag]
  simp

theorem settingsPath?_value (first : settingsFlag ∉ before) (named : value ≠ "") :
    (ofArgs (before ++ settingsFlag :: value :: after)).settingsPath? = some value :=
  settingsPath?_ofArgs_eq_some_iff.mpr ⟨⟨before, after, rfl, first⟩, named⟩

/-- Another value of the first settings flag is another settings path, and nothing else, if every
word that means something wherever it stands is none of the two values or stands elsewhere, too. -/
theorem ofArgs_value {other : String} (first : settingsFlag ∉ before) (named : other ≠ "")
    (plain : ∀ word ∈ words, word ∉ before ++ after → word ≠ value ∧ word ≠ other) :
    ofArgs (before ++ settingsFlag :: other :: after) =
      { ofArgs (before ++ settingsFlag :: value :: after) with settingsPath? := some other } := by
  have heeded : ∀ word ∈ words, (before ++ settingsFlag :: other :: after).contains word =
      (before ++ settingsFlag :: value :: after).contains word := by
    intro word member
    have apart := plain word member
    rw [Bool.eq_iff_iff]
    simp only [List.contains_iff_mem, List.mem_append, List.mem_cons] at apart ⊢
    grind
  simp only [words, List.forall_mem_cons] at heeded
  obtain ⟨help, short, lex, json, noise, trace, -⟩ := heeded
  simp only [ofArgs, help, short, lex, json, noise, trace, isEmpty_insert, inputs_value first,
    valueOf_value first]
  simp [named]

end Spire.Options
