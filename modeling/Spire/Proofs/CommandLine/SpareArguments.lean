import Spire.Proofs.CommandLine.Course
import Mathlib.Data.Nat.Find

/-!
# Arguments that change nothing

The passes over the arguments of a run look for different things, and an argument that is put in
may be seen by several of them. A flag that is there already, or that nothing looks for, is seen by
none in a way that matters, and neither is an input file behind the first one, as long as it does
not push away the value of a settings flag. Without a settings flag no place matters at all: what
counts is which flags there are, and the first argument that is no flag.

## Main definitions

* `Options.Spare` — arguments that can be put in at a place without changing anything

## Main results

* `Options.FirstInput.append` — the first input file stays what it is, whatever follows
* `Options.ofArgs_spare` — spare arguments leave the options as they are
* `Options.ofArgs_congr` — the options depend on the flags and on the first other argument
* `CommandLine.spare_arguments_change_nothing` — the same for the report of a run
-/

namespace Spire

namespace Options

variable {args other before after rest : List String} {arg flag word input : String} {i : Nat}
  {o : Options}

/-- Arguments that can be put in between `before` and `after` without changing anything. -/
inductive Spare (before after : List String) (arg : String) : Prop where
  /-- A flag that is there already. -/
  | repeated (isFlag : isFlag arg = true) (member : arg ∈ before ++ after)
      (other : arg ≠ "--config")
  /-- A flag that asks for nothing. -/
  | unheard (isFlag : isFlag arg = true)
      (unheard : arg ∉ ["--help", "--lex", "--json", "--noise", "--trace", "--config"])
  /-- One more input file behind the first one. -/
  | further (notFlag : isFlag arg = false) (notHelp : arg ≠ "-h")
      (behind : ∃ i < before.length, IsInput (before ++ after) i)

/-! ### Flags -/

/-- A word that means nothing wherever it stands asks for nothing. -/
theorem heeding_of_notMem (unheard : word ∉ words) : o.heeding word = o := by
  have differs : ∀ asked ∈ words, (word == asked) = false := by
    intro asked member
    exact beq_eq_false_iff_ne.mpr fun same => unheard (same ▸ member)
  simp only [words, List.forall_mem_cons] at differs
  obtain ⟨help, short, lex, json, noise, trace, -⟩ := differs
  simp only [heeding, help, short, lex, json, noise, trace, Bool.or_false]

/-- A word that is there already asks for nothing new. -/
theorem heeding_of_mem (member : word ∈ args) : (ofArgs args).heeding word = ofArgs args := by
  have known : ∀ asked : String, (args.contains asked || word == asked) = args.contains asked := by
    intro asked
    rw [Bool.or_eq_left_iff_imp, beq_iff_eq, List.contains_iff_mem]
    rintro rfl
    exact member
  simp only [heeding, ofArgs, known]
  have help := known "--help"
  have short := known "-h"
  congr 1
  grind

/-! ### Input files behind the first one -/

/-- Values of the settings flag are told by what stands in front of them. -/
theorem isValue_append (inside : i ≤ before.length) :
    IsValue (before ++ rest) i ↔ IsValue before i := by
  induction i with
  | zero => rfl
  | succ i ih =>
    rw [IsValue, IsValue, ih (Nat.le_of_succ_le inside), List.getElem?_append_left inside]

theorem isInput_append (inside : i < before.length) :
    IsInput (before ++ rest) i ↔ IsInput before i := by
  rw [IsInput, IsInput, isValue_append (Nat.le_of_lt inside), List.getElem?_append_left inside]

/-- There is no value directly behind another argument than the settings flag. -/
theorem not_isValue_of_getLast? (apart : before.getLast? ≠ some settingsFlag)
    (after : List String) : ¬ IsValue (before ++ after) before.length := by
  rw [isValue_append (Nat.le_refl _)]
  cases length : before.length with
  | zero => exact id
  | succ i =>
    rintro ⟨named, -⟩
    apply apart
    rw [List.getLast?_eq_getElem?, length]
    exact named

/-- The first input file stays what it is, whatever follows. -/
theorem FirstInput.append (first : FirstInput before input) (rest : List String) :
    FirstInput (before ++ rest) input := by
  obtain ⟨i, found, isInput, none⟩ := first
  have inside : i < before.length := (List.getElem?_eq_some_iff.mp found).1
  refine ⟨i, ?_, (isInput_append inside).mpr isInput, ?_⟩
  · rwa [List.getElem?_append_left inside]
  · intro j earlier
    rw [isInput_append (Nat.lt_trans earlier inside)]
    exact none j earlier

/-- If there is an input file there is a first one. -/
theorem IsInput.exists_firstInput (isInput : IsInput args i) : ∃ input, FirstInput args input := by
  classical
  have some : ∃ i, IsInput args i := ⟨i, isInput⟩
  obtain ⟨⟨input, found, -⟩, -⟩ := Nat.find_spec some
  exact ⟨input, Nat.find some, found, Nat.find_spec some, fun j => Nat.find_min some⟩

/-- An argument behind the first input file does not change what the input is. -/
theorem head?_inputs_further (behind : ∃ i < before.length, IsInput (before ++ after) i) :
    (inputs (before ++ arg :: after)).head? = (inputs (before ++ after)).head? := by
  obtain ⟨i, inside, isInput⟩ := behind
  -- The first input file is in `before` already, where neither list has changed.
  obtain ⟨input, first⟩ := ((isInput_append inside).mp isInput).exists_firstInput
  rw [head?_inputs_eq_some_iff.mpr (first.append after),
    head?_inputs_eq_some_iff.mpr (first.append (arg :: after))]

/-- Spare arguments leave the options as they are, anywhere but directly behind a settings flag. -/
theorem ofArgs_spare (spare : Spare before after arg) (nonempty : before ++ after ≠ [])
    (apart : before.getLast? ≠ some settingsFlag) :
    ofArgs (before ++ arg :: after) = ofArgs (before ++ after) := by
  have noValue := not_isValue_of_getLast? apart after
  cases spare with
  | repeated isFlag member other =>
    rw [ofArgs_insert isFlag other noValue nonempty, heeding_of_mem member]
  | unheard isFlag unheard =>
    have other : arg ≠ settingsFlag := by
      rintro rfl
      exact unheard (by decide)
    have notShort : arg ≠ "-h" := by
      rintro rfl
      cases isFlag
    have others : ∀ word ∈ words, word ≠ "-h" →
        word ∈ ["--help", "--lex", "--json", "--noise", "--trace", "--config"] := by
      decide
    have noWord : arg ∉ words := fun member => unheard (others arg member notShort)
    rw [ofArgs_insert isFlag other noValue nonempty, heeding_of_notMem noWord]
  | further notFlag notHelp behind =>
    have flags : ∀ word ∈ settingsFlag :: words, word ≠ "-h" → Options.isFlag word = true := by
      decide
    have apartFrom : ∀ word ∈ settingsFlag :: words, arg ≠ word := by
      rintro word member rfl
      rw [flags arg member notHelp] at notFlag
      cases notFlag
    have other := apartFrom settingsFlag List.mem_cons_self
    have noWord : arg ∉ words := fun member => apartFrom arg (List.mem_cons_of_mem _ member) rfl
    rw [ofArgs_heeding other noValue nonempty (head?_inputs_further behind),
      heeding_of_notMem noWord]

/-! ### Arguments without a settings flag -/

/-- Without a settings flag every argument that is no flag names an input file. -/
theorem inputs_eq_filter (absent : settingsFlag ∉ args) :
    inputs args = args.filter fun arg => !isFlag arg := by
  induction args with
  | nil => rfl
  | cons arg args ih =>
    rw [List.mem_cons, not_or] at absent
    cases argFlag : isFlag arg with
    | true => simp [inputs_cons_of_flag argFlag (Ne.symm absent.1), argFlag, ih absent.2]
    | false => simp [inputs_cons_of_not_flag argFlag, argFlag, ih absent.2]

theorem valueOf_eq_none (absent : flag ∉ args) : valueOf flag args = none := by
  induction args with
  | nil => rfl
  | cons arg args ih =>
    rw [List.mem_cons, not_or] at absent
    rw [valueOf, if_neg (Ne.symm absent.1), ih absent.2]

/-- There are no arguments if there are neither flags nor others. -/
theorem eq_nil_iff : args = [] ↔
    (∀ flag, isFlag flag = true → flag ∉ args) ∧ args.find? (!isFlag ·) = none := by
  refine ⟨by rintro rfl; simp, ?_⟩
  rintro ⟨noFlag, noOther⟩
  rw [List.find?_eq_none] at noOther
  refine List.eq_nil_iff_forall_not_mem.mpr fun arg member => ?_
  have argFlag : isFlag arg = true := by simpa using noOther arg member
  exact noFlag arg argFlag member

/-- Without a settings flag and the short word for help, the options depend on the flags, in any
order and number, and on the first argument that is no flag. -/
theorem ofArgs_congr (noSettings : settingsFlag ∉ args ∧ settingsFlag ∉ other)
    (notShort : "-h" ∉ args ∧ "-h" ∉ other)
    (sameFlags : ∀ flag, isFlag flag = true → (flag ∈ args ↔ flag ∈ other))
    (sameInput : args.find? (!isFlag ·) = other.find? (!isFlag ·)) :
    ofArgs args = ofArgs other := by
  have heard : ∀ word, isFlag word = true → args.contains word = other.contains word := by
    intro word isWord
    rw [Bool.eq_iff_iff, List.contains_iff_mem, List.contains_iff_mem]
    exact sameFlags word isWord
  have empty : args.isEmpty = other.isEmpty := by
    rw [Bool.eq_iff_iff, List.isEmpty_iff, List.isEmpty_iff, eq_nil_iff, eq_nil_iff, sameInput]
    refine and_congr_left' (forall₂_congr fun flag isFlag => ?_)
    rw [sameFlags flag isFlag]
  have short : args.contains "-h" = other.contains "-h" := by simp [notShort]
  have input : (inputs args).head? = (inputs other).head? := by
    rw [inputs_eq_filter noSettings.1, inputs_eq_filter noSettings.2, List.head?_filter,
      List.head?_filter, sameInput]
  have value : valueOf settingsFlag args = valueOf settingsFlag other := by
    rw [valueOf_eq_none noSettings.1, valueOf_eq_none noSettings.2]
  rw [ofArgs, ofArgs, empty, short, input, value,
    heard "--help" (by decide), heard "--lex" (by decide), heard "--json" (by decide),
    heard "--noise" (by decide), heard "--trace" (by decide)]

end Options

namespace CommandLine

/-- **Spare arguments.** A flag that is there already or that asks for nothing, and an input file
behind the first one, can be put in anywhere but directly behind a settings flag: exit code and
printed lines stay the same. Without settings flags, two lists of arguments with the same flags and
the same first argument beside them give the same report. -/
theorem spare_arguments_change_nothing (fs : FileSystem) :
    (∀ before arg after, before ++ after ≠ [] → before.getLast? ≠ some "--config" →
      Options.Spare before after arg →
        run fs (before ++ arg :: after) = run fs (before ++ after)) ∧
    ∀ args other : List String, "--config" ∉ args ∧ "--config" ∉ other →
      "-h" ∉ args ∧ "-h" ∉ other →
      (∀ flag, Options.isFlag flag = true → (flag ∈ args ↔ flag ∈ other)) →
      args.find? (!Options.isFlag ·) = other.find? (!Options.isFlag ·) →
        run fs args = run fs other := by
  constructor
  · intro before arg after nonempty apart spare
    exact congrArg (runWith fs) (Options.ofArgs_spare spare nonempty apart)
  · intro args other noSettings notShort sameFlags sameInput
    exact congrArg (runWith fs) (Options.ofArgs_congr noSettings notShort sameFlags sameInput)

/-- A word that is there as the value of the settings flag is put in as a flag; an input file is put
in behind one that follows a settings flag with a settings flag as its value; and flags are moved
and repeated around the first of two input files. -/
theorem spare_arguments_change_nothing_at_values :
    run (fileSystemOf [("--lex", "\x7b\x7d"), ("idle", "nop")])
        ([] ++ "--lex" :: ["--config", "--lex", "idle"]) =
      run (fileSystemOf [("--lex", "\x7b\x7d"), ("idle", "nop")])
        ([] ++ ["--config", "--lex", "idle"]) ∧
    run (fileSystemOf [("--config", "[]"), ("idle", "nop")])
        (["--config", "--config", "idle"] ++ "other" :: ["--trace"]) =
      run (fileSystemOf [("--config", "[]"), ("idle", "nop")])
        (["--config", "--config", "idle"] ++ ["--trace"]) ∧
    run (fileSystemOf [("idle", "fn"), ("other", "nop")]) ["--json", "--trace", "idle", "other"] =
      run (fileSystemOf [("idle", "fn"), ("other", "nop")])
        ["--trace", "idle", "--json", "--trace"] := by
  refine ⟨?_, ?_, ?_⟩
  · exact (spare_arguments_change_nothing _).1 [] "--lex" _ (by decide) (by decide)
      (.repeated (by decide) (by decide) (by decide))
  · refine (spare_arguments_change_nothing _).1 _ "other" _ (by decide) (by decide)
      (.further (by decide) (by decide) ⟨2, by decide, ⟨"idle", rfl, by decide⟩, ?_⟩)
    simp [Options.IsValue, Options.settingsFlag]
  · refine (spare_arguments_change_nothing _).2 _ _ (by decide) (by decide) ?_ (by decide)
    intro flag isFlag
    have notOther : flag ≠ "other" := by
      rintro rfl
      cases isFlag
    simp only [List.mem_cons, List.not_mem_nil, or_false]
    grind

end CommandLine

end Spire
