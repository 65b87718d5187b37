import Spire.Proofs.CommandLine.Course

/-!
# Printing trees

A run that is to print a tree does with the text of its input file what parsing does: it prints the
tree if there is one, and nothing of a tree if there is none. What it prints depends on the text,
on whether a trace is wanted, and on the format of the tree; the choices about noise are for the
printing of tokens and change nothing here.

## Main results

* `CommandLine.Supplied.run_congr_of_not_lex` — what a printed tree depends on
* `CommandLine.tree_mode_agrees_with_parse` — the tree, the failure, and the choices about noise
-/

namespace Spire.CommandLine

variable {fs fs' : FileSystem} {args args' : List String} {input input' source : String}
  {s s' : Settings}

theorem traced_congr (trace : "--trace" ∈ args' ↔ "--trace" ∈ args) :
    traced args' source = traced args source := by
  simp only [traced, trace]

/-- Two runs that are to print the tree of one text report the same if both want a trace or
neither does, and if both come to the same format. -/
theorem Supplied.run_congr_of_not_lex (supplied : Supplied fs args input source s)
    (supplied' : Supplied fs' args' input' source s') (silent : ¬ Options.AsksHelp args)
    (silent' : ¬ Options.AsksHelp args') (noLex : "--lex" ∉ args) (noLex' : "--lex" ∉ args')
    (trace : "--trace" ∈ args' ↔ "--trace" ∈ args)
    (format : ("--json" ∈ args' ∨ s'.treeFormat? = some .json) ↔
      ("--json" ∈ args ∨ s.treeFormat? = some .json)) :
    run fs' args' = run fs args := by
  cases outcome : (parse source).outcome with
  | ok tree =>
    obtain ⟨drawing, drawn, ran⟩ := supplied.run_of_accepted silent noLex outcome
    obtain ⟨drawing', drawn', ran'⟩ := supplied'.run_of_accepted silent' noLex' outcome
    obtain rfl : drawing = drawing' := Except.ok.inj (drawn.symm.trans drawn')
    rw [ran, ran', traced_congr trace]
    simp only [format]
  | error failure =>
    rw [supplied.run_of_refused silent noLex outcome,
      supplied'.run_of_refused silent' noLex' outcome, traced_congr trace]
    simp only [complaint, trace]

/-- **Printing trees.** If there is a tree, a run prints the trace that is wanted and then one
text, the JSON of the tree if the arguments or the settings ask for it and the drawing otherwise.
If there is none, it prints the trace that is wanted and reports the failure of the parse. The flag
for noise changes nothing wherever it stands as a flag, and neither does a setting for noise. -/
theorem tree_mode_agrees_with_parse (noHelp : "--help" ∉ args) (noShort : "-h" ∉ args)
    (noLex : "--lex" ∉ args) (supplied : Supplied fs args input source s) :
    (∀ tree, (parse source).outcome = .ok tree →
      ∃ drawing, tree.draw = .ok drawing ∧
        (run fs args).code = 0 ∧
        (run fs args).output = (if "--trace" ∈ args then (parse source true).printed else []) ++
          [if "--json" ∈ args ∨ s.treeFormat? = some .json then tree.toJson.write 2
            else drawing] ∧
        (run fs args).errors = []) ∧
    (∀ failure, (parse source).outcome = .error failure →
      (run fs args).code = 1 ∧
      (run fs args).output = (if "--trace" ∈ args then (parse source true).printed else []) ∧
      (run fs args).errors = ("Error: " ++ failure.message) ::
        if "--trace" ∈ args then [(Line.origin (.source failure)).text] else []) ∧
    (∀ before after, args = before ++ after → ¬ Options.IsValue args before.length →
      run fs (before ++ "--noise" :: after) = run fs args) ∧
    (∀ fs' s', Supplied fs' args input source s' → s'.treeFormat? = s.treeFormat? →
      run fs' args = run fs args) := by
  have silent : ¬ Options.AsksHelp args := supplied.not_asksHelp noHelp noShort
  refine ⟨?_, ?_, ?_, ?_⟩
  · intro tree accepted
    obtain ⟨drawing, drawn, ran⟩ := supplied.run_of_accepted silent noLex accepted
    refine ⟨drawing, drawn, ?_⟩
    rw [ran]
    exact ⟨rfl, Report.output_map_out _, Report.errors_map_out _⟩
  · intro failure refused
    rw [supplied.run_of_refused silent noLex refused]
    refine ⟨rfl, ?_, ?_⟩
    · rw [Report.output_append, Report.output_map_out, output_complaint, List.append_nil]
      rfl
    · rw [Report.errors_append, Report.errors_map_out, errors_complaint, List.nil_append]
      rfl
  · rintro before after rfl apart
    have supplied' : Supplied fs (before ++ "--noise" :: after) input source s :=
      supplied.insert (by decide) (by decide) apart
    refine supplied.run_congr_of_not_lex supplied' silent ?_ noLex ?_ ?_ ?_
    · exact supplied'.not_asksHelp (by simpa using noHelp) (by simpa using noShort)
    · simpa using noLex
    · simp
    · simp
  · intro fs' s' supplied' sameFormat
    exact supplied.run_congr_of_not_lex supplied' silent silent noLex noLex Iff.rfl
      (by rw [sameFormat])

/-- A text with a tree, a text without one, settings that are found for them, and others. -/
def desk : FileSystem :=
  fileSystemOf [("idle.spr", "fn idle() \x7b nop \x7d"), ("open.spr", "fn open("),
    (".spirerc.json", "\x7b \"astFormat\": \"json\" \x7d"),
    ("other.json", "\x7b \"astFormat\": \"tree\", \"showNoise\": true \x7d")]

/-- The JSON of a tree behind its trace, as the settings have it that are found; its drawing with
the others, which a flag names; and a failure that is reported with nothing else. -/
theorem tree_mode_agrees_with_parse_at_desk :
    (∃ tree drawing, (parse "fn idle() \x7b nop \x7d").outcome = .ok tree ∧
      tree.draw = .ok drawing ∧
      (run desk ["--trace", "idle.spr"]).code = 0 ∧
      (run desk ["--trace", "idle.spr"]).output =
        (parse "fn idle() \x7b nop \x7d" true).printed ++ [tree.toJson.write 2] ∧
      (run desk ["--trace", "idle.spr"]).errors = [] ∧
      (run desk ["--config", "other.json", "idle.spr"]).output = [drawing]) ∧
    (run desk ["open.spr"]).code = 1 ∧ (run desk ["open.spr"]).output = [] ∧
      (run desk ["open.spr"]).errors =
        ["Error: Parse error at end of input: Expected RPARENTHESES but input ended"] := by
  constructor
  · have found : Supplied desk ["--trace", "idle.spr"] "idle.spr" "fn idle() \x7b nop \x7d"
        { treeFormat? := some .json } :=
      ⟨by decide, by decide +kernel, by decide +kernel⟩
    have named : Supplied desk ["--config", "other.json", "idle.spr"] "idle.spr"
        "fn idle() \x7b nop \x7d" ⟨some .tree, some true⟩ :=
      ⟨by decide, by decide +kernel, by decide +kernel⟩
    let tree : Tree := .source [.node ⟨.fn, "fn", ⟨1, 1⟩⟩
      [.leaf ⟨.name, "idle", ⟨1, 4⟩⟩, .source [.leaf ⟨.nop, "nop", ⟨1, 13⟩⟩]]]
    have accepted : (parse "fn idle() \x7b nop \x7d").outcome = .ok tree := by decide +kernel
    obtain ⟨drawing, drawn, code, output, errors⟩ :=
      (tree_mode_agrees_with_parse (by decide) (by decide) (by decide) found).1 tree accepted
    obtain ⟨_, drawn', -, output', -⟩ :=
      (tree_mode_agrees_with_parse (by decide) (by decide) (by decide) named).1 tree accepted
    obtain rfl := Except.ok.inj (drawn.symm.trans drawn')
    exact ⟨tree, drawing, accepted, drawn, code, output, errors, output'⟩
  · have supplied : Supplied desk ["open.spr"] "open.spr" "fn open("
        { treeFormat? := some .json } :=
      ⟨by decide, by decide +kernel, by decide +kernel⟩
    have refused : (parse "fn open(").outcome =
        .error (.parse (.unexpectedEnd (.kind .rightParen))) := by decide +kernel
    exact (tree_mode_agrees_with_parse (by decide) (by decide) (by decide) supplied).2.1 _ refused

end Spire.CommandLine
