import Spire.Proofs.Json.Grammar
import Spire.Proofs.Json.Members
import Spire.Proofs.Settings.Search

/-!
# What a settings file may say

A settings file is JSON, an object, and two of its members are looked at: the format of trees, which
is one of two words, and the choice about noise, which is true or false. Each of these may be
missing. They are looked at in this order, so a bad format is what is reported of a file that has
both wrong, wherever the two stand. Nothing else in the file makes a difference: other members may
be put in, taken out and moved, and so may members of objects inside.

## Main definitions

* `Settings.FormatAllowed`, `Settings.ChoiceAllowed` — members whose values can be used
* `Settings.SaidBy` — settings that are what the members of an object say
* `Settings.Validates` — what comes of a text, by the value that it denotes
* `Settings.names` — the names of the members that are looked at

## Main results

* `Settings.ofJson_eq_ok_iff` — the settings of a value are what its members say
* `Settings.ofJson_edit` — a change of other members makes no difference
* `Settings.validates_ofText` — what comes of a text
* `Settings.validates_exactly` — the same for a file
-/

namespace Spire.Settings

variable {path text : String} {members : List (String × Json)} {json json' : Json}
  {s s' : Settings}

/-! ### The two members -/

/-- The format, if there is one, is one of the two words. -/
def FormatAllowed (members : List (String × Json)) : Prop :=
  ∀ format, Json.Given members "astFormat" format →
    format = .string "tree" ∨ format = .string "json"

/-- The choice about noise, if there is one, is true or false. -/
def ChoiceAllowed (members : List (String × Json)) : Prop :=
  ∀ value, Json.Given members "showNoise" value → ∃ choice, value = .bool choice

theorem readFormat_of_bad {format : Json} (notTree : format ≠ .string "tree")
    (notJson : format ≠ .string "json") :
    readFormat path (some format) = .error (.badFormat path) := by
  cases format with
  | string word =>
    have unknown : TreeFormat.ofName? word = none := by
      have notTree : "tree" ≠ word := fun same => notTree (congrArg Json.string same.symm)
      have notJson : "json" ≠ word := fun same => notJson (congrArg Json.string same.symm)
      simp [TreeFormat.ofName?, TreeFormat.all, TreeFormat.name, notTree, notJson]
    rw [readFormat, unknown]
  | null | bool | number | array | object => rfl

/-- A format that can be used is what the member says. -/
theorem exists_readFormat (allowed : FormatAllowed members) (path : String) :
    ∃ format?, readFormat path (Json.member? members "astFormat") = .ok format? ∧
      (format? = some .tree ↔ Json.Given members "astFormat" (.string "tree")) ∧
      (format? = some .json ↔ Json.Given members "astFormat" (.string "json")) := by
  simp only [← Json.member?_eq_some_iff]
  cases given : Json.member? members "astFormat" with
  | none => exact ⟨none, rfl, by simp, by simp⟩
  | some format =>
    rcases allowed format (Json.member?_eq_some_iff.mp given) with rfl | rfl
    · exact ⟨some .tree, rfl, by simp, by simp⟩
    · exact ⟨some .json, rfl, by simp, by simp⟩

theorem readShowNoise_of_bad {value : Json} (notBool : ∀ choice, value ≠ .bool choice) :
    readShowNoise path (some value) = .error (.badShowNoise path) := by
  cases value with
  | bool choice => exact absurd rfl (notBool choice)
  | null | number | string | array | object => rfl

/-- A choice that can be used is what the member says. -/
theorem exists_readShowNoise (allowed : ChoiceAllowed members) (path : String) :
    ∃ choice?, readShowNoise path (Json.member? members "showNoise") = .ok choice? ∧
      ∀ choice, choice? = some choice ↔ Json.Given members "showNoise" (.bool choice) := by
  simp only [← Json.member?_eq_some_iff]
  cases given : Json.member? members "showNoise" with
  | none => exact ⟨none, rfl, by simp⟩
  | some value =>
    obtain ⟨choice, rfl⟩ := allowed value (Json.member?_eq_some_iff.mp given)
    exact ⟨some choice, rfl, by simp⟩

/-! ### Values -/

theorem ofJson_of_not_object (other : ∀ members, json ≠ .object members) :
    ofJson path json = .error (.notObject path) := by
  cases json with
  | object members => exact absurd rfl (other members)
  | null | bool | number | string | array => rfl

theorem ofJson_of_bad_format {format : Json} (given : Json.Given members "astFormat" format)
    (notTree : format ≠ .string "tree") (notJson : format ≠ .string "json") :
    ofJson path (.object members) = .error (.badFormat path) := by
  rw [ofJson, Json.member?_eq_some_iff.mpr given, readFormat_of_bad notTree notJson]
  rfl

theorem ofJson_of_bad_choice {value : Json} (allowed : FormatAllowed members)
    (given : Json.Given members "showNoise" value) (notBool : ∀ choice, value ≠ .bool choice) :
    ofJson path (.object members) = .error (.badShowNoise path) := by
  obtain ⟨format?, format, -⟩ := exists_readFormat allowed path
  rw [ofJson, format, Json.member?_eq_some_iff.mpr given, readShowNoise_of_bad notBool]
  rfl

/-- The members can be used, what is set is what they give, and nothing else is set. -/
structure SaidBy (s : Settings) (members : List (String × Json)) : Prop where
  formatAllowed : FormatAllowed members
  choiceAllowed : ChoiceAllowed members
  isTree : s.treeFormat? = some .tree ↔ Json.Given members "astFormat" (.string "tree")
  isJson : s.treeFormat? = some .json ↔ Json.Given members "astFormat" (.string "json")
  isChoice : ∀ choice, s.showNoise? = some choice ↔ Json.Given members "showNoise" (.bool choice)

/-- Members say one thing only. -/
theorem SaidBy.unique (said : s.SaidBy members) (said' : s'.SaidBy members) : s = s' := by
  have sameFormat : s.treeFormat? = s'.treeFormat? := by
    refine Option.ext fun format => ?_
    cases format with
    | tree => exact said.isTree.trans said'.isTree.symm
    | json => exact said.isJson.trans said'.isJson.symm
  have sameChoice : s.showNoise? = s'.showNoise? :=
    Option.ext fun choice => (said.isChoice choice).trans (said'.isChoice choice).symm
  cases s
  cases s'
  exact congrArg₂ Settings.mk sameFormat sameChoice

/-- Members that can be used give the settings that they say. -/
theorem exists_ofJson (formatAllowed : FormatAllowed members)
    (choiceAllowed : ChoiceAllowed members) (path : String) :
    ∃ s, ofJson path (.object members) = .ok s ∧ s.SaidBy members := by
  obtain ⟨format?, format, isTree, isJson⟩ := exists_readFormat formatAllowed path
  obtain ⟨choice?, choice, isChoice⟩ := exists_readShowNoise choiceAllowed path
  refine ⟨⟨format?, choice?⟩, ?_, formatAllowed, choiceAllowed, isTree, isJson, isChoice⟩
  rw [ofJson, format, choice]
  rfl

/-- Members that give settings can be used. -/
theorem allowed_of_ofJson (gives : ofJson path (.object members) = .ok s) :
    FormatAllowed members ∧ ChoiceAllowed members := by
  have formatAllowed : FormatAllowed members := by
    intro format given
    by_contra neither
    rw [not_or] at neither
    rw [ofJson_of_bad_format given neither.1 neither.2] at gives
    cases gives
  refine ⟨formatAllowed, fun value given => ?_⟩
  by_contra none
  rw [not_exists] at none
  rw [ofJson_of_bad_choice formatAllowed given none] at gives
  cases gives

/-- A value gives settings if it is an object, and the settings are what its members say. -/
theorem ofJson_eq_ok_iff :
    ofJson path json = .ok s ↔ ∃ members, json = .object members ∧ s.SaidBy members := by
  constructor
  · intro gives
    by_cases isObject : ∃ members, json = .object members
    · obtain ⟨members, rfl⟩ := isObject
      obtain ⟨formatAllowed, choiceAllowed⟩ := allowed_of_ofJson gives
      obtain ⟨s', gives', said⟩ := exists_ofJson formatAllowed choiceAllowed path
      obtain rfl : s = s' := Except.ok.inj (gives.symm.trans gives')
      exact ⟨members, rfl, said⟩
    · rw [ofJson_of_not_object (not_exists.mp isObject)] at gives
      cases gives
  · rintro ⟨members, rfl, said⟩
    obtain ⟨s', gives, said'⟩ := exists_ofJson said.formatAllowed said.choiceAllowed path
    rw [gives, said'.unique said]

/-- The names of the members that are looked at. -/
def names : List String :=
  ["astFormat", "showNoise"]

/-- What is read off a member stays the same if other members change, or if its own value changes
inside, since no value with an inside can be used. -/
theorem read_edit {α : Type} {read : Option Json → α} {name : String}
    {members' : List (String × Json)}
    (edit : Json.Edit names (.object members) (.object members')) (isKept : name ∈ names)
    (objects : ∀ ms ms', read (some (.object ms)) = read (some (.object ms')))
    (arrays : ∀ is is', read (some (.array is)) = read (some (.array is'))) :
    read (Json.member? members' name) = read (Json.member? members name) := by
  rcases edit.member?_eq_or isKept with same | ⟨value, value', given, given', inside⟩
  · rw [same]
  · rw [given, given']
    obtain ⟨ms, ms', rfl, rfl⟩ | ⟨is, is', rfl, rfl⟩ := inside.isComposite
    · exact objects ms' ms
    · exact arrays is' is

/-- A change of other members, or inside of a member, makes no difference. -/
theorem ofJson_edit (edit : Json.Edit names json json') : ofJson path json' = ofJson path json := by
  obtain ⟨ms, ms', rfl, rfl⟩ | ⟨is, is', rfl, rfl⟩ := edit.isComposite
  · have format : readFormat path (Json.member? ms' "astFormat") =
        readFormat path (Json.member? ms "astFormat") :=
      read_edit edit (by decide) (fun _ _ => rfl) fun _ _ => rfl
    have choice : readShowNoise path (Json.member? ms' "showNoise") =
        readShowNoise path (Json.member? ms "showNoise") :=
      read_edit edit (by decide) (fun _ _ => rfl) fun _ _ => rfl
    rw [ofJson, format, choice, ofJson]
  · rfl

theorem ofJson_edits (edits : Relation.ReflTransGen (Json.Edit names) json json') :
    ofJson path json' = ofJson path json := by
  induction edits with
  | refl => rfl
  | tail _ edit ih => rw [ofJson_edit edit, ih]

/-! ### Texts -/

/-- What comes of a text: settings, or the text of an error. -/
structure Validates (path text : String) (result : Except String Settings) : Prop where
  notJson : (∀ json, ¬ Json.Denotes text json) →
    ∃ detail, result = .error ("Invalid JSON in config file " ++ path ++ ": " ++ detail)
  notObject : ∀ json, Json.Denotes text json → (∀ members, json ≠ .object members) →
    result = .error ("Invalid config in " ++ path ++ ": must be an object")
  /-- A bad format is reported whatever the choice about noise is. -/
  badFormat : ∀ members format, Json.Denotes text (.object members) →
    Json.Given members "astFormat" format → format ≠ .string "tree" → format ≠ .string "json" →
      result = .error ("Invalid \"astFormat\" in " ++ path ++ ": must be one of tree, json")
  badChoice : ∀ members value, Json.Denotes text (.object members) → FormatAllowed members →
    Json.Given members "showNoise" value → (∀ choice, value ≠ .bool choice) →
      result = .error ("Invalid \"showNoise\" in " ++ path ++ ": must be a boolean")
  /-- What is set is what is given, and nothing else is set. -/
  valid : ∀ members, Json.Denotes text (.object members) → FormatAllowed members →
    ChoiceAllowed members →
      ∃ s, result = .ok s ∧
        (s.treeFormat? = some .tree ↔ Json.Given members "astFormat" (.string "tree")) ∧
        (s.treeFormat? = some .json ↔ Json.Given members "astFormat" (.string "json")) ∧
        ∀ choice, s.showNoise? = some choice ↔ Json.Given members "showNoise" (.bool choice)

theorem message_badFormat : (SettingsError.badFormat path).message =
    "Invalid \"astFormat\" in " ++ path ++ ": must be one of tree, json" := by
  have listed : ": must be one of " ++ ", ".intercalate (TreeFormat.all.map TreeFormat.name) =
      ": must be one of tree, json" := by
    decide
  rw [← listed, ← String.append_assoc]
  rfl

theorem ofText_of_denotes (denotes : Json.Denotes text json) :
    ofText path text = ofJson path json := by
  rw [ofText, Json.parse_eq_ok_iff.mpr denotes]

/-- What comes of a text depends on the value that it denotes, as `Validates` says. -/
theorem validates_ofText (path text : String) :
    Validates path text ((ofText path text).mapError SettingsError.message) where
  notJson nothing := by
    obtain ⟨e, refused⟩ := Json.exists_parse_eq_error nothing
    exact ⟨e.message, by rw [ofText, refused]; rfl⟩
  notObject json denotes other := by
    rw [ofText_of_denotes denotes, ofJson_of_not_object other]
    rfl
  badFormat members format denotes given notTree notJson := by
    rw [ofText_of_denotes denotes, ofJson_of_bad_format given notTree notJson, ← message_badFormat]
    rfl
  badChoice members value denotes allowed given notBool := by
    rw [ofText_of_denotes denotes, ofJson_of_bad_choice allowed given notBool]
    rfl
  valid members denotes formatAllowed choiceAllowed := by
    obtain ⟨s, gives, said⟩ := exists_ofJson formatAllowed choiceAllowed path
    refine ⟨s, ?_, said.isTree, said.isJson, said.isChoice⟩
    rw [ofText_of_denotes denotes, gives]
    rfl

/-! ### Files -/

/-- **Validation of settings.** What comes of a settings file is settled by the JSON value that its
text denotes, if it denotes one, as `Validates` says; and a file is all that is looked at if it is
named. Another file under the same path whose value differs in other members only, at any depth,
gives the same. -/
theorem validates_exactly (fs : FileSystem) (path text : String) (found : fs.read path = .ok text) :
    Validates path text ((ofFile fs path).mapError SettingsError.message) ∧
    (path ≠ "" → load fs path = ofFile fs path) ∧
    ∀ (other : FileSystem) (text' : String) (json json' : Json), other.read path = .ok text' →
      Json.Denotes text json → Json.Denotes text' json' →
      Relation.ReflTransGen (Json.Edit names) json json' → ofFile other path = ofFile fs path := by
  have file : ofFile fs path = ofText path text := by rw [ofFile, found]
  refine ⟨?_, ?_, ?_⟩
  · rw [file]
    exact validates_ofText path text
  · intro isPath
    exact if_neg (mt String.isEmpty_iff.mp isPath)
  · intro other text' json json' found' denotes denotes' edits
    rw [file, ofFile, found', ofText_of_denotes denotes, ← ofJson_edits edits]
    exact ofText_of_denotes denotes'

/-- The file system with one settings file. -/
def withFile (text : String) : FileSystem :=
  Listing.fileSystem { files := [(⟨["set"]⟩, text.toUTF8.toList)] } {}

/-- Both members are wrong, the format is there twice, and other objects have members with the same
names. -/
def doubled : String :=
  "\x7b\"showNoise\": null, \"astFormat\": \"json\", \"in\": \x7b\"astFormat\": 1\x7d,\n" ++
    "  \"astFormat\": \x7b\"tree\": []\x7d\x7d"

/-- The same with the first two members exchanged, one left out, and one left out inside the
last. -/
def doubledInShort : String :=
  "\x7b\"astFormat\":\"json\",\"showNoise\":null,\"astFormat\":\x7b\x7d\x7d"

/-- The last format is what is reported of a file with two formats and a wrong choice about noise,
and a shorter file with the same faults gives the same. -/
theorem validates_exactly_of_doubled :
    (load (withFile doubled) "set").mapError SettingsError.message =
        .error "Invalid \"astFormat\" in set: must be one of tree, json" ∧
      ofFile (withFile doubledInShort) "set" = ofFile (withFile doubled) "set" := by
  let inner : Json := .object [("astFormat", .number "1")]
  let format : Json := .object [("tree", .array [])]
  have denotes : Json.Denotes doubled (.object
      [("showNoise", .null), ("astFormat", .string "json"), ("in", inner),
        ("astFormat", format)]) := by
    decide +kernel
  have denotes' : Json.Denotes doubledInShort (.object
      [("astFormat", .string "json"), ("showNoise", .null), ("astFormat", .object [])]) := by
    decide +kernel
  have found : (withFile doubled).read "set" = .ok doubled := by decide +kernel
  have found' : (withFile doubledInShort).read "set" = .ok doubledInShort := by decide +kernel
  obtain ⟨validates, named, alike⟩ := validates_exactly (withFile doubled) "set" doubled found
  constructor
  · have given : Json.Given
        [("showNoise", .null), ("astFormat", .string "json"), ("in", inner), ("astFormat", format)]
        "astFormat" format :=
      ⟨[("showNoise", .null), ("astFormat", .string "json"), ("in", inner)], [], rfl, nofun⟩
    rw [named (by decide), validates.badFormat _ _ denotes given nofun nofun]
    rfl
  · have moved := @Json.Edit.swap names [] [("in", inner), ("astFormat", format)]
      ("showNoise", .null) ("astFormat", .string "json") (.inr (by decide))
    have shortened := @Json.Edit.remove names [("astFormat", .string "json"), ("showNoise", .null)]
      [("astFormat", format)] "in" inner (by decide)
    have emptied := @Json.Edit.inMember names [("astFormat", .string "json"), ("showNoise", .null)]
      [] "astFormat" format (.object []) (@Json.Edit.remove [] [] [] "tree" (.array []) nofun)
    exact alike _ _ _ _ found' denotes denotes' (.tail (.tail (.single moved) shortened) emptied)

end Spire.Settings
