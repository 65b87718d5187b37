import Spire.Json
import Mathlib.Logic.Relation

/-!
# Members of JSON objects

An object may repeat a name, and then the last member with the name counts. So what an object gives
to a few names does not depend on its other members, nor on the order of members with different
names. This file makes both precise: the value of a name by the place of its member, and the changes
of a value that leave alone what its outermost object gives to some names, up to changes inside.

## Main definitions

* `Json.Given` — the value that members give to a name
* `Json.Edit` — one change of members at any depth, with some names kept at the outermost

## Main results

* `Json.member?_eq_some_iff` — what is looked up is what is given
* `Json.Edit.member?_eq_or` — a change keeps the value of a kept name, or changes it inside
-/

namespace Spire.Json

variable {members front back : List (String × Json)} {name key : String} {value : Json}
  {kept : List String}

/-- The last member with the name has the value. -/
def Given (members : List (String × Json)) (name : String) (value : Json) : Prop :=
  ∃ front back, members = front ++ (name, value) :: back ∧ ∀ member ∈ back, member.1 ≠ name

theorem member?_append :
    member? (front ++ back) name = (member? back name).or (member? front name) := by
  rw [member?, List.reverse_append, List.lookup_append]
  rfl

theorem member?_cons :
    member? ((key, value) :: members) name =
      (member? members name).or (if key = name then some value else none) := by
  have single : member? [(key, value)] name = if key = name then some value else none := by
    by_cases same : key = name
    · simp [member?, same]
    · simp [member?, same, List.lookup_cons, beq_eq_false_iff_ne.mpr (Ne.symm same)]
  rw [← single, ← member?_append]
  rfl

/-- What is looked up is what is given. -/
theorem member?_eq_some_iff : member? members name = some value ↔ Given members name value := by
  rw [member?, List.lookup_eq_some_iff]
  constructor
  · rintro ⟨later, earlier, whole, none⟩
    refine ⟨earlier.reverse, later.reverse, ?_, ?_⟩
    · simpa using congrArg List.reverse whole
    · intro member isLater same
      have differs := none member (List.mem_reverse.mp isLater)
      simp [same] at differs
  · rintro ⟨front, back, rfl, none⟩
    refine ⟨back.reverse, front.reverse, by simp, ?_⟩
    intro member isLater
    have differs := none member (List.mem_reverse.mp isLater)
    simpa using Ne.symm differs

/-! ### Changes of members -/

/-- One change of members at any depth. Members of the outermost object with one of the names
`kept` are neither put in nor taken out, and those with the same such name keep their order. -/
inductive Edit : List String → Json → Json → Prop where
  | add {kept : List String} {front back : List (String × Json)} {name : String} {value : Json}
      (other : name ∉ kept) :
      Edit kept (.object (front ++ back)) (.object (front ++ (name, value) :: back))
  | remove {kept : List String} {front back : List (String × Json)} {name : String} {value : Json}
      (other : name ∉ kept) :
      Edit kept (.object (front ++ (name, value) :: back)) (.object (front ++ back))
  | swap {kept : List String} {front back : List (String × Json)} {first second : String × Json}
      (apart : first.1 ∉ kept ∨ first.1 ≠ second.1) :
      Edit kept (.object (front ++ first :: second :: back))
        (.object (front ++ second :: first :: back))
  | inMember {kept : List String} {front back : List (String × Json)} {name : String}
      {value value' : Json} (inside : Edit [] value value') :
      Edit kept (.object (front ++ (name, value) :: back))
        (.object (front ++ (name, value') :: back))
  | inItem {kept : List String} {front back : List Json} {item item' : Json}
      (inside : Edit [] item item') :
      Edit kept (.array (front ++ item :: back)) (.array (front ++ item' :: back))

/-- Only what has an inside is changed. -/
theorem Edit.isComposite {a b : Json} (edit : Edit kept a b) :
    (∃ ms ms', a = .object ms ∧ b = .object ms') ∨ ∃ is is', a = .array is ∧ b = .array is' := by
  cases edit with
  | inItem => exact .inr ⟨_, _, rfl, rfl⟩
  | add | remove | swap | inMember => exact .inl ⟨_, _, rfl, rfl⟩

theorem member?_add (other : key ≠ name) :
    member? (front ++ (key, value) :: back) name = member? (front ++ back) name := by
  rw [member?_append, member?_cons, if_neg other, Option.or_none, member?_append]

/-- A change keeps the value of a kept name, or changes it inside. -/
theorem Edit.member?_eq_or {members' : List (String × Json)}
    (edit : Edit kept (.object members) (.object members')) (isKept : name ∈ kept) :
    member? members' name = member? members name ∨
      ∃ value value', member? members name = some value ∧ member? members' name = some value' ∧
        Edit [] value value' := by
  cases edit with
  | add other =>
    left
    apply member?_add
    rintro rfl
    exact other isKept
  | remove other =>
    left
    symm
    apply member?_add
    rintro rfl
    exact other isKept
  | @swap _ front back first second apart =>
    left
    obtain ⟨key, value⟩ := first
    obtain ⟨key', value'⟩ := second
    by_cases same : key = name
    · have other : key' ≠ name := by
        rintro rfl
        exact apart.elim (fun spare => spare (same ▸ isKept)) fun differs => differs same
      simp [member?_append, member?_cons, other]
    · simp [member?_append, member?_cons, same]
  | @inMember _ front back key value value' inside =>
    rw [member?_append, member?_cons, member?_append, member?_cons]
    cases later : member? back name with
    | some _ => exact .inl rfl
    | none =>
      by_cases same : key = name
      · exact .inr ⟨value, value', by simp [same], by simp [same], inside⟩
      · exact .inl (by simp [same])

end Spire.Json
