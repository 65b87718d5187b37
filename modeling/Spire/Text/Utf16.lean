/-!
# UTF-16 code units

A text can be looked at unit by unit. A character of the basic plane is one unit, and any other
character is a pair of units that are no characters themselves. Texts are made of characters here,
so half of a pair never stands alone.

## Main definitions

* `Utf16.units` — the units of a character

## Main results

* `Utf16.units_eq_singleton_iff` — characters that are one unit
* `Utf16.units_ne_singleton_of_mem_pair` — no character is half of a pair
-/

namespace Spire.Utf16

/-- The units of a character. -/
def units (c : Char) : List Nat :=
  if c.toNat ≤ 0xFFFF then [c.toNat]
  else [0xD800 + (c.toNat - 0x10000) / 0x400, 0xDC00 + (c.toNat - 0x10000) % 0x400]

variable {c : Char} {unit : Nat}

/-- The codes of characters leave out those of the halves of pairs. -/
theorem toNat_bounds (c : Char) :
    c.toNat < 0xD800 ∨ 0xDFFF < c.toNat ∧ c.toNat < 0x110000 :=
  c.valid

theorem units_eq_singleton_iff : units c = [unit] ↔ c.toNat = unit ∧ c.toNat ≤ 0xFFFF := by
  by_cases basic : c.toNat ≤ 0xFFFF
  · simp [units, basic]
  · simp [units, basic]

/-- No character is half of a pair. -/
theorem units_ne_singleton_of_mem_pair (pair : 0xFFFF < c.toNat) (member : unit ∈ units c)
    (d : Char) : units d ≠ [unit] := by
  rw [units, if_neg (Nat.not_le.mpr pair)] at member
  have inPlanes := toNat_bounds c
  have half : 0xD800 ≤ unit ∧ unit ≤ 0xDFFF := by
    simp only [List.mem_cons, List.not_mem_nil, or_false] at member
    omega
  intro single
  have same := (units_eq_singleton_iff.mp single).1
  have whole := toNat_bounds d
  omega

end Spire.Utf16
