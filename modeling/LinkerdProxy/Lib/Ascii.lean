import Mathlib

namespace LinkerdProxy

/-!
# ASCII case

Rust's ASCII case operations on characters and strings: `char::to_ascii_lowercase` (Lean's
`Char.toLower`, which also moves only `A`–`Z`) and `str::eq_ignore_ascii_case`, read through code
points.

* `toNat_toLower` — lower-casing adds 32 to an upper-case letter and keeps every other character;
* `toLower_toLower`, `isUpper_toLower` — a lower-cased character is lower case.
-/

theorem isUpper_iff_toNat (c : Char) : c.isUpper = true ↔ 65 ≤ c.toNat ∧ c.toNat ≤ 90 := by
  simp [Char.isUpper, UInt32.le_iff_toNat_le]

theorem toNat_toLower (c : Char) :
    c.toLower.toNat = if 65 ≤ c.toNat ∧ c.toNat ≤ 90 then c.toNat + 32 else c.toNat := by
  unfold Char.toLower
  split
  · rename_i h
    have hA : 'A'.toNat = 65 := rfl
    have hZ : 'Z'.toNat = 90 := rfl
    simp only [ge_iff_le, UInt32.le_iff_toNat_le, Char.toNat_val, hA, hZ] at h
    rw [if_pos h]
    show (c.val + ('a'.val - 'A'.val)).toNat = c.toNat + 32
    have hc : c.val.toNat = c.toNat := rfl
    have h32 : ('a'.val - 'A'.val).toNat = 32 := rfl
    rw [UInt32.toNat_add, hc, h32]
    omega
  · rename_i h
    rw [if_neg (by simpa [UInt32.le_iff_toNat_le] using h)]

theorem toLower_of_isUpper_eq_false {c : Char} (h : c.isUpper = false) : c.toLower = c := by
  apply Char.toNat_inj.mp
  rw [toNat_toLower, if_neg]
  rw [← isUpper_iff_toNat, h]
  decide

theorem isUpper_toLower (c : Char) : c.toLower.isUpper = false := by
  rw [Bool.eq_false_iff, ne_eq, isUpper_iff_toNat, toNat_toLower]
  split <;> omega

@[simp] theorem toLower_toLower (c : Char) : c.toLower.toLower = c.toLower :=
  toLower_of_isUpper_eq_false (isUpper_toLower c)

/-- `str::eq_ignore_ascii_case`. -/
def eqIgnoreAsciiCase (a b : List Char) : Bool := a.map Char.toLower = b.map Char.toLower

end LinkerdProxy
