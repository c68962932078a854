import Mathlib

namespace LinkerdProxy

/-!
# Splitting text, and bytes written in hexadecimal

`str::split_once` at a separator, and the `hex` crate's `encode` (lower-case digits, two per
byte, high half first) and `decode` (two digits of either case per byte, an odd length refused),
as that crate documents them.  A character outside ASCII is refused by `decode` whether it is
read as characters or as UTF-8 bytes, so decoding characters gives the crate's outcome.

* `split_once_append` — text with no separator before the first one splits there;
* `Hex.decode_encode` — decoding what was encoded gives the bytes back;
* `Hex.sep_not_mem_encode`, `Hex.encode_all_zero_iff` — encoded bytes hold no `-`, and are all
  `0` digits exactly when the bytes are all zero.
-/

/-! ### `split_once` -/

section SplitOnce

variable {α : Type} [DecidableEq α]

/-- `split_once(sep)`: the text before the first separator and the text after it. -/
def splitOnce (sep : α) : List α → Option (List α × List α)
  | [] => none
  | c :: cs =>
    if c = sep then some ([], cs)
    else (splitOnce sep cs).map fun p => (c :: p.1, p.2)

theorem split_once_append (sep : α) {xs : List α} (h : sep ∉ xs) (ys : List α) :
    splitOnce sep (xs ++ sep :: ys) = some (xs, ys) := by
  induction xs with
  | nil => simp [splitOnce]
  | cons c cs ih =>
    have hc : c ≠ sep := fun e => h (e ▸ List.mem_cons_self)
    have hcs : sep ∉ cs := fun hm => h (List.mem_cons_of_mem c hm)
    simp [splitOnce, hc, ih hcs]

end SplitOnce

/-! ### Hexadecimal -/

namespace Hex

/-- The lower-case digit of a value below 16. -/
def digit (n : Nat) : Char := if n < 10 then Char.ofNat (48 + n) else Char.ofNat (87 + n)

/-- The value of a digit of either case, as the `hex` crate's `val`. -/
def value (c : Char) : Option Nat :=
  if '0' ≤ c ∧ c ≤ '9' then some (c.toNat - 48)
  else if 'a' ≤ c ∧ c ≤ 'f' then some (c.toNat - 87)
  else if 'A' ≤ c ∧ c ≤ 'F' then some (c.toNat - 55)
  else none

/-- `hex::encode`: two lower-case digits per byte, the high half first. -/
def encode (bs : List UInt8) : List Char :=
  bs.flatMap fun b => [digit (b.toNat / 16), digit (b.toNat % 16)]

/-- `hex::decode`: two digits per byte; an odd length, or a character that is not a digit, is
    refused. -/
def decode : List Char → Option (List UInt8)
  | [] => some []
  | [_] => none
  | h :: l :: rest => do
    let a ← value h
    let b ← value l
    let tail ← decode rest
    pure (UInt8.ofNat (16 * a + b) :: tail)

theorem value_digit_fin : ∀ n : Fin 16, value (digit n) = some n := by decide

theorem value_digit {n : Nat} (h : n < 16) : value (digit n) = some n :=
  value_digit_fin ⟨n, h⟩

theorem digit_ne_sep_fin : ∀ n : Fin 16, digit n ≠ '-' := by decide

theorem digit_eq_zero_fin : ∀ n : Fin 16, digit n = '0' ↔ n = 0 := by decide

@[simp] theorem encode_nil : encode [] = [] := rfl

@[simp] theorem encode_cons (b : UInt8) (bs : List UInt8) :
    encode (b :: bs) = digit (b.toNat / 16) :: digit (b.toNat % 16) :: encode bs := by
  simp [encode]

theorem halves_lt (b : UInt8) : b.toNat / 16 < 16 ∧ b.toNat % 16 < 16 := by
  have := b.toNat_lt
  omega

/-- A byte is its high half times sixteen plus its low half. -/
theorem ofNat_halves (b : UInt8) : UInt8.ofNat (16 * (b.toNat / 16) + b.toNat % 16) = b := by
  have h : 16 * (b.toNat / 16) + b.toNat % 16 = b.toNat := by omega
  rw [h, UInt8.ofNat_toNat]

/-- **Round trip.**  Decoding what `encode` wrote gives the bytes back. -/
theorem decode_encode (bs : List UInt8) : decode (encode bs) = some bs := by
  induction bs with
  | nil => rfl
  | cons b bs ih =>
    obtain ⟨hhi, hlo⟩ := halves_lt b
    simp only [encode_cons, decode, value_digit hhi, value_digit hlo, ih]
    show some (UInt8.ofNat (16 * (b.toNat / 16) + b.toNat % 16) :: bs) = some (b :: bs)
    rw [ofNat_halves]

theorem sep_not_mem_encode (bs : List UInt8) : '-' ∉ encode bs := by
  induction bs with
  | nil => simp
  | cons b bs ih =>
    obtain ⟨hhi, hlo⟩ := halves_lt b
    simp only [encode_cons, List.mem_cons, not_or]
    exact ⟨fun h => digit_ne_sep_fin ⟨_, hhi⟩ h.symm,
      fun h => digit_ne_sep_fin ⟨_, hlo⟩ h.symm, ih⟩

/-- Encoded bytes are all `0` digits exactly when the bytes are all zero. -/
theorem encode_all_zero_iff (bs : List UInt8) :
    (∀ c ∈ encode bs, c = '0') ↔ ∀ b ∈ bs, b = 0 := by
  induction bs with
  | nil => simp
  | cons b bs ih =>
    obtain ⟨hhi, hlo⟩ := halves_lt b
    have hhi' := digit_eq_zero_fin ⟨_, hhi⟩
    have hlo' := digit_eq_zero_fin ⟨_, hlo⟩
    simp only [Fin.ext_iff, Fin.val_zero] at hhi' hlo'
    have hb : b = 0 ↔ b.toNat / 16 = 0 ∧ b.toNat % 16 = 0 := by
      rw [← UInt8.toNat_inj]
      simp only [UInt8.toNat_zero]
      omega
    simp only [encode_cons, List.forall_mem_cons, ih, hhi', hlo', hb, and_assoc]

end Hex

end LinkerdProxy
