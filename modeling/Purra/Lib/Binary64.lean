import Mathlib.Data.Nat.Log
import Mathlib.Tactic.Positivity
import Mathlib.Tactic.Ring

/-!
# Binary64 numbers by their bits

Every binary64 number is a whole multiple of `2 ^ -1074`, the least of them.  The magnitude of a
number is that multiple; its bits without the sign are the multiple itself while it is below
`2 ^ 52`, and an exponent before the fraction of the leading 53 digits above.

* `Magnitude` — the multiples that are numbers: at most 53 digits, shifted by at most 2045.
* `pattern` — the bits of a multiple; `magnitude` reads them back (`magnitude_pattern`).
* `pattern_lt` — they leave the sign bit free.
-/

namespace Purra

namespace Binary64

/-- The multiple is a number: 53 digits and a shift. -/
def Magnitude (n : Nat) : Prop := ∃ size shift, n = size * 2 ^ shift ∧ size < 2 ^ 53 ∧ shift ≤ 2045

/-- The bits of a multiple, without the sign. -/
def pattern (n : Nat) : Nat :=
  if n.log2 < 52 then n else (n.log2 - 51) * 2 ^ 52 + (n * 2 ^ 52 / 2 ^ n.log2 - 2 ^ 52)

/-- The multiple that bits stand for. -/
def magnitude (bits : Nat) : Nat :=
  if bits < 2 ^ 52 then bits else (bits % 2 ^ 52 + 2 ^ 52) * 2 ^ (bits / 2 ^ 52 - 1)

variable {n : Nat}

/-- The leading 53 digits of a large multiple, and the shift that gives it back. -/
theorem leading_digits (h : Magnitude n) (hlarge : ¬ n.log2 < 52) :
    ∃ lead, lead < 2 ^ 52 ∧ n * 2 ^ 52 / 2 ^ n.log2 = lead + 2 ^ 52 ∧
      n = (lead + 2 ^ 52) * 2 ^ (n.log2 - 52) := by
  obtain ⟨size, shift, hn, hsize, -⟩ := h
  have hzero : n ≠ 0 := by
    rintro rfl
    exact hlarge (by decide)
  have hlow : 2 ^ n.log2 ≤ n := Nat.log2_self_le hzero
  have hhigh : n < 2 ^ (n.log2 + 1) := Nat.lt_log2_self
  obtain ⟨k, hk⟩ : ∃ k, n.log2 = k + 52 := ⟨n.log2 - 52, by omega⟩
  rw [hk] at hlow hhigh ⊢
  have hdigits : n * 2 ^ 52 / 2 ^ (k + 52) = n / 2 ^ k := by
    rw [pow_add, Nat.mul_div_mul_right _ _ (by positivity)]
  have hdvd : 2 ^ k ∣ n := by
    by_cases hshift : k ≤ shift
    · rw [hn]
      exact Dvd.dvd.mul_left (pow_dvd_pow 2 hshift) size
    · -- fewer shifts would leave more than 53 digits
      exfalso
      obtain ⟨j, hj⟩ : ∃ j, k = shift + 1 + j := ⟨k - shift - 1, by omega⟩
      have hmore : size * 2 ^ shift < 2 ^ 53 * 2 ^ shift :=
        Nat.mul_lt_mul_of_pos_right hsize (by positivity)
      have hle : 2 ^ 53 * 2 ^ shift ≤ 2 ^ (k + 52) := by
        rw [← pow_add]
        exact Nat.pow_le_pow_right (by decide) (by omega)
      omega
  obtain ⟨q, hq⟩ := hdvd
  have hpos : 0 < 2 ^ k := by positivity
  have hquotient : n / 2 ^ k = q := by
    rw [hq]
    exact Nat.mul_div_cancel_left q hpos
  have hqlow : 2 ^ 52 ≤ q := by
    rw [hq, pow_add] at hlow
    exact Nat.le_of_mul_le_mul_left hlow hpos
  have hqhigh : q < 2 ^ 53 := by
    rw [hq, show k + 52 + 1 = k + 53 by omega, pow_add] at hhigh
    exact Nat.lt_of_mul_lt_mul_left hhigh
  refine ⟨q - 2 ^ 52, by omega, ?_, ?_⟩
  · rw [hdigits, hquotient]
    omega
  · rw [show q - 2 ^ 52 + 2 ^ 52 = q by omega, Nat.add_sub_cancel, Nat.mul_comm]
    exact hq

/-- The bits of a number are those of no other number. -/
theorem magnitude_pattern (h : Magnitude n) : magnitude (pattern n) = n := by
  unfold pattern
  by_cases hsmall : n.log2 < 52
  · rw [if_pos hsmall]
    have hlt : n < 2 ^ 52 := by
      by_cases hzero : n = 0
      · rw [hzero]
        positivity
      · exact (Nat.log2_lt hzero).1 hsmall
    exact if_pos hlt
  · rw [if_neg hsmall]
    obtain ⟨lead, hlead, hdigits, hn⟩ := leading_digits h hsmall
    obtain ⟨k, hk⟩ : ∃ k, n.log2 = k + 52 := ⟨n.log2 - 52, by omega⟩
    rw [hdigits, Nat.add_sub_cancel]
    rw [hk] at hn ⊢
    have hbits : (k + 52 - 51) * 2 ^ 52 + lead = lead + 2 ^ 52 * (k + 1) := by
      rw [show k + 52 - 51 = k + 1 by omega]
      ring
    have hmod : (lead + 2 ^ 52 * (k + 1)) % 2 ^ 52 = lead := by
      rw [Nat.add_mul_mod_self_left, Nat.mod_eq_of_lt hlead]
    have hdiv : (lead + 2 ^ 52 * (k + 1)) / 2 ^ 52 = k + 1 := by
      rw [Nat.add_mul_div_left _ _ (by positivity), Nat.div_eq_of_lt hlead, Nat.zero_add]
    rw [hbits]
    unfold magnitude
    rw [if_neg (by omega), hmod, hdiv, Nat.add_sub_cancel]
    rw [Nat.add_sub_cancel] at hn
    exact hn.symm

theorem pattern_lt (h : Magnitude n) : pattern n < 2 ^ 63 := by
  unfold pattern
  by_cases hsmall : n.log2 < 52
  · rw [if_pos hsmall]
    by_cases hzero : n = 0
    · rw [hzero]
      positivity
    · exact lt_of_lt_of_le ((Nat.log2_lt hzero).1 hsmall) (Nat.pow_le_pow_right (by decide) (by decide))
  · rw [if_neg hsmall]
    obtain ⟨lead, hlead, hdigits, -⟩ := leading_digits h hsmall
    obtain ⟨size, shift, hn, hsize, hshift⟩ := h
    have hlog : n.log2 < 2098 := by
      have hzero : n ≠ 0 := by
        rintro rfl
        exact hsmall (by decide)
      rw [Nat.log2_lt hzero, hn]
      calc size * 2 ^ shift < 2 ^ 53 * 2 ^ shift := Nat.mul_lt_mul_of_pos_right hsize (by positivity)
        _ = 2 ^ (53 + shift) := (pow_add 2 53 shift).symm
        _ ≤ 2 ^ 2098 := Nat.pow_le_pow_right (by decide) (by omega)
    rw [hdigits]
    omega

/-- Numbers with the same bits are the same. -/
theorem pattern_inj {m : Nat} (hm : Magnitude m) (hn : Magnitude n) (h : pattern m = pattern n) :
    m = n := by
  rw [← magnitude_pattern hm, h, magnitude_pattern hn]

end Binary64

end Purra
