import Mathlib.Data.Int.Log
import Mathlib.Data.Rat.Floor
import Mathlib.Tactic.FieldSimp
import Mathlib.Tactic.Linarith
import Mathlib.Tactic.NormNum
import Mathlib.Tactic.Ring

namespace CdcPipeline.Library.Double

/-- Nearest integer, ties to even. -/
def roundEven (q : ℚ) : ℤ :=
  let floor := ⌊q⌋
  let rest := q - floor
  if rest < 1 / 2 then floor
  else if 1 / 2 < rest then floor + 1
  else if floor % 2 = 0 then floor else floor + 1

/-- The exponent of the last of the 53 significant bits. -/
def ulpExponent (q : ℚ) : ℤ := max (Int.log 2 |q|) (-1022) - 52

/-- The nearest IEEE double of a number below the overflow threshold. -/
def roundDouble (q : ℚ) : ℚ :=
  if q = 0 then 0 else roundEven (q / 2 ^ ulpExponent q) * 2 ^ ulpExponent q

theorem roundEven_int (z : ℤ) : roundEven z = z := by
  simp [roundEven]

/-- A multiple of its last place is its own double. -/
theorem roundDouble_multiple {q : ℚ} (z : ℤ) (h : q = z * 2 ^ ulpExponent q) :
    roundDouble q = q := by
  unfold roundDouble
  split
  · rename_i h0
    exact h0.symm
  · have hp : (2 : ℚ) ^ ulpExponent q ≠ 0 := zpow_ne_zero _ (by norm_num)
    have hz : q / 2 ^ ulpExponent q = z := by rw [div_eq_iff hp]; exact h
    rw [hz, roundEven_int]
    exact h.symm

theorem ulpExponent_le {n : ℤ} (hn : n ≠ 0) (hb : |n| < 2 ^ 53) : ulpExponent (n : ℚ) ≤ 0 := by
  have hpos : (0 : ℚ) < |(n : ℚ)| := by simpa using hn
  have hlt : |(n : ℚ)| < (2 : ℚ) ^ (53 : ℤ) := by exact_mod_cast hb
  have hlog : Int.log 2 |(n : ℚ)| < 53 := (Int.lt_zpow_iff_log_lt (by norm_num) hpos).mp hlt
  simp only [ulpExponent]
  omega

/-- Every integer below `2 ^ 53` in size is a double. -/
theorem roundDouble_int {n : ℤ} (hb : |n| < 2 ^ 53) : roundDouble (n : ℚ) = n := by
  by_cases hn : n = 0
  · simp [hn, roundDouble]
  · obtain ⟨k, hk⟩ := Int.eq_ofNat_of_zero_le (a := -ulpExponent (n : ℚ))
      (by have := ulpExponent_le hn hb; omega)
    have he : ulpExponent (n : ℚ) = -(k : ℤ) := by omega
    apply roundDouble_multiple (n * 2 ^ k)
    rw [he, zpow_neg, zpow_natCast]
    push_cast
    field_simp

theorem roundEven_bounds (q : ℚ) : ⌊q⌋ ≤ roundEven q ∧ roundEven q ≤ ⌊q⌋ + 1 := by
  unfold roundEven
  dsimp only
  split_ifs <;> omega

theorem roundEven_mono {p q : ℚ} (h : p ≤ q) : roundEven p ≤ roundEven q := by
  have hfloor : ⌊p⌋ ≤ ⌊q⌋ := Int.floor_mono h
  have hp := roundEven_bounds p
  have hq := roundEven_bounds q
  by_cases heq : ⌊p⌋ = ⌊q⌋
  · -- between the same two integers, the one further up is rounded no lower
    have hrest : p - ⌊q⌋ ≤ q - ⌊q⌋ := by linarith
    unfold roundEven
    dsimp only
    rw [heq]
    split_ifs <;> first | omega | (exfalso; linarith)
  · omega

theorem roundEven_le {q : ℚ} {z : ℤ} (h : q ≤ z) : roundEven q ≤ z := by
  simpa only [roundEven_int] using roundEven_mono h

theorem le_roundEven {q : ℚ} {z : ℤ} (h : (z : ℚ) ≤ q) : z ≤ roundEven q := by
  simpa only [roundEven_int] using roundEven_mono h

theorem roundDouble_eq (q : ℚ) :
    roundDouble q = roundEven (q / 2 ^ ulpExponent q) * 2 ^ ulpExponent q := by
  by_cases h : q = 0
  · have h0 : roundEven 0 = 0 := roundEven_int 0
    simp [roundDouble, h, h0]
  · rw [roundDouble, if_neg h]

/-- A multiple of a coarser last place is one of a finer one. -/
theorem multiple_finer {d e : ℤ} (h : d ≤ e) (z : ℤ) :
    ∃ z' : ℤ, (z : ℚ) * 2 ^ e = z' * 2 ^ d := by
  obtain ⟨k, hk⟩ := Int.eq_ofNat_of_zero_le (a := e - d) (by omega)
  refine ⟨z * 2 ^ k, ?_⟩
  have he : e = k + d := by omega
  rw [he, zpow_add₀ (by norm_num : (2 : ℚ) ≠ 0), zpow_natCast]
  push_cast
  ring

theorem roundDouble_le {q : ℚ} {z e : ℤ} (he : ulpExponent q ≤ e) (h : q ≤ z * 2 ^ e) :
    roundDouble q ≤ z * 2 ^ e := by
  have hpos : (0 : ℚ) < 2 ^ ulpExponent q := zpow_pos (by norm_num) _
  obtain ⟨z', hz⟩ := multiple_finer he z
  rw [hz] at h ⊢
  rw [roundDouble_eq]
  have hround : roundEven (q / 2 ^ ulpExponent q) ≤ z' := roundEven_le ((div_le_iff₀ hpos).mpr h)
  exact mul_le_mul_of_nonneg_right (by exact_mod_cast hround) hpos.le

theorem le_roundDouble {q : ℚ} {z e : ℤ} (he : ulpExponent q ≤ e) (h : z * 2 ^ e ≤ q) :
    z * 2 ^ e ≤ roundDouble q := by
  have hpos : (0 : ℚ) < 2 ^ ulpExponent q := zpow_pos (by norm_num) _
  obtain ⟨z', hz⟩ := multiple_finer he z
  rw [hz] at h ⊢
  rw [roundDouble_eq]
  have hround : z' ≤ roundEven (q / 2 ^ ulpExponent q) := le_roundEven ((le_div_iff₀ hpos).mpr h)
  exact mul_le_mul_of_nonneg_right (by exact_mod_cast hround) hpos.le

theorem abs_lt_power (q : ℚ) : |q| < 2 ^ (ulpExponent q + 53) := by
  have hlog : |q| < 2 ^ (Int.log 2 |q| + 1) := by
    exact_mod_cast Int.lt_zpow_succ_log_self (b := 2) (by norm_num) |q|
  refine hlog.trans_le (zpow_le_zpow_right₀ (by norm_num) ?_)
  simp only [ulpExponent]
  omega

/-- A number that is coarser than another reaches the power of two its places begin at. -/
theorem power_le_abs {p q : ℚ} (hq : q ≠ 0) (h : ulpExponent p < ulpExponent q) :
    2 ^ (ulpExponent q + 52) ≤ |q| := by
  have hlog : (2 : ℚ) ^ Int.log 2 |q| ≤ |q| := by
    exact_mod_cast Int.zpow_log_le_self (b := 2) (by norm_num) (abs_pos.mpr hq)
  have he : ulpExponent q + 52 = Int.log 2 |q| := by
    simp only [ulpExponent] at h ⊢
    omega
  rw [he]
  exact hlog

theorem abs_lt_coarser {p q : ℚ} (h : ulpExponent p < ulpExponent q) :
    |p| < 2 ^ (ulpExponent q + 52) :=
  (abs_lt_power p).trans_le (zpow_le_zpow_right₀ (by norm_num) (by omega))

theorem power_split (e : ℤ) : (2 : ℚ) ^ (e + 52) = ((2 ^ 52 : ℤ) : ℚ) * 2 ^ e := by
  rw [zpow_add₀ (by norm_num : (2 : ℚ) ≠ 0), mul_comm]
  norm_num

theorem roundDouble_zero : roundDouble 0 = 0 := by simp [roundDouble]

/-- Rounding never turns two numbers round. -/
theorem roundDouble_mono {p q : ℚ} (h : p ≤ q) : roundDouble p ≤ roundDouble q := by
  by_cases hp : p = 0
  · have h0 := le_roundDouble (z := 0) (le_refl (ulpExponent q)) (by simpa [hp] using h)
    simpa [hp, roundDouble_zero] using h0
  by_cases hq : q = 0
  · have h0 := roundDouble_le (z := 0) (le_refl (ulpExponent p)) (by simpa [hq] using h)
    simpa [hq, roundDouble_zero] using h0
  rcases lt_trichotomy (ulpExponent p) (ulpExponent q) with he | he | he
  · -- the coarser of the two lies beyond a power of two that both are rounded to
    have hlow := (abs_lt.mp (abs_lt_coarser he))
    have hhigh : (2 : ℚ) ^ (ulpExponent q + 52) ≤ q := by
      rcases le_abs.mp (power_le_abs hq he) with hle | hle
      · exact hle
      · linarith
    rw [power_split] at hlow hhigh
    exact (roundDouble_le he.le hlow.2.le).trans (le_roundDouble le_rfl hhigh)
  · have hpos : (0 : ℚ) < 2 ^ ulpExponent q := zpow_pos (by norm_num) _
    rw [roundDouble_eq p, roundDouble_eq q, he]
    have hround := roundEven_mono (div_le_div_of_nonneg_right h hpos.le)
    exact mul_le_mul_of_nonneg_right (by exact_mod_cast hround) hpos.le
  · have hhigh := (abs_lt.mp (abs_lt_coarser he))
    have hlow : p ≤ -(2 : ℚ) ^ (ulpExponent p + 52) := by
      rcases le_abs.mp (power_le_abs hp he) with hle | hle
      · linarith
      · linarith
    rw [power_split, ← neg_mul, ← Int.cast_neg] at hhigh hlow
    exact (roundDouble_le le_rfl hlow).trans (le_roundDouble he.le hhigh.1.le)

theorem lt_of_roundDouble_lt {p q : ℚ} (h : roundDouble p < roundDouble q) : p < q := by
  by_contra hle
  exact absurd (roundDouble_mono (not_lt.mp hle)) (not_le.mpr h)

/-- Two numbers are told apart in their order unless they share a double. -/
theorem roundDouble_lt_iff {p q : ℚ} :
    roundDouble p < roundDouble q ↔ p < q ∧ roundDouble p ≠ roundDouble q := by
  refine ⟨fun h => ⟨lt_of_roundDouble_lt h, h.ne⟩, fun ⟨hlt, hne⟩ => ?_⟩
  exact lt_of_le_of_ne (roundDouble_mono hlt.le) hne

theorem roundEven_error (q : ℚ) : |(roundEven q : ℚ) - q| ≤ 1 / 2 := by
  have hlow := Int.floor_le q
  have hhigh := Int.lt_floor_add_one q
  unfold roundEven
  dsimp only
  rw [abs_le]
  split_ifs <;> push_cast <;> constructor <;> linarith

theorem roundDouble_error (q : ℚ) : |roundDouble q - q| ≤ 2 ^ ulpExponent q / 2 := by
  have hpos : (0 : ℚ) < 2 ^ ulpExponent q := zpow_pos (by norm_num) _
  have hq : q = q / 2 ^ ulpExponent q * 2 ^ ulpExponent q := (div_mul_cancel₀ q hpos.ne').symm
  have herr := mul_le_mul_of_nonneg_right (roundEven_error (q / 2 ^ ulpExponent q)) hpos.le
  calc |roundDouble q - q|
      = |(roundEven (q / 2 ^ ulpExponent q) - q / 2 ^ ulpExponent q) * 2 ^ ulpExponent q| := by
        rw [sub_mul, ← roundDouble_eq, ← hq]
    _ = |(roundEven (q / 2 ^ ulpExponent q) : ℚ) - q / 2 ^ ulpExponent q| *
          2 ^ ulpExponent q := by rw [abs_mul, abs_of_pos hpos]
    _ ≤ 1 / 2 * 2 ^ ulpExponent q := herr
    _ = 2 ^ ulpExponent q / 2 := by ring

/-- An integer of 64 bits is at most `2 ^ 10` from its double. -/
theorem roundDouble_error_int {n : ℤ} (h : |n| ≤ 2 ^ 63) :
    |roundDouble (n : ℚ) - n| ≤ 2 ^ 10 := by
  have hexp : ulpExponent (n : ℚ) ≤ 11 := by
    by_cases hn : n = 0
    · simp [hn, ulpExponent]
    · have hpos : (0 : ℚ) < |(n : ℚ)| := by simpa using hn
      have hlt : |(n : ℚ)| < (2 : ℚ) ^ (64 : ℤ) := by
        have hle : |(n : ℚ)| ≤ (2 : ℚ) ^ 63 := by exact_mod_cast h
        exact hle.trans_lt (by norm_num)
      have hlog : Int.log 2 |(n : ℚ)| < 64 := (Int.lt_zpow_iff_log_lt (by norm_num) hpos).mp hlt
      simp only [ulpExponent]
      omega
  have hpow : (2 : ℚ) ^ ulpExponent (n : ℚ) ≤ 2 ^ (11 : ℤ) :=
    zpow_le_zpow_right₀ (by norm_num) hexp
  have herr := roundDouble_error (n : ℚ)
  norm_num at hpow herr ⊢
  linarith

theorem roundDouble_lt_apart {m n : ℤ} (hm : |m| ≤ 2 ^ 63) (hn : |n| ≤ 2 ^ 63)
    (h : m + 2 ^ 11 < n) : roundDouble (m : ℚ) < roundDouble (n : ℚ) := by
  have herrm := abs_le.mp (roundDouble_error_int hm)
  have herrn := abs_le.mp (roundDouble_error_int hn)
  have hlt : (m : ℚ) + 2 ^ 11 < n := by exact_mod_cast h
  linarith [herrm.2, herrn.1]

end CdcPipeline.Library.Double
