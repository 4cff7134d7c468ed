import Mathlib.Tactic.Positivity
import Macc.Proofs.Double.Order

/-!
# Integers as doubles

Two questions about integers and doubles. Which integers have a nearest double
at all: those below the middle between the largest double and the next power of
two, where rounding would carry into the exponent of infinity. And which ones
are doubles themselves: all that are left when a double is cut to an integer,
because cutting removes bits and adds none.

Both are answered on the mantissa that rounding keeps. It has fifty-three bits,
or is the power of two after them, and where the bits below the last place are
zero nothing is rounded.
-/

namespace Macc.Binary64

/-! ## Rounding a quotient -/

theorem roundQuotient_of_dvd {num den : Nat} (hden : 0 < den) (h : den ∣ num) :
    roundQuotient num den = num / den := by
  rw [roundQuotient, Nat.mod_eq_zero_of_dvd h, if_pos (by omega)]

theorem le_roundQuotient (num den : Nat) : num / den ≤ roundQuotient num den := by
  rw [roundQuotient]
  split
  · exact le_refl _
  · split <;> omega

theorem roundQuotient_le (num den : Nat) : roundQuotient num den ≤ num / den + 1 := by
  rw [roundQuotient]
  split
  · omega
  · split <;> omega

/-- An odd quotient is rounded up from its half on. -/
theorem roundQuotient_of_odd {num den : Nat} (h : num / den % 2 = 1) :
    roundQuotient num den = if den ≤ 2 * (num % den) then num / den + 1 else num / den := by
  rw [roundQuotient, h]
  by_cases hrest : den ≤ 2 * (num % den)
  · rw [if_neg (not_lt.2 hrest), if_pos hrest, ite_self]
  · rw [if_pos (not_le.1 hrest), if_neg hrest]

/-! ## Integers as doubles -/

theorem ofBits_bits {v : Binary64} (hv : v.Canonical) (hnan : v ≠ .nan) :
    ofBits (UInt64.ofNat v.bits) = v := by
  have hsign : ∀ negative : Bool, ((negative.toNat == 1) : Bool) = negative := by decide
  have hbit : ∀ negative : Bool, negative.toNat ≤ 1 := by decide
  cases v with
  | nan => exact absurd rfl hnan
  | infinite negative => cases negative <;> rfl
  | finite negative m e =>
      obtain ⟨hlow, hhigh, hbits, hfull⟩ := hv
      have hone := hbit negative
      rw [bits_finite]
      generalize hn : negative.toNat * 2 ^ 63 + ((e + 1074).toNat * 2 ^ 52 + m) = n
      have hlt : n < 2 ^ 64 := by omega
      have hnat : (UInt64.ofNat n).toNat = n := UInt64.toNat_ofNat_of_lt' hlt
      have hhead : n / 2 ^ 63 = negative.toNat := by omega
      rw [ofBits_eq, hnat, hhead, hsign]
      by_cases hsub : m < 2 ^ 52
      · have he : e = -1074 := hfull.resolve_right (not_le.2 hsub)
        rw [if_neg (by omega), if_pos (by omega), (by omega : n % 2 ^ 52 = m), he]
      · rw [if_neg (by omega), if_neg (by omega), (by omega : n % 2 ^ 52 + 2 ^ 52 = m),
          (by omega : ((n / 2 ^ 52 % 2 ^ 11 : Nat) : Int) - 1075 = e)]

theorem lastPlace_one {num : Nat} (h : num ≠ 0) : lastPlace num 1 = num.log2 - 52 := by
  have hpow := Nat.log2_self_le h
  have hplace : (num.log2 : Int) - (Nat.log2 1 : Nat) - 53 + 53 = num.log2 := by
    have hone : Nat.log2 1 = 0 := by decide
    omega
  have hone : Nat.log2 1 = 0 := by decide
  simp only [lastPlace, hplace, Int.toNat_natCast, one_mul, Nat.pow_eq, if_neg (not_lt.2 hpow),
    Int.natCast_nonneg, if_true]
  omega

/-- The mantissa that is kept of an integer. -/
def mantissaOf (num : Nat) : Nat :=
  roundQuotient (num * 2 ^ (52 - num.log2)) (2 ^ (num.log2 - 52))

theorem nearestBits_one {num : Nat} (h : num ≠ 0) :
    nearestBits num 1 = min ((num.log2 + 1022) * 2 ^ 52 + mantissaOf num) (0x7ff * 2 ^ 52) := by
  rw [nearestBits, if_neg h]
  simp only [lastPlace_one h, one_mul, mantissaOf, Nat.pow_eq]
  have hfield : ((num.log2 : Int) - 52 + 1074).toNat = num.log2 + 1022 := by omega
  have hup : (-((num.log2 : Int) - 52)).toNat = 52 - num.log2 := by omega
  have hdown : ((num.log2 : Int) - 52).toNat = num.log2 - 52 := by omega
  rw [hfield, hup, hdown]

theorem mantissaOf_of_small {num : Nat} (h : num.log2 ≤ 52) :
    mantissaOf num = num * 2 ^ (52 - num.log2) := by
  rw [mantissaOf, Nat.sub_eq_zero_of_le h, pow_zero, roundQuotient_of_dvd Nat.one_pos (one_dvd _),
    Nat.div_one]

theorem mantissaOf_of_large {num : Nat} (h : 52 ≤ num.log2) :
    mantissaOf num = roundQuotient num (2 ^ (num.log2 - 52)) := by
  rw [mantissaOf, Nat.sub_eq_zero_of_le h, pow_zero, mul_one]

/-- What is kept of an integer has fifty-three bits, or is the next power of two. -/
theorem mantissaOf_bounds {num : Nat} (h : num ≠ 0) :
    2 ^ 52 ≤ mantissaOf num ∧ mantissaOf num ≤ 2 ^ 53 := by
  have hlow := Nat.log2_self_le h
  have hhigh := Nat.lt_log2_self (n := num)
  rcases le_total num.log2 52 with hlog | hlog
  · rw [mantissaOf_of_small hlog]
    constructor
    · calc 2 ^ 52 = 2 ^ num.log2 * 2 ^ (52 - num.log2) := by rw [← pow_add]; congr 1; omega
        _ ≤ num * 2 ^ (52 - num.log2) := Nat.mul_le_mul_right _ hlow
    · calc num * 2 ^ (52 - num.log2) ≤ 2 ^ (num.log2 + 1) * 2 ^ (52 - num.log2) :=
          Nat.mul_le_mul_right _ (le_of_lt hhigh)
        _ = 2 ^ 53 := by rw [← pow_add]; congr 1; omega
  · rw [mantissaOf_of_large hlog]
    have hpow : 0 < 2 ^ (num.log2 - 52) := Nat.two_pow_pos _
    constructor
    · refine le_trans ?_ (le_roundQuotient _ _)
      rw [Nat.le_div_iff_mul_le hpow, ← pow_add]
      exact le_trans (le_of_eq (by congr 1; omega)) hlow
    · refine le_trans (roundQuotient_le _ _) ?_
      rw [Nat.add_one_le_iff, Nat.div_lt_iff_lt_mul hpow, ← pow_add]
      exact lt_of_lt_of_le hhigh (le_of_eq (by congr 1; omega))

/-- With fifty-three bits before the point, all but the upper half of the last step stays below the
next power of two. -/
theorem roundQuotient_lt_iff {num half : Nat} (hhalf : 0 < half)
    (hnum : num < 2 ^ 53 * (2 * half)) :
    roundQuotient num (2 * half) < 2 ^ 53 ↔ num < 2 ^ 53 * (2 * half) - half := by
  have hdecomposed := Nat.div_add_mod num (2 * half)
  have hrest := Nat.mod_lt num (by omega : 0 < 2 * half)
  have hquotient : num / (2 * half) < 2 ^ 53 :=
    (Nat.div_lt_iff_lt_mul (by omega)).2 hnum
  have hle := roundQuotient_le num (2 * half)
  by_cases hlast : num / (2 * half) = 2 ^ 53 - 1
  · rw [roundQuotient_of_odd (by rw [hlast]; decide), hlast]
    rw [hlast] at hdecomposed
    split <;> omega
  · have hbelow : 2 * half * (num / (2 * half)) ≤ 2 * half * (2 ^ 53 - 2) :=
      Nat.mul_le_mul_left _ (by omega)
    exact iff_of_true (by omega) (by omega)

/-- An integer is in range if the double nearest to it is not beyond the largest one. -/
theorem nearestBits_lt_iff (num : Nat) :
    nearestBits num 1 < 0x7ff * 2 ^ 52 ↔ num < 2 ^ 1024 - 2 ^ 970 := by
  -- the exponent stays a variable, so that no step writes such a power out
  obtain ⟨k, hk⟩ : ∃ k, k = 970 := ⟨_, rfl⟩
  have hpos : 0 < 2 ^ k := Nat.two_pow_pos k
  have hwhole : 2 ^ 1024 = 2 ^ 53 * (2 * 2 ^ k) := by
    rw [show 1024 = 53 + (k + 1) by omega, pow_add, pow_succ' 2 k]
  rw [hwhole, ← hk]
  by_cases h : num = 0
  · subst h
    exact iff_of_true (by decide) (by omega)
  have hlow := Nat.log2_self_le h
  have hhigh := Nat.lt_log2_self (n := num)
  obtain ⟨hm, hm'⟩ := mantissaOf_bounds h
  rw [nearestBits_one h, min_lt_iff, or_iff_left (lt_irrefl _)]
  rcases lt_trichotomy num.log2 1023 with hlog | hlog | hlog
  · have hpow := Nat.pow_le_pow_right Nat.two_pos (by omega : num.log2 + 1 ≤ 53 + k)
    rw [pow_add 2 53 k] at hpow
    exact iff_of_true (by omega) (by omega)
  · have hstep : 2 ^ (num.log2 - 52) = 2 * 2 ^ k := by
      rw [show num.log2 - 52 = k + 1 by omega, pow_succ' 2 k]
    rw [show num.log2 + 1 = 53 + (k + 1) by omega, pow_add, pow_succ' 2 k] at hhigh
    rw [← roundQuotient_lt_iff hpos hhigh, mantissaOf_of_large (by omega), hstep]
    omega
  · have hpow := Nat.pow_le_pow_right Nat.two_pos (by omega : 53 + (k + 1) ≤ num.log2)
    rw [pow_add, pow_succ' 2 k] at hpow
    exact iff_of_false (by omega) (by omega)

theorem nearestBits_le (num den : Nat) : nearestBits num den ≤ 2047 * 2 ^ 52 := by
  rw [nearestBits]
  split
  · omega
  · exact min_le_right _ _

theorem ofFloat_ofInt (n : Int) :
    ofFloat (ofInt n) =
      ofBits (UInt64.ofNat ((decide (n < 0)).toNat * 2 ^ 63 + nearestBits n.natAbs 1)) := by
  have hbits : (if decide (n < 0) then nearestBits n.natAbs 1 + 2 ^ 63
      else nearestBits n.natAbs 1) =
      (decide (n < 0)).toNat * 2 ^ 63 + nearestBits n.natAbs 1 := by
    cases decide (n < 0)
    · simp
    · simp [add_comm]
  rw [ofInt, nearest]
  simp only [Nat.pow_eq, hbits]
  exact ofFloat_ofBits _

end Macc.Binary64

namespace Macc

open Binary64

/-- An integer that is nearest to some double, not beyond the largest one. -/
def FitsDouble (n : Int) : Prop :=
  n.natAbs < 2 ^ 1024 - 2 ^ 970

theorem isInf_ofInt_iff (n : Int) : (Binary64.ofInt n).isInf = true ↔ ¬FitsDouble n := by
  have hbit : ∀ negative : Bool, negative.toNat ≤ 1 := by decide
  have hle := nearestBits_le n.natAbs 1
  rw [isInf_iff, ofFloat_ofInt, FitsDouble, ← nearestBits_lt_iff]
  generalize nearestBits n.natAbs 1 = b at hle ⊢
  generalize decide (n < 0) = negative
  have hneg := hbit negative
  constructor
  · rintro ⟨s, hs⟩ hlt
    have hs' := hbit s
    have hbits := bits_ofBits (by rw [hs]; exact Binary64.noConfusion)
    rw [hs, UInt64.toNat_ofNat_of_lt' (by rw [UInt64.size]; omega), bits, isNegative,
      magnitude] at hbits
    omega
  · intro hge
    obtain rfl : b = 2047 * 2 ^ 52 := by omega
    exact ⟨negative, ofBits_bits (v := .infinite negative) trivial Binary64.noConfusion⟩

theorem isNaN_ofInt (n : Int) : (Binary64.ofInt n).isNaN = false := by
  have hle := nearestBits_le n.natAbs 1
  have hbit : ∀ negative : Bool, negative.toNat ≤ 1 := by decide
  have hneg := hbit (decide (n < 0))
  rw [← Bool.not_eq_true, isNaN_iff, ofFloat_ofInt, ofBits_eq,
    UInt64.toNat_ofNat_of_lt' (by rw [UInt64.size]; omega)]
  generalize nearestBits n.natAbs 1 = b at hle ⊢
  intro hnan
  split at hnan
  · split at hnan
    · cases hnan
    · omega
  · split at hnan <;> cases hnan

/-- An integer has a nearest double exactly if it fits. -/
theorem floatOfInt_ok_iff (n : Int) : (∃ x, floatOfInt n = .ok x) ↔ FitsDouble n := by
  have hinf := isInf_ofInt_iff n
  rw [floatOfInt]
  cases h : (Binary64.ofInt n).isInf with
  | true =>
      rw [h] at hinf
      have hlarge := hinf.1 rfl
      constructor
      · rintro ⟨x, hx⟩
        cases hx
      · intro hfits
        exact absurd hfits hlarge
  | false =>
      rw [h] at hinf
      have hfits : FitsDouble n := not_not.1 fun hlarge => Bool.noConfusion (hinf.2 hlarge)
      exact iff_of_true ⟨_, rfl⟩ hfits

/-! ## Integers that are doubles -/

namespace Binary64

theorem floorScaled_of_nonneg (m k : Nat) : floorScaled m k = m * 2 ^ k := by
  rw [floorScaled, if_pos (by omega), Int.toNat_natCast, Nat.pow_eq]

theorem floorScaled_of_nonpos (m k : Nat) : floorScaled m (-k : Int) = m / 2 ^ k := by
  rw [floorScaled]
  split
  · obtain rfl : k = 0 := by omega
    simp
  · rw [neg_neg, Int.toNat_natCast, Nat.pow_eq]

/-- The integer part of a double has at most fifty-three bits before its zeros. -/
theorem dvd_floorScaled {negative : Bool} {m : Nat} {e : Int}
    (hv : (finite negative m e).Canonical) :
    (floorScaled m e).log2 ≤ 1023 ∧ 2 ^ ((floorScaled m e).log2 - 52) ∣ floorScaled m e := by
  obtain ⟨hlow, hhigh, hbits, hfull⟩ := hv
  rcases le_or_gt 0 e with he | he
  · obtain ⟨k, rfl⟩ := Int.eq_ofNat_of_zero_le he
    have hm : 2 ^ 52 ≤ m := hfull.resolve_left (by omega)
    have hlog : (m * 2 ^ k).log2 = 52 + k := by
      rw [Nat.log2_eq_iff (Nat.mul_ne_zero (by omega) (Nat.two_pow_pos k).ne')]
      constructor
      · rw [pow_add]
        exact Nat.mul_le_mul_right _ hm
      · rw [show 52 + k + 1 = 53 + k by omega, pow_add]
        exact Nat.mul_lt_mul_of_pos_right hbits (Nat.two_pow_pos k)
    rw [floorScaled_of_nonneg, hlog, Nat.add_sub_cancel_left]
    exact ⟨by omega, Nat.dvd_mul_left _ _⟩
  · obtain ⟨k, hk⟩ := Int.eq_ofNat_of_zero_le (by omega : 0 ≤ -e)
    have hle : floorScaled m e ≤ m := by
      rw [show e = -(k : Int) by omega, floorScaled_of_nonpos]
      exact Nat.div_le_self _ _
    have hlog : (floorScaled m e).log2 ≤ 52 := by
      by_cases hzero : floorScaled m e = 0
      · rw [hzero]
        decide
      · have hlt := (Nat.log2_lt hzero).2 (lt_of_le_of_lt hle hbits)
        omega
    rw [Nat.sub_eq_zero_of_le hlog, pow_zero]
    exact ⟨by omega, one_dvd _⟩

/-- Such an integer keeps all its bits. -/
theorem mantissaOf_of_dvd {num : Nat} (hdvd : 2 ^ (num.log2 - 52) ∣ num) :
    mantissaOf num < 2 ^ 53 ∧ floorScaled (mantissaOf num) (num.log2 - 52) = num ∧
      (finite false (mantissaOf num) (num.log2 - 52)).isInteger = true := by
  have hhigh := Nat.lt_log2_self (n := num)
  rcases le_total num.log2 52 with hlog | hlog
  · obtain ⟨k, hk⟩ : ∃ k, k = 52 - num.log2 := ⟨_, rfl⟩
    have hplace : (num.log2 : Int) - 52 = -k := by omega
    have hpow : 0 < 2 ^ k := Nat.two_pow_pos k
    rw [mantissaOf_of_small hlog, ← hk, hplace, floorScaled_of_nonpos,
      Nat.mul_div_cancel _ hpow, isInteger]
    refine ⟨?_, rfl, ?_⟩
    · rw [show 53 = num.log2 + 1 + k by omega, pow_add]
      exact Nat.mul_lt_mul_of_pos_right hhigh hpow
    · rw [neg_neg, Int.toNat_natCast, Nat.pow_eq, Nat.mul_mod_left]
      simp
  · obtain ⟨k, hk⟩ : ∃ k, k = num.log2 - 52 := ⟨_, rfl⟩
    have hplace : (num.log2 : Int) - 52 = k := by omega
    have hpow : 0 < 2 ^ k := Nat.two_pow_pos k
    rw [mantissaOf_of_large hlog, ← hk, hplace]
    rw [← hk] at hdvd
    rw [roundQuotient_of_dvd hpow hdvd, floorScaled_of_nonneg, Nat.div_mul_cancel hdvd, isInteger]
    refine ⟨?_, rfl, ?_⟩
    · rw [Nat.div_lt_iff_lt_mul hpow, ← pow_add]
      rw [show 53 + k = num.log2 + 1 by omega]
      exact hhigh
    · simp

/-- The integer part of a double is a double. -/
theorem ofFloat_ofInt_natAbs {n : Int} (hn : n ≠ 0) (hlog : n.natAbs.log2 ≤ 1023)
    (hdvd : 2 ^ (n.natAbs.log2 - 52) ∣ n.natAbs) :
    ofFloat (ofInt n) = finite (n < 0) (mantissaOf n.natAbs) (n.natAbs.log2 - 52) := by
  have hnum : n.natAbs ≠ 0 := Int.natAbs_ne_zero.2 hn
  obtain ⟨hlt, -, -⟩ := mantissaOf_of_dvd hdvd
  obtain ⟨hfull, -⟩ := mantissaOf_bounds hnum
  rw [ofFloat_ofInt, nearestBits_one hnum, min_eq_left (by omega)]
  have hcanonical : (finite (n < 0) (mantissaOf n.natAbs) (n.natAbs.log2 - 52)).Canonical :=
    ⟨by omega, by omega, hlt, .inr hfull⟩
  have hbits := ofBits_bits hcanonical Binary64.noConfusion
  rw [bits_finite, show ((n.natAbs.log2 : Int) - 52 + 1074).toNat = n.natAbs.log2 + 1022 by omega]
    at hbits
  exact hbits

end Binary64

/-- What is left of a double when it is cut to an integer is read as that integer again. -/
theorem floatOfInt_truncate {v : Binary64} (hv : v.Canonical) {n : Int}
    (hn : v.truncate? = some n) :
    ∃ x, floatOfInt n = .ok x ∧ (ofFloat x).isInteger = true ∧
      (ofFloat x).truncate? = some n := by
  by_cases hzero : n = 0
  · subst hzero
    exact ⟨Binary64.ofInt 0, rfl, by decide +kernel, by decide +kernel⟩
  have hparts : n.natAbs.log2 ≤ 1023 ∧ 2 ^ (n.natAbs.log2 - 52) ∣ n.natAbs := by
    cases v with
    | nan => cases hn
    | infinite negative => cases hn
    | finite negative m e =>
        have habs : n.natAbs = floorScaled m e := by
          cases negative <;> cases hn <;> simp
        rw [habs]
        exact dvd_floorScaled hv
  obtain ⟨-, hfloor, hwhole⟩ := mantissaOf_of_dvd hparts.2
  have hvalue := ofFloat_ofInt_natAbs hzero hparts.1 hparts.2
  have hfinite : (Binary64.ofInt n).isInf = false := by
    rw [Bool.eq_false_iff, ne_eq, isInf_iff, hvalue]
    rintro ⟨s, hs⟩
    cases hs
  refine ⟨Binary64.ofInt n, ?_, ?_, ?_⟩
  · rw [floatOfInt, hfinite]
    rfl
  · rw [hvalue]
    exact hwhole
  · rw [hvalue, truncate?.eq_def]
    by_cases hneg : n < 0
    · simp only [hneg, decide_true, hfloor]
      rw [Int.ofNat_natAbs_of_nonpos (le_of_lt hneg), neg_neg]
    · simp only [hneg, decide_false, hfloor]
      rw [Int.natAbs_of_nonneg (not_lt.1 hneg)]

end Macc
