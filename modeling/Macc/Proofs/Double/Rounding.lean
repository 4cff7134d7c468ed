import Macc.Proofs.Double.Quotients

/-!
# What rounding leaves of a number

Rounding keeps fifty-three bits and two more that say what was cut off, a half or
not and more or less than that. The two bits are enough: a mantissa with them is
rounded exactly as the quotient is that it was cut from. With that, two questions
about size can be answered to the last bit. Which numbers are rounded to
infinity: those from the middle between the largest double and the next power of
two on. And which are rounded beyond a power of two: none that are not beyond it
before.

Sizes are counted in units of the least double, so that they are naturals and
numbers with different exponents can be compared.
-/

namespace Macc.Binary64

open Float.Model (Format UnpackedFloat totalExponent)
open Float.Model.UnpackedFloat (Accuracy ExtendedMantissa Sign pack roundWithAccuracy
  shiftToExponent shiftToTargetExponent unpack)

/-! ## Rounding, exactly -/

/-- Whether a mantissa and its two spare bits are a quotient cut off and what its rest says: the
first bit, whether a half is left, and the other, whether more or less than that. -/
structure Holds (em : ExtendedMantissa) (m k : Nat) : Prop where
  mantissa : em.mantissa = m / 2 ^ k
  roundBit : em.roundBit = true ↔ 2 ^ k ≤ 2 * (m % 2 ^ k)
  stickyBit : em.stickyBit = true ↔ 2 * (m % 2 ^ k) ≠ 0 ∧ 2 * (m % 2 ^ k) ≠ 2 ^ k

theorem Holds.shiftRightOne {em : ExtendedMantissa} {m k : Nat} (h : Holds em m k) :
    Holds em.shiftRightOne m (k + 1) := by
  have hrest : m % 2 ^ (k + 1) = m % 2 ^ k + 2 ^ k * (m / 2 ^ k % 2) := Nat.mod_pow_succ
  have hlt : m % 2 ^ k < 2 ^ k := Nat.mod_lt _ (Nat.two_pow_pos k)
  have hpow : 2 ^ (k + 1) = 2 * 2 ^ k := pow_succ' 2 k
  have hbit : m / 2 ^ k % 2 = 0 ∨ m / 2 ^ k % 2 = 1 := by omega
  refine ⟨?_, ?_, ?_⟩
  · rw [ExtendedMantissa.shiftRightOne, h.mantissa, Nat.div_div_eq_div_mul, Nat.pow_succ]
  · rw [ExtendedMantissa.shiftRightOne, h.mantissa, bne_iff_ne, hrest, hpow]
    rcases hbit with hbit | hbit
    · rw [hbit]
      omega
    · rw [hbit]
      omega
  · rw [ExtendedMantissa.shiftRightOne, Bool.or_eq_true, h.roundBit, h.stickyBit, hrest, hpow]
    rcases hbit with hbit | hbit
    · rw [hbit]
      omega
    · rw [hbit]
      omega

theorem holds_shiftRight (m k : Nat) :
    Holds (ExtendedMantissa.ofMantissaAndAccuracy m .exact >>> k) m k := by
  induction k with
  | zero =>
      refine ⟨(Nat.div_one m).symm, ?_, ?_⟩
      · rw [pow_zero, Nat.mod_one]
        exact iff_of_false Bool.false_ne_true (by omega)
      · rw [pow_zero, Nat.mod_one]
        exact iff_of_false Bool.false_ne_true fun h => h.1 rfl
  | succ k ih => exact ih.shiftRightOne

/-- With the two spare bits, a mantissa is rounded as the quotient is. -/
theorem Holds.roundedMantissa {em : ExtendedMantissa} {m k : Nat} (h : Holds em m k) :
    em.roundedMantissa = roundQuotient m (2 ^ k) := by
  obtain ⟨hmantissa, hround, hsticky⟩ := h
  obtain ⟨n, roundBit, stickyBit⟩ := em
  dsimp only at hmantissa hround hsticky
  rw [roundQuotient, ← hmantissa]
  have hlt : m % 2 ^ k < 2 ^ k := Nat.mod_lt _ (Nat.two_pow_pos k)
  cases roundBit with
  | false =>
      have hhalf : 2 * (m % 2 ^ k) < 2 ^ k := by
        rw [← not_le, ← hround]
        exact Bool.false_ne_true
      rw [if_pos hhalf]
      cases stickyBit <;> rfl
  | true =>
      have hhalf : 2 ^ k ≤ 2 * (m % 2 ^ k) := hround.1 rfl
      rw [if_neg (not_lt.2 hhalf)]
      cases stickyBit with
      | false =>
          have hsame : ¬2 ^ k < 2 * (m % 2 ^ k) := by
            intro hmore
            exact Bool.false_ne_true (hsticky.2 ⟨by omega, by omega⟩)
          rw [if_neg hsame]
          rfl
      | true =>
          have hmore : 2 ^ k < 2 * (m % 2 ^ k) := by
            have hne := (hsticky.1 rfl).2
            omega
          rw [if_pos hmore]
          rfl

/-- Rounding what is exact is rounding a quotient by a power of two. -/
theorem roundWithAccuracy_exact (s : Sign) (m : Nat) (e : Int) {n : Nat} {f : Int}
    (hn : n = roundQuotient m (2 ^ excess m e)) (hf : f = e + excess m e) :
    roundWithAccuracy Format.binary64 s m e .exact =
      if h : n / 2 ^ excess n f = 0 then .zero s
      else .finite s (n / 2 ^ excess n f) (f + excess n f) (Nat.pos_of_ne_zero h) := by
  have hround : n =
      (ExtendedMantissa.ofMantissaAndAccuracy m .exact >>> excess m e).roundedMantissa :=
    hn.trans (holds_shiftRight m _).roundedMantissa.symm
  subst hround hf
  rw [roundWithAccuracy]
  simp only [shiftToTargetExponent, shiftToExponent, mantissa_shiftRight,
    mantissa_ofMantissaAndAccuracy]
  rfl

/-! ## Beyond the largest double -/

theorem isInf_of_isFinite {u : UnpackedFloat} (h : u.isFinite = true) : u.isInf = false := by
  cases u with
  | notANumber => cases h
  | infinity s => cases h
  | zero s => rfl
  | finite s m e hm => rfl

theorem isInf_unpack_pack_infinity (s : Sign) :
    (unpack Format.binary64 (pack Format.binary64 (.infinity s))).isInf = true := by
  cases s <;> rfl

/-- What is packed becomes infinite by its exponent alone. -/
theorem isInf_unpack_pack_finite {s : Sign} {m : Nat} {e : Int} {hm : 0 < m} :
    (unpack Format.binary64 (pack Format.binary64 (.finite s m e hm))).isInf = true ↔ 972 ≤ e := by
  by_cases he : e ≤ 971
  · have hbound : ExponentLe 971 (.finite s m e hm) := he
    rw [isInf_of_isFinite (isFinite_unpack_pack hbound)]
    exact iff_of_false Bool.false_ne_true (by omega)
  · rw [unpack_pack_of_large s m hm (by omega)]
    exact iff_of_true rfl (by omega)

/-- What is left of a number when the bits are dropped that do not fit is infinite by its exponent,
unless it is nothing. -/
theorem isInf_dropped_iff (s : Sign) (n : Nat) (f : Int) :
    (unpack Format.binary64 (pack Format.binary64
      (if h : n / 2 ^ excess n f = 0 then UnpackedFloat.zero s
        else .finite s (n / 2 ^ excess n f) (f + excess n f) (Nat.pos_of_ne_zero h)))).isInf =
      true ↔ n / 2 ^ excess n f ≠ 0 ∧ 972 ≤ f + excess n f := by
  split
  · next hzero =>
      have hbound : ExponentLe 971 (.zero s) := trivial
      rw [isInf_of_isFinite (isFinite_unpack_pack hbound)]
      exact iff_of_false Bool.false_ne_true fun h => h.1 hzero
  · next hsome =>
      rw [isInf_unpack_pack_finite]
      exact ⟨fun h => ⟨hsome, h⟩, fun h => h.2⟩

/-- A quotient of fifty-three bits is rounded to one bit more from the middle of the last place
on. -/
theorem le_roundQuotient_iff {m k n : Nat} (hn : n = roundQuotient m (2 ^ k))
    (hquotient : m / 2 ^ k < 2 ^ 53) : 2 ^ 53 ≤ n ↔ (2 ^ 54 - 1) * 2 ^ k ≤ 2 * m := by
  cases k with
  | zero =>
      rw [pow_zero, roundQuotient_of_dvd Nat.one_pos (one_dvd m), Nat.div_one] at hn
      rw [pow_zero, Nat.div_one] at hquotient
      omega
  | succ j =>
      have hpow : 2 ^ (j + 1) = 2 * 2 ^ j := pow_succ' 2 j
      have hhalf := Nat.two_pow_pos j
      rw [hpow] at hn hquotient ⊢
      have hbelow := (Nat.div_lt_iff_lt_mul (by omega)).1 hquotient
      have hround := roundQuotient_lt_iff hhalf hbelow
      rw [← hn] at hround
      omega

/-- A number that is rounded becomes infinite if it is not below the middle between the largest
double and the next power of two. -/
theorem isInf_round_iff (s : Sign) {m : Nat} (hm : 0 < m) {e : Int} (he : e ≤ 971) :
    (unpack Format.binary64 (pack Format.binary64
        (roundWithAccuracy Format.binary64 s m e .exact))).isInf = true ↔
      (2 ^ 54 - 1) * 2 ^ (971 - e).toNat ≤ 2 * m := by
  obtain ⟨k, hk⟩ : ∃ k, k = excess m e := ⟨_, rfl⟩
  obtain ⟨n, hn⟩ : ∃ n, n = roundQuotient m (2 ^ k) := ⟨_, rfl⟩
  obtain ⟨f, hf⟩ : ∃ f : Int, f = e + k := ⟨_, rfl⟩
  have hexcess : (k : Int) = max (m.log2 + e - 52) (-1074) - e ∨
      k = 0 ∧ max (m.log2 + e - 52) (-1074) ≤ e := by
    rw [hk, excess, targetExponent_binary64, totalExponent]
    omega
  have hlow := Nat.log2_self_le hm.ne'
  have hhigh := Nat.lt_log2_self (n := m)
  have hquotient : m / 2 ^ k < 2 ^ 53 := by
    rw [hk]
    exact div_excess_lt m e
  have hle : n ≤ 2 ^ 53 := by
    have hstep := roundQuotient_le m (2 ^ k)
    omega
  have hlogs : k = 0 → n.log2 = m.log2 := by
    rintro rfl
    rw [hn, pow_zero, roundQuotient_of_dvd Nat.one_pos (one_dvd m), Nat.div_one]
  have hpos : k ≤ m.log2 → 0 < n := fun hshort =>
    lt_of_lt_of_le (Nat.div_pos (le_trans (Nat.pow_le_pow_right Nat.two_pos hshort) hlow)
      (Nat.two_pow_pos k)) (hn ▸ le_roundQuotient m (2 ^ k))
  have hnext : (excess n f : Int) = max (max (n.log2 + f - 52) (-1074) - f) 0 := by
    rw [excess, targetExponent_binary64, totalExponent]
    omega
  have hlog : n.log2 ≤ 53 := by
    by_cases hzero : n = 0
    · rw [hzero]
      decide
    · have hlt := (Nat.log2_lt hzero).2 (by omega : n < 2 ^ 54)
      omega
  rw [roundWithAccuracy_exact s m e (hk ▸ hn) (hk ▸ hf), isInf_dropped_iff]
  -- the exponent after rounding is that of the last bit kept, and one more after a carry
  rcases lt_trichotomy (m.log2 + e - 52) 971 with hplace | hplace | hplace
  · refine iff_of_false (fun h => by omega) (not_le.2 ?_)
    calc 2 * m < 2 * 2 ^ (m.log2 + 1) := by omega
      _ ≤ 2 * 2 ^ (52 + (971 - e).toNat) :=
          Nat.mul_le_mul_left 2 (Nat.pow_le_pow_right Nat.two_pos (by omega))
      _ = 2 ^ 53 * 2 ^ (971 - e).toNat := by rw [pow_add]; ring
      _ ≤ (2 ^ 54 - 1) * 2 ^ (971 - e).toNat := Nat.mul_le_mul_right _ (by decide)
  · -- the number reaches the last exponent, and a carry alone takes it further
    have hlength : (971 - e).toNat = k := by omega
    have hcarry : 972 ≤ f + excess n f ↔ 2 ^ 53 ≤ n := by
      rw [← Nat.le_log2 (hpos (by omega)).ne']
      omega
    have hnonzero := (div_excess_pos (hpos (by omega)) (by omega : -1074 ≤ f)).ne'
    rw [and_iff_right hnonzero, hcarry, hlength, le_roundQuotient_iff hn hquotient]
  · have hnonzero := (div_excess_pos (hpos (by omega)) (by omega : -1074 ≤ f)).ne'
    refine iff_of_true ⟨hnonzero, by omega⟩ ?_
    calc (2 ^ 54 - 1) * 2 ^ (971 - e).toNat ≤ 2 ^ 54 * 2 ^ (971 - e).toNat :=
          Nat.mul_le_mul_right _ (by decide)
      _ = 2 * 2 ^ (53 + (971 - e).toNat) := by rw [pow_add]; ring
      _ ≤ 2 * 2 ^ m.log2 := Nat.mul_le_mul_left 2 (Nat.pow_le_pow_right Nat.two_pos (by omega))
      _ ≤ 2 * m := by omega

/-- The middle between the largest double and the next power of two, in units of the least one. -/
def overflow : Nat := (2 ^ 54 - 1) * 2 ^ 2044

/-- The exponent as a variable, so that no step writes such a power out. -/
theorem exists_overflow : ∃ k, k = 2044 ∧ overflow = (2 ^ 54 - 1) * 2 ^ k :=
  ⟨_, rfl, rfl⟩

theorem overflow_pos : 0 < overflow := by
  obtain ⟨k, -, hoverflow⟩ := exists_overflow
  rw [hoverflow]
  exact Nat.mul_pos (by decide) (Nat.two_pow_pos k)

/-- Rounding at an exponent first makes room for the bits that do not fit above the exponent. -/
theorem exists_round (s : Sign) (m : Nat) (e : Int) : ∃ k : Nat, (-1074 ≤ e → -1074 ≤ e - k) ∧
    UnpackedFloat.round Format.binary64 s m e =
      roundWithAccuracy Format.binary64 s (m * 2 ^ k) (e - k) .exact := by
  refine ⟨(e - Format.binary64.targetExponent (totalExponent m e)).toNat, ?_, ?_⟩
  · rw [targetExponent_binary64]
    omega
  · rw [UnpackedFloat.round, ← Nat.shiftLeft_eq]
    rfl

/-- An integer is normalized by rounding its amount, if it has one. -/
theorem normalize_cases (d e : Int) (s : Sign) :
    d = 0 ∧ UnpackedFloat.normalize Format.binary64 d e s = .zero s ∨
      ∃ t, 0 < d.natAbs ∧ UnpackedFloat.normalize Format.binary64 d e s =
        UnpackedFloat.round Format.binary64 t d.natAbs e := by
  rw [UnpackedFloat.normalize]
  rcases lt_trichotomy d 0 with hd | rfl | hd
  · have habs : (-d).toNat = d.natAbs := by omega
    rw [compare_lt_iff_lt.2 hd]
    dsimp only
    rw [habs]
    exact .inr ⟨.negative, by omega, rfl⟩
  · rw [compare_eq_iff_eq.2 rfl]
    exact .inl ⟨rfl, rfl⟩
  · have habs : d.toNat = d.natAbs := by omega
    rw [compare_gt_iff_gt.2 hd]
    dsimp only
    rw [habs]
    exact .inr ⟨.positive, by omega, rfl⟩

theorem isInf_round_units_iff (s : Sign) {m : Nat} (hm : 0 < m) {e : Int} (hleast : -1074 ≤ e)
    (he : e ≤ 971) :
    (unpack Format.binary64 (pack Format.binary64
        (UnpackedFloat.round Format.binary64 s m e))).isInf = true ↔
      overflow ≤ m * 2 ^ (e + 1074).toNat := by
  obtain ⟨k, -, hround⟩ := exists_round s m e
  have hlength : (971 - (e - k)).toNat = (971 - e).toNat + k := by omega
  obtain ⟨last, hlast, hoverflow⟩ := exists_overflow
  have hunits : (971 - e).toNat + (e + 1074).toNat = last + 1 := by omega
  have hscaled : (2 ^ 54 - 1) * 2 ^ (971 - e).toNat * 2 ^ (e + 1074).toNat = 2 * overflow := by
    rw [mul_assoc, ← pow_add, hunits, hoverflow, pow_succ]
    ring
  rw [hround, isInf_round_iff s (Nat.mul_pos hm (Nat.two_pow_pos k)) (by omega), hlength, pow_add,
    ← mul_assoc, ← mul_assoc, Nat.mul_le_mul_right_iff (Nat.two_pow_pos k),
    ← Nat.mul_le_mul_right_iff (Nat.two_pow_pos (e + 1074).toNat), hscaled, mul_assoc,
    Nat.mul_le_mul_left_iff Nat.two_pos]

theorem isInf_normalize_iff (d : Int) (s : Sign) {e : Int} (hleast : -1074 ≤ e) (he : e ≤ 971) :
    (unpack Format.binary64 (pack Format.binary64
        (UnpackedFloat.normalize Format.binary64 d e s))).isInf = true ↔
      overflow ≤ d.natAbs * 2 ^ (e + 1074).toNat := by
  rcases normalize_cases d e s with ⟨rfl, hzero⟩ | ⟨t, hd, hround⟩
  · have hbound : ExponentLe 971 (.zero s) := trivial
    rw [hzero, isInf_of_isFinite (isFinite_unpack_pack hbound), Int.natAbs_zero, zero_mul]
    exact iff_of_false Bool.false_ne_true (not_le.2 overflow_pos)
  · rw [hround, isInf_round_units_iff t hd hleast he]

theorem isNaN_roundWithAccuracy (s : Sign) (m : Nat) (e : Int) (a : Accuracy) :
    (roundWithAccuracy Format.binary64 s m e a).isNaN = false := by
  obtain ⟨n, -, -, hround⟩ := exists_roundWithAccuracy s m e a
  rw [hround]
  split <;> rfl

theorem isNaN_normalize (d e : Int) (s : Sign) :
    (UnpackedFloat.normalize Format.binary64 d e s).isNaN = false := by
  rcases normalize_cases d e s with ⟨-, hzero⟩ | ⟨t, -, hround⟩
  · rw [hzero]
    rfl
  · rw [hround]
    exact isNaN_roundWithAccuracy _ _ _ _

theorem unitCount_lt_overflow {s : Bool} {m : Nat} {e : Int} (h : (finite s m e).Canonical) :
    (finite s m e).unitCount < overflow := by
  obtain ⟨hlow, hhigh, hbits, -⟩ := h
  obtain ⟨last, hlast, hoverflow⟩ := exists_overflow
  rw [unitCount, hoverflow]
  calc m * 2 ^ (e + 1074).toNat ≤ (2 ^ 53 - 1) * 2 ^ (last + 1) :=
        Nat.mul_le_mul (by omega) (Nat.pow_le_pow_right Nat.two_pos (by omega))
    _ = (2 ^ 54 - 2) * 2 ^ last := by rw [pow_succ']; ring
    _ < (2 ^ 54 - 1) * 2 ^ last := Nat.mul_lt_mul_of_pos_right (by decide) (Nat.two_pow_pos _)

theorem natAbs_units (v : Binary64) : v.units.natAbs = v.unitCount := by
  rw [units]
  split
  · rw [Int.natAbs_neg, Int.natAbs_natCast]
  · rw [Int.natAbs_natCast]

/-! ## Below a power of two -/

theorem roundQuotient_le_of_le {num den bound : Nat} (hden : 0 < den) (h : num ≤ bound * den) :
    roundQuotient num den ≤ bound := by
  have hquotient : num / den ≤ bound := Nat.div_le_of_le_mul (by rwa [mul_comm] at h)
  rcases hquotient.lt_or_eq with hlt | heq
  · have hstep := roundQuotient_le num den
    omega
  · have hdecomposed := Nat.div_add_mod num den
    rw [heq, mul_comm] at hdecomposed
    have hdvd : den ∣ num := Nat.dvd_of_mod_eq_zero (by omega)
    rw [roundQuotient_of_dvd hden hdvd, heq]

/-- Rounding carries nothing beyond a power of two. -/
theorem unitCount_round_le (s : Sign) {m : Nat} (hm : 0 < m) {e : Int} (hleast : -1074 ≤ e)
    {b : Nat} (h : m * 2 ^ (e + 1074).toNat ≤ 2 ^ b) :
    (ofUnpacked (roundWithAccuracy Format.binary64 s m e .exact)).unitCount ≤ 2 ^ b := by
  obtain ⟨k, hk⟩ : ∃ k, k = excess m e := ⟨_, rfl⟩
  obtain ⟨f, hf⟩ : ∃ f : Int, f = e + k := ⟨_, rfl⟩
  obtain ⟨n, hn⟩ : ∃ n, n = roundQuotient m (2 ^ k) := ⟨_, rfl⟩
  have hlength : m.log2 + (e + 1074).toNat ≤ b := by
    refine (Nat.pow_le_pow_iff_right Nat.one_lt_two).1 (le_trans ?_ h)
    rw [pow_add]
    exact Nat.mul_le_mul_right _ (Nat.log2_self_le hm.ne')
  have hplace : k + (e + 1074).toNat ≤ b ∧ (f + 1074).toNat = k + (e + 1074).toNat := by
    rw [excess, targetExponent_binary64, totalExponent] at hk
    omega
  obtain ⟨hplace, hunits⟩ := hplace
  have hkept : n * 2 ^ (f + 1074).toNat ≤ 2 ^ b := by
    have hpow : 2 ^ b = 2 ^ (b - (f + 1074).toNat) * 2 ^ (f + 1074).toNat := by
      rw [← pow_add]
      congr 1
      omega
    rw [hpow]
    refine Nat.mul_le_mul_right _ ?_
    rw [hn]
    refine roundQuotient_le_of_le (Nat.two_pow_pos k) ?_
    refine Nat.le_of_mul_le_mul_right ?_ (Nat.two_pow_pos (e + 1074).toNat)
    rw [mul_assoc, ← pow_add, ← hunits, ← hpow]
    exact h
  rw [roundWithAccuracy_exact s m e (hk ▸ hn) (hk ▸ hf)]
  split
  · exact Nat.zero_le _
  · refine le_trans ?_ hkept
    have hlast : (f + excess n f + 1074).toNat = excess n f + (f + 1074).toNat := by omega
    rw [ofUnpacked, unitCount, hlast, pow_add, ← mul_assoc]
    exact Nat.mul_le_mul_right _ (Nat.div_mul_le_self n _)

theorem unitCount_normalize_le (d : Int) (s : Sign) {e : Int} (hleast : -1074 ≤ e) {b : Nat}
    (h : d.natAbs * 2 ^ (e + 1074).toNat ≤ 2 ^ b) :
    (ofUnpacked (UnpackedFloat.normalize Format.binary64 d e s)).unitCount ≤ 2 ^ b := by
  rcases normalize_cases d e s with ⟨-, hzero⟩ | ⟨t, hd, hround⟩
  · rw [hzero]
    exact Nat.zero_le _
  · obtain ⟨k, hkept, hshift⟩ := exists_round t d.natAbs e
    have hkept := hkept hleast
    have hcount : (e + 1074).toNat = k + (e - k + 1074).toNat := by omega
    rw [hround, hshift]
    refine unitCount_round_le t (Nat.mul_pos hd (Nat.two_pow_pos k)) hkept ?_
    rwa [mul_assoc, ← pow_add, ← hcount]

/-- A mantissa of fifty-three bits is packed as it is. -/
theorem ofUnpacked_unpack_pack_of_full (s : Sign) {m : Nat} (hm : 0 < m) (hfull : m.log2 = 52)
    {e : Int} (hleast : -1074 ≤ e) (he : e ≤ 971) :
    ofUnpacked (unpack Format.binary64 (pack Format.binary64 (.finite s m e hm))) =
      ofUnpacked (.finite s m e hm) := by
  have hbias : Format.binary64.exponentBias = 1023 := rfl
  have hlow := Nat.log2_self_le hm.ne'
  have hhigh := Nat.lt_log2_self (n := m)
  rw [hfull] at hlow hhigh
  obtain ⟨b, hb⟩ : ∃ b, b = (e + Format.binary64.exponentBias + (52 : Nat)).toNat := ⟨_, rfl⟩
  have hnormal : m.log2 + 1 = Format.binary64.mantissaBits := by rw [hfull]; rfl
  have hrange : ¬2 ^ 11 ≤ b + 1 := by
    rw [hb, hbias]
    omega
  rw [pack]
  dsimp only
  rw [if_neg (hb ▸ hrange), if_pos hnormal, ← hb]
  rw [hbias] at hb
  have hmantissa : (1#1 ++ BitVec.ofNat 52 m).toNat = m := by
    rw [toNat_append_one, BitVec.toNat_ofNat]
    omega
  have hexponent : (b : Int) - 1075 = e := by omega
  rw [unpack_packComponents, if_neg (biased_ne_ones (by omega)),
    if_neg (biased_ne_zero (by omega) (by omega)), ofUnpacked, ofUnpacked, hmantissa,
    toNat_biased (by omega), hexponent]

/-- A shorter mantissa is packed in units of the least double. -/
theorem unitCount_unpack_pack_of_short (s : Sign) {m : Nat} (hm : 0 < m) (hshort : m.log2 < 52)
    {e : Int} (he : e ≤ 971) :
    (ofUnpacked (unpack Format.binary64 (pack Format.binary64 (.finite s m e hm)))).unitCount ≤
      m := by
  have hbias : Format.binary64.exponentBias = 1023 := rfl
  have hnormal : ¬m.log2 + 1 = Format.binary64.mantissaBits := by
    intro h
    change _ = 53 at h
    omega
  have hkept : (BitVec.ofNat 52 m).toNat = m := by
    rw [BitVec.toNat_ofNat, Nat.mod_eq_of_lt ((Nat.log2_lt hm.ne').1 hshort)]
  have hleast : ((0#11).toNat : Int) - 1075 + 1 = -1074 := rfl
  rw [pack]
  dsimp only
  rw [if_neg (by rw [hbias]; omega), if_neg hnormal, unpack_packComponents, if_neg (by decide),
    if_pos rfl]
  split
  · exact Nat.zero_le _
  · rw [ofUnpacked, unitCount, hkept, hleast]
    exact Nat.le_of_eq (Nat.mul_one m)

/-- Packing raises no number, if it is not made infinite. -/
theorem unitCount_unpack_pack_le {u : UnpackedFloat} (hr : Rounded u) :
    (ofUnpacked (unpack Format.binary64 (pack Format.binary64 u))).unitCount ≤
      (ofUnpacked u).unitCount := by
  cases u with
  | notANumber => exact Nat.zero_le _
  | infinity s => cases s <;> exact Nat.zero_le _
  | zero s => cases s <;> exact Nat.zero_le _
  | finite s m e hm =>
      obtain ⟨hbits, hleast⟩ := hr
      have hlog := (Nat.log2_lt hm.ne').2 hbits
      by_cases he : e ≤ 971
      · by_cases hfull : m.log2 = 52
        · rw [ofUnpacked_unpack_pack_of_full s hm hfull hleast he]
        · refine le_trans (unitCount_unpack_pack_of_short s hm (by omega) he) ?_
          rw [ofUnpacked, unitCount]
          exact Nat.le_mul_of_pos_right m (Nat.two_pow_pos _)
      · rw [unpack_pack_of_large s m hm (by omega)]
        exact Nat.zero_le _

end Macc.Binary64
