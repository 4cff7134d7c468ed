import Macc.Proofs.Double.Rounding

/-!
# Differences that overflow

The difference of two finite doubles is a double or beyond them all, and which it
is can be told from the exact difference. So the farther of two numbers is
infinitely far from a third one whenever the nearer is. Nothing else that is
computed on a line between two values from zero to one comes to infinity by
itself: their difference is at most one, and what is at most one makes no finite
number infinite.
-/

namespace Macc.Binary64

open Float.Model (Format UnpackedFloat)
open Float.Model.UnpackedFloat (Sign pack unpack)

/-! ## Differences -/

/-- A finite double is below the overflow, and stays finite when it is packed. -/
theorem finite_of_canonical {u : UnpackedFloat} (hu : (ofUnpacked u).Canonical)
    (hf : u.isFinite = true) : (ofUnpacked u).unitCount < overflow ∧
      (unpack Format.binary64 (pack Format.binary64 u)).isInf = false := by
  cases u with
  | notANumber => cases hf
  | infinity s => cases hf
  | zero s =>
      have hbound : ExponentLe 971 (.zero s) := trivial
      exact ⟨unitCount_lt_overflow hu, isInf_of_isFinite (isFinite_unpack_pack hbound)⟩
  | finite s m e hm =>
      have hbound : ExponentLe 971 (.finite s m e hm) := hu.2.1
      exact ⟨unitCount_lt_overflow hu, isInf_of_isFinite (isFinite_unpack_pack hbound)⟩

/-- What is left when a zero is one of the two is the other one; otherwise the exact difference is
rounded. -/
theorem sub_cases {u v : UnpackedFloat} (hu : (ofUnpacked u).Canonical)
    (hv : (ofUnpacked v).Canonical) (hfu : u.isFinite = true) (hfv : v.isFinite = true) :
    ((ofUnpacked (UnpackedFloat.sub Format.binary64 v u)).Canonical ∧
      (UnpackedFloat.sub Format.binary64 v u).isFinite = true ∧
      (ofUnpacked (UnpackedFloat.sub Format.binary64 v u)).unitCount =
        ((ofUnpacked v).units - (ofUnpacked u).units).natAbs) ∨
    ∃ d e, UnpackedFloat.sub Format.binary64 v u =
        UnpackedFloat.normalize Format.binary64 d e .positive ∧ -1074 ≤ e ∧ e ≤ 971 ∧
      d.natAbs * 2 ^ (e + 1074).toNat =
        ((ofUnpacked v).units - (ofUnpacked u).units).natAbs := by
  have hzero : ∀ s : Sign, (ofUnpacked (.zero s)).units = 0 := by decide
  have hcanonical : ∀ s : Sign, (ofUnpacked (.zero s)).Canonical := by
    intro s
    refine ⟨?_, ?_, ?_, ?_⟩ <;> omega
  cases u with
  | notANumber => cases hfu
  | infinity s => cases hfu
  | zero s =>
      rw [hzero, sub_zero, natAbs_units]
      cases v with
      | notANumber => cases hfv
      | infinity t => cases hfv
      | zero t =>
          rw [UnpackedFloat.sub]
          split
          · exact .inl ⟨hcanonical _, rfl, rfl⟩
          · exact .inl ⟨hcanonical _, rfl, rfl⟩
      | finite t n f hn => exact .inl ⟨hv, rfl, rfl⟩
  | finite s m e hm =>
      cases v with
      | notANumber => cases hfv
      | infinity t => cases hfv
      | zero t =>
          rw [hzero, zero_sub, Int.natAbs_neg, natAbs_units]
          exact .inl ⟨hu, rfl, rfl⟩
      | finite t n f hn =>
          have hleast : -1074 ≤ min f e := le_min hv.1 hu.1
          have hmost : min f e ≤ 971 := (min_le_left f e).trans hv.2.1
          have hcount := congrArg₂ (· - ·) (apply_decreaseExponent t n (min_le_left f e) hleast)
            (apply_decreaseExponent s m (min_le_right f e) hleast)
          rw [← sub_mul] at hcount
          change _ = (ofUnpacked (.finite t n f hn)).units - (ofUnpacked (.finite s m e hm)).units
            at hcount
          rw [← hcount, Int.natAbs_mul]
          exact .inr ⟨_, _, rfl, hleast, hmost, rfl⟩

/-- The difference of two finite doubles is infinite if the exact one overflows. -/
theorem isInf_sub_iff {u v : UnpackedFloat} (hu : (ofUnpacked u).Canonical)
    (hv : (ofUnpacked v).Canonical) (hfu : u.isFinite = true) (hfv : v.isFinite = true) :
    (unpack Format.binary64 (pack Format.binary64
        (UnpackedFloat.sub Format.binary64 v u))).isInf = true ↔
      overflow ≤ ((ofUnpacked v).units - (ofUnpacked u).units).natAbs := by
  rcases sub_cases hu hv hfu hfv with ⟨hcanonical, hfinite, hcount⟩ |
    ⟨d, e, hsub, hleast, hmost, hcount⟩
  · obtain ⟨hbelow, hpacked⟩ := finite_of_canonical hcanonical hfinite
    rw [hpacked, ← hcount]
    exact iff_of_false Bool.false_ne_true (not_le.2 hbelow)
  · rw [hsub, isInf_normalize_iff d .positive hleast hmost, hcount]

/-- Rounding carries no difference beyond a power of two. -/
theorem unitCount_sub_le {u v : UnpackedFloat} (hu : (ofUnpacked u).Canonical)
    (hv : (ofUnpacked v).Canonical) (hfu : u.isFinite = true) (hfv : v.isFinite = true) {b : Nat}
    (h : ((ofUnpacked v).units - (ofUnpacked u).units).natAbs ≤ 2 ^ b) :
    (ofUnpacked (unpack Format.binary64 (pack Format.binary64
        (UnpackedFloat.sub Format.binary64 v u)))).unitCount ≤ 2 ^ b := by
  refine le_trans (unitCount_unpack_pack_le (rounded_sub hu hv)) ?_
  rcases sub_cases hu hv hfu hfv with ⟨-, -, hcount⟩ | ⟨d, e, hsub, hleast, -, hcount⟩
  · rwa [hcount]
  · rw [hsub]
    exact unitCount_normalize_le d .positive hleast (hcount ▸ h)

end Macc.Binary64

namespace Macc

open Binary64
open Float.Model (Format UnpackedFloat)
open Float.Model.UnpackedFloat (pack roundWithAccuracy unpack)

/-! ## Doubles -/

theorem le_float_iff {x y : Float} : x ≤ y ↔
    x.toModel.unpack.compare y.toModel.unpack = some .lt ∨
      x.toModel.unpack.compare y.toModel.unpack = some .eq := by
  change decide (x.toModel ≤ y.toModel) = true ↔ _
  rw [decide_eq_true_eq]
  change (x.toModel.unpack.le y.toModel.unpack) = true ↔ _
  rw [UnpackedFloat.le]
  rcases x.toModel.unpack.compare y.toModel.unpack with _ | _ | _ | _ <;> decide

theorem isFinite_iff {x : Float} : x.isFinite = true ↔ x.isNaN = false ∧ x.isInf = false := by
  change x.toModel.unpack.isFinite = true ↔
    x.toModel.unpack.isNaN = false ∧ x.toModel.unpack.isInf = false
  cases x.toModel.unpack <;>
    simp [UnpackedFloat.isFinite, UnpackedFloat.isNaN, UnpackedFloat.isInf]

section

variable {x y z : Float}

theorem isFinite_of_lt_of_lt (hxy : Scalar.lt x y = true) (hyz : Scalar.lt y z = true) :
    y.isFinite = true := by
  rw [lt_float_iff] at hxy hyz
  change y.toModel.unpack.isFinite = true
  generalize x.toModel.unpack = u at hxy
  generalize y.toModel.unpack = v at hxy hyz ⊢
  generalize z.toModel.unpack = w at hyz
  cases v with
  | notANumber => cases hyz
  | infinity s =>
      cases s with
      | negative =>
          cases u with
          | infinity t => cases t <;> cases hxy
          | finite t m e hm => cases t <;> cases hxy
          | _ => cases hxy
      | positive =>
          cases w with
          | infinity t => cases t <;> cases hyz
          | finite t m e hm => cases t <;> cases hyz
          | _ => cases hyz
  | zero s => rfl
  | finite s m e hm => rfl

theorem exists_finite (hx : x.isFinite = true) : ∃ s m e, ofFloat x = .finite s m e := by
  rw [ofFloat_eq_ofUnpacked]
  change x.toModel.unpack.isFinite = true at hx
  generalize x.toModel.unpack = u at hx ⊢
  cases u with
  | notANumber => cases hx
  | infinity s => cases hx
  | zero s => exact ⟨_, _, _, rfl⟩
  | finite s m e hm => exact ⟨_, _, _, rfl⟩

/-- Finite doubles are ordered as their values are. -/
theorem units_lt (hx : x.isFinite = true) (hy : y.isFinite = true)
    (h : Scalar.lt x y = true) : (ofFloat x).units < (ofFloat y).units := by
  obtain ⟨-, -, hrank⟩ := compare_eq_some_iff.1 (lt_float_iff.1 h)
  rw [compare_lt_iff_lt] at hrank
  have hcx : (ofFloat x).Canonical := canonical_ofBits x.toBits
  have hcy : (ofFloat y).Canonical := canonical_ofBits y.toBits
  obtain ⟨s, m, e, hx⟩ := exists_finite hx
  obtain ⟨t, n, f, hy⟩ := exists_finite hy
  rw [hx] at hcx hrank ⊢
  rw [hy] at hcy hrank ⊢
  exact units_lt_of_rank hcx hcy hrank

/-- The difference of finite doubles is infinite if that of their values overflows. -/
theorem isInf_sub (hx : x.isFinite = true) (hy : y.isFinite = true) :
    (y - x).isInf = true ↔ overflow ≤ ((ofFloat y).units - (ofFloat x).units).natAbs := by
  rw [ofFloat_eq_ofUnpacked, ofFloat_eq_ofUnpacked]
  exact isInf_sub_iff (canonical_unpack x) (canonical_unpack y) hx hy

/-- What is above a number is finite or positive infinity. -/
theorem eq_infinity_of_lt (h : Scalar.lt x y = true) (hy : ¬y.isFinite = true) :
    y.toModel.unpack = .infinity .positive := by
  rw [lt_float_iff] at h
  change ¬y.toModel.unpack.isFinite = true at hy
  generalize x.toModel.unpack = u at h
  generalize y.toModel.unpack = v at h hy ⊢
  cases v with
  | notANumber => cases u <;> cases h
  | infinity s =>
      cases s with
      | negative =>
          cases u with
          | infinity t => cases t <;> cases h
          | finite t m e hm => cases t <;> cases h
          | _ => cases h
      | positive => rfl
  | zero s => exact absurd rfl hy
  | finite s m e hm => exact absurd rfl hy

theorem eq_infinity_of_gt (h : Scalar.lt x y = true) (hx : ¬x.isFinite = true) :
    x.toModel.unpack = .infinity .negative := by
  rw [lt_float_iff] at h
  change ¬x.toModel.unpack.isFinite = true at hx
  generalize x.toModel.unpack = u at h hx ⊢
  generalize y.toModel.unpack = v at h
  cases u with
  | notANumber => cases h
  | infinity s =>
      cases s with
      | negative => rfl
      | positive =>
          cases v with
          | infinity t => cases t <;> cases h
          | _ => cases h
  | zero s => exact absurd rfl hx
  | finite s m e hm => exact absurd rfl hx

/-- The farther of two numbers above a third one is infinitely far if the nearer is. -/
theorem isInf_sub_mono (hxy : Scalar.lt x y = true) (hyz : Scalar.lt y z = true)
    (h : (y - x).isInf = true) : (z - x).isInf = true := by
  have hy := isFinite_of_lt_of_lt hxy hyz
  by_cases hx : x.isFinite = true
  · by_cases hz : z.isFinite = true
    · rw [isInf_sub hx hy] at h
      rw [isInf_sub hx hz]
      have hlow := units_lt hx hy hxy
      have hhigh := units_lt hy hz hyz
      omega
    · change (unpack _ (pack _ (UnpackedFloat.sub _ z.toModel.unpack x.toModel.unpack))).isInf =
        true
      change x.toModel.unpack.isFinite = true at hx
      rw [eq_infinity_of_lt hyz hz]
      generalize x.toModel.unpack = u at hx ⊢
      cases u with
      | notANumber => cases hx
      | infinity s => cases hx
      | zero s => exact isInf_unpack_pack_infinity .positive
      | finite s m e hm => exact isInf_unpack_pack_infinity .positive
  · change (unpack _ (pack _ (UnpackedFloat.sub _ z.toModel.unpack x.toModel.unpack))).isInf = true
    rw [eq_infinity_of_gt hxy hx]
    by_cases hz : z.isFinite = true
    · change z.toModel.unpack.isFinite = true at hz
      generalize z.toModel.unpack = w at hz ⊢
      cases w with
      | notANumber => cases hz
      | infinity s => cases hz
      | zero s => exact isInf_unpack_pack_infinity .positive
      | finite s m e hm => exact isInf_unpack_pack_infinity .positive
    · rw [eq_infinity_of_lt hyz hz]
      exact isInf_unpack_pack_infinity .positive

/-! ## Numbers between zero and one -/

/-- A number that stands at the exponent of one or below it, and there at most at its mantissa, is
at most as many units as one is. -/
theorem units_le_of_not_above_one {m : Nat} {e : Int} (hbits : m < 2 ^ 53)
    (horder : ((compare e (-52)).then (compare m (2 ^ 52))).isLE = true) {k : Nat}
    (hk : k = 1074) : m * 2 ^ (e + 1074).toNat ≤ 2 ^ k := by
  rcases lt_trichotomy e (-52) with he | rfl | he
  · calc m * 2 ^ (e + 1074).toNat ≤ 2 ^ 53 * 2 ^ (k - 53) :=
          Nat.mul_le_mul hbits.le (Nat.pow_le_pow_right Nat.two_pos (by omega))
      _ = 2 ^ k := by rw [← pow_add]; congr 1; omega
  · rw [compare_eq_iff_eq.2 rfl, Ordering.eq_then] at horder
    calc m * 2 ^ (-52 + 1074 : Int).toNat ≤ 2 ^ 52 * 2 ^ (k - 52) :=
          Nat.mul_le_mul (Nat.isLE_compare.1 horder)
            (Nat.pow_le_pow_right Nat.two_pos (by omega))
      _ = 2 ^ k := by rw [← pow_add]; congr 1; omega
  · rw [compare_gt_iff_gt.2 he] at horder
    cases horder

/-- A double between zero and one is finite, and at most as many units as one is. -/
theorem units_of_mem_Icc (hzero : 0 ≤ y) (hone : y ≤ 1) :
    y.isFinite = true ∧ 0 ≤ (ofFloat y).units ∧ (ofFloat y).units ≤ (2 ^ 1074 : Nat) := by
  obtain ⟨k, hk, hpow⟩ : ∃ k, k = 1074 ∧ 2 ^ 1074 = 2 ^ k := ⟨_, rfl, rfl⟩
  obtain ⟨hn, hunit⟩ : ∃ h, (1 : Float).toModel.unpack = .finite .positive (2 ^ 52) (-52) h :=
    ⟨by decide, rfl⟩
  have hnothing : (0 : Float).toModel.unpack = .zero .positive := rfl
  have hcanonical := canonical_unpack y
  rw [le_float_iff, hnothing] at hzero
  rw [le_float_iff, hunit] at hone
  rw [ofFloat_eq_ofUnpacked, hpow]
  clear hpow
  change y.toModel.unpack.isFinite = true ∧ _
  generalize y.toModel.unpack = v at *
  cases v with
  | notANumber => rcases hzero with h | h <;> cases h
  | infinity s =>
      cases s with
      | negative => rcases hzero with h | h <;> cases h
      | positive => rcases hone with h | h <;> cases h
  | zero s =>
      have hnone : (ofUnpacked (.zero s)).units = 0 := by cases s <;> rfl
      rw [hnone]
      exact ⟨rfl, le_refl 0, Int.natCast_nonneg _⟩
  | finite s m e hm =>
      cases s with
      | negative => rcases hzero with h | h <;> cases h
      | positive =>
          obtain ⟨-, -, hbits, -⟩ := hcanonical
          have hcount : (ofUnpacked (.finite .positive m e hm)).units =
              (m * 2 ^ (e + 1074).toNat : Nat) := rfl
          have horder : ((compare e (-52)).then (compare m (2 ^ 52))).isLE = true := by
            rcases hone with h | h
            · rw [Option.some_inj.1 h]
              rfl
            · rw [Option.some_inj.1 h]
              rfl
          rw [hcount]
          exact ⟨rfl, Int.natCast_nonneg _,
            Int.ofNat_le.2 (units_le_of_not_above_one hbits horder hk)⟩

theorem isNaN_sub_of_isFinite (hx : x.isFinite = true) (hy : y.isFinite = true) :
    (y - x).isNaN = false := by
  refine isNaN_unpack_pack ?_
  have hcases := sub_cases (canonical_unpack x) (canonical_unpack y) hx hy
  rcases hcases with ⟨-, hfinite, -⟩ | ⟨d, e, hsub, -, -, -⟩
  · exact isNaN_of_isFinite_unpacked hfinite
  · change (UnpackedFloat.sub _ y.toModel.unpack x.toModel.unpack).isNaN = false
    rw [hsub]
    exact isNaN_normalize d e .positive

/-- The difference of numbers between zero and one is between one and minus one. -/
theorem unitCount_sub_of_mem_Icc (hzero : 0 ≤ x ∧ 0 ≤ y) (hone : x ≤ 1 ∧ y ≤ 1) :
    (y - x).isFinite = true ∧ (ofFloat (y - x)).unitCount ≤ 2 ^ 1074 := by
  obtain ⟨hx, hlowx, hhighx⟩ := units_of_mem_Icc hzero.1 hone.1
  obtain ⟨hy, hlowy, hhighy⟩ := units_of_mem_Icc hzero.2 hone.2
  obtain ⟨k, hk, hpow⟩ : ∃ k, k = 1074 ∧ 2 ^ 1074 = 2 ^ k := ⟨_, rfl, rfl⟩
  rw [hpow] at hhighx hhighy ⊢
  clear hpow
  have hdiff : ((ofFloat y).units - (ofFloat x).units).natAbs ≤ 2 ^ k := by omega
  obtain ⟨last, hlast, hoverflow⟩ := exists_overflow
  have hbelow : 2 ^ k < overflow := by
    rw [hoverflow]
    calc 2 ^ k ≤ 1 * 2 ^ last := by
          rw [one_mul]
          exact Nat.pow_le_pow_right Nat.two_pos (by omega)
      _ < (2 ^ 54 - 1) * 2 ^ last := Nat.mul_lt_mul_of_pos_right (by decide) (Nat.two_pow_pos _)
  refine ⟨isFinite_iff.2 ⟨isNaN_sub_of_isFinite hx hy, ?_⟩, ?_⟩
  · rw [← Bool.not_eq_true, isInf_sub hx hy]
    omega
  · rw [ofFloat_eq_ofUnpacked] at hdiff ⊢
    rw [ofFloat_eq_ofUnpacked] at hdiff
    exact unitCount_sub_le (canonical_unpack x) (canonical_unpack y) hx hy hdiff

/-- A finite number stays finite when it is multiplied by one between one and minus one. -/
theorem isFinite_mul_of_unitCount_le (hx : x.isFinite = true)
    (hone : (ofFloat x).unitCount ≤ 2 ^ 1074) (hy : y.isFinite = true) :
    (x * y).isFinite = true := by
  refine isFinite_iff.2 ⟨isNaN_mul_of_isFinite hx hy, ?_⟩
  obtain ⟨k, hk, hpow⟩ : ∃ k, k = 1074 ∧ 2 ^ 1074 = 2 ^ k := ⟨_, rfl, rfl⟩
  rw [hpow, ofFloat_eq_ofUnpacked] at hone
  clear hpow
  have hcy := canonical_unpack y
  have hcx := canonical_unpack x
  change (unpack _ (pack _ (UnpackedFloat.mul _ x.toModel.unpack y.toModel.unpack))).isInf = false
  change x.toModel.unpack.isFinite = true at hx
  change y.toModel.unpack.isFinite = true at hy
  generalize x.toModel.unpack = u at *
  generalize y.toModel.unpack = v at *
  cases u with
  | notANumber => cases hx
  | infinity s => cases hx
  | zero s =>
      cases v with
      | notANumber => cases hy
      | infinity t => cases hy
      | zero t => exact isInf_of_isFinite (isFinite_unpack_pack trivial)
      | finite t n f hn => exact isInf_of_isFinite (isFinite_unpack_pack trivial)
  | finite s m e hm =>
      cases v with
      | notANumber => cases hy
      | infinity t => cases hy
      | zero t => exact isInf_of_isFinite (isFinite_unpack_pack trivial)
      | finite t n f hn =>
          obtain ⟨hlow, -, -, -⟩ := hcx
          obtain ⟨-, hhigh, hbits, -⟩ := hcy
          have hsmall : (e + 1074).toNat ≤ k := by
            refine (Nat.pow_le_pow_iff_right Nat.one_lt_two).1 (le_trans ?_ hone)
            exact Nat.le_mul_of_pos_left _ hm
          have hfactor : m ≤ 2 ^ (-e).toNat := by
            refine Nat.le_of_mul_le_mul_right (le_trans hone ?_) (Nat.two_pow_pos (e + 1074).toNat)
            rw [← pow_add]
            exact Nat.pow_le_pow_right Nat.two_pos (by omega)
          have hproduct : 2 * (m * n) < (2 ^ 54 - 1) * 2 ^ (971 - (e + f)).toNat := by
            calc 2 * (m * n) ≤ 2 * (2 ^ (-e).toNat * (2 ^ 53 - 1)) :=
                  Nat.mul_le_mul_left 2 (Nat.mul_le_mul hfactor (by change n < 2 ^ 53 at hbits; omega))
              _ = (2 ^ 54 - 2) * 2 ^ (-e).toNat := by ring
              _ < (2 ^ 54 - 1) * 2 ^ (-e).toNat :=
                  Nat.mul_lt_mul_of_pos_right (by decide) (Nat.two_pow_pos _)
              _ ≤ (2 ^ 54 - 1) * 2 ^ (971 - (e + f)).toNat :=
                  Nat.mul_le_mul_left _ (Nat.pow_le_pow_right Nat.two_pos (by omega))
          rw [← Bool.not_eq_true]
          change ¬(unpack _ (pack _ (roundWithAccuracy _ (s * t) (m * n) (e + f) .exact))).isInf =
            true
          rw [isInf_round_iff (s * t) (Nat.mul_pos hm hn) (by omega)]
          omega

/-- A finite number divided by one above zero is a number. -/
theorem isNaN_div_of_isFinite (hx : x.isFinite = true) (hy : Scalar.lt Scalar.zero y = true) :
    (x / y).isNaN = false := by
  refine isNaN_unpack_pack ?_
  rw [zero_lt_iff] at hy
  change x.toModel.unpack.isFinite = true at hx
  generalize x.toModel.unpack = u at hx ⊢
  generalize y.toModel.unpack = v at hy ⊢
  cases v with
  | notANumber => exact hy.elim
  | zero t => exact hy.elim
  | infinity t =>
      cases u with
      | notANumber => cases hx
      | infinity s => cases hx
      | zero s => rfl
      | finite s m e hm => rfl
  | finite t n f hn =>
      cases u with
      | notANumber => cases hx
      | infinity s => cases hx
      | zero s => rfl
      | finite s m e hm =>
          rw [UnpackedFloat.div]
          exact isNaN_roundWithAccuracy _ _ _ _

/-- A number added to a finite one is a number. -/
theorem isNaN_add_of_isFinite (hx : x.isFinite = true) (hy : y.isNaN = false) :
    (x + y).isNaN = false := by
  refine isNaN_unpack_pack ?_
  change x.toModel.unpack.isFinite = true at hx
  change y.toModel.unpack.isNaN = false at hy
  generalize x.toModel.unpack = u at hx ⊢
  generalize y.toModel.unpack = v at hy ⊢
  cases v with
  | notANumber => cases hy
  | infinity t =>
      cases u with
      | notANumber => cases hx
      | infinity s => cases hx
      | zero s => rfl
      | finite s m e hm => rfl
  | zero t =>
      cases u with
      | notANumber => cases hx
      | infinity s => cases hx
      | zero s =>
          rw [UnpackedFloat.add]
          split <;> rfl
      | finite s m e hm => rfl
  | finite t n f hn =>
      cases u with
      | notANumber => cases hx
      | infinity s => cases hx
      | zero s => rfl
      | finite s m e hm => exact isNaN_normalize _ _ _

/-- What is infinite, or no number, is no number any more after a division by infinity. -/
theorem isNaN_div_of_isInf (hx : ¬x.isFinite = true) (hy : y.isInf = true) :
    (x / y).isNaN = true := by
  change ¬x.toModel.unpack.isFinite = true at hx
  change y.toModel.unpack.isInf = true at hy
  change (unpack _ (pack _ (UnpackedFloat.div _ x.toModel.unpack y.toModel.unpack))).isNaN = true
  generalize x.toModel.unpack = u at hx ⊢
  generalize y.toModel.unpack = v at hy ⊢
  have hnothing : (unpack Format.binary64 (pack Format.binary64 .notANumber)).isNaN = true := rfl
  cases v with
  | infinity t =>
      cases u with
      | notANumber => exact hnothing
      | infinity s => exact hnothing
      | zero s => exact absurd rfl hx
      | finite s m e hm => exact absurd rfl hx
  | notANumber => cases hy
  | zero t => cases hy
  | finite t n f hn => cases hy

theorem not_isFinite_mul_of_isInf (x : Float) (hy : y.isInf = true) : ¬(x * y).isFinite = true := by
  change y.toModel.unpack.isInf = true at hy
  change ¬(unpack _ (pack _ (UnpackedFloat.mul _ x.toModel.unpack y.toModel.unpack))).isFinite =
    true
  generalize x.toModel.unpack = u
  generalize y.toModel.unpack = v at hy ⊢
  have hnothing : ¬(unpack Format.binary64 (pack Format.binary64 .notANumber)).isFinite = true :=
    Bool.false_ne_true
  have hinfinite : ∀ s : UnpackedFloat.Sign,
      ¬(unpack Format.binary64 (pack Format.binary64 (.infinity s))).isFinite = true := by
    intro s
    cases s <;> exact Bool.false_ne_true
  cases v with
  | infinity t =>
      cases u with
      | notANumber => exact hnothing
      | infinity s => exact hinfinite _
      | zero s => exact hnothing
      | finite s m e hm => exact hinfinite _
  | notANumber => cases hy
  | zero t => cases hy
  | finite t n f hn => cases hy

end

end Macc
