import Macc.Proofs.Double.Integers
import Macc.Proofs.Double.Signs

/-!
# Parts of a whole

A number of periods divided by a length that is beyond it is a part of a whole,
and it should go without saying that such a part is a finite double. It takes an
argument, because the number of periods may be rounded up when it becomes a
double, and so may the quotient. Neither moves a number by more than one place,
though, and a quotient of two numbers of nearly the same size stands a thousand
places below the largest double.
-/

namespace Macc.Binary64

open Float.Model (Format UnpackedFloat totalExponent)
open Float.Model.UnpackedFloat (Accuracy Sign divCore pack packComponents
  roundWithAccuracy unpack)

/-! ## Finite results -/

/-- Whether a number is finite and its exponent not above a bound. -/
def ExponentLe (bound : Int) : UnpackedFloat → Prop
  | .zero _ => True
  | .finite _ _ e _ => e ≤ bound
  | _ => False

/-- Unless its exponent is too large, a finite number is finite when it is packed. -/
theorem isFinite_unpack_pack {u : UnpackedFloat} (h : ExponentLe 971 u) :
    (unpack Format.binary64 (pack Format.binary64 u)).isFinite = true := by
  have hcomponents : ∀ (s : Sign) (e : BitVec 11) (m : BitVec 52), e ≠ -1#11 →
      (unpack Format.binary64 (packComponents Format.binary64 s e m)).isFinite = true := by
    intro s e m he
    rw [unpack_packComponents, if_neg he]
    split
    · split <;> rfl
    · rfl
  cases u with
  | notANumber => exact h.elim
  | infinity s => exact h.elim
  | zero s => exact hcomponents s 0 0 (by decide)
  | finite s m e hm =>
      have hbias : Format.binary64.exponentBias = 1023 := rfl
      have he : e ≤ 971 := h
      rw [pack]
      dsimp only
      rw [if_neg (by rw [hbias]; omega)]
      split
      · exact hcomponents _ _ _ (biased_ne_ones (by rw [hbias]; omega))
      · exact hcomponents _ _ _ (by decide)

/-- Rounding raises an exponent as far as bits are dropped, and one place further at most. -/
theorem exponentLe_roundWithAccuracy (s : Sign) (m : Nat) (e : Int) (a : Accuracy) :
    ExponentLe (max e (max (m.log2 + e - 52) (-1074)) + 1)
      (roundWithAccuracy Format.binary64 s m e a) := by
  obtain ⟨n, -, hn, hround⟩ := exists_roundWithAccuracy s m e a
  have hbits : n.log2 ≤ 53 := by
    have hlt := div_excess_lt m e
    by_cases hzero : n = 0
    · rw [hzero]
      decide
    · have hlog := (Nat.log2_lt hzero).2 (by omega : n < 2 ^ 54)
      omega
  have hleast := le_add_excess m e
  have hcarry : excess n (e + excess m e) ≤ 1 := by
    rw [excess, targetExponent_binary64, totalExponent]
    omega
  have hdropped : e + excess m e ≤ max e (max (m.log2 + e - 52) (-1074)) := by
    rw [excess, targetExponent_binary64, totalExponent]
    omega
  rw [hround]
  split
  · trivial
  · show e + excess m e + excess n (e + excess m e) ≤ _
    omega

theorem ExponentLe.mono {a b : Int} (hab : a ≤ b) {u : UnpackedFloat} (h : ExponentLe a u) :
    ExponentLe b u := by
  cases u with
  | finite s m e hm => exact le_trans (show e ≤ a from h) hab
  | zero s => trivial
  | _ => exact h.elim

/-- The bits of a quotient are those by which the one number is longer than the other. -/
theorem log2_div_le {m n : Nat} (hn : 0 < n) (k : Nat) :
    ((m <<< k / n).log2 : Int) ≤ max 0 (m.log2 + 1 + k - n.log2) := by
  by_cases hzero : m <<< k / n = 0
  · rw [hzero]
    have hlog : Nat.log2 0 = 0 := by decide
    omega
  have hlt : m <<< k / n < 2 ^ (m.log2 + 1 + k - n.log2) := by
    rw [Nat.div_lt_iff_lt_mul hn, Nat.shiftLeft_eq]
    calc m * 2 ^ k < 2 ^ (m.log2 + 1) * 2 ^ k :=
          Nat.mul_lt_mul_of_pos_right Nat.lt_log2_self (Nat.two_pow_pos k)
      _ = 2 ^ (m.log2 + 1 + k) := (pow_add _ _ _).symm
      _ ≤ 2 ^ (m.log2 + 1 + k - n.log2 + n.log2) := Nat.pow_le_pow_right Nat.two_pos (by omega)
      _ = 2 ^ (m.log2 + 1 + k - n.log2) * 2 ^ n.log2 := pow_add _ _ _
      _ ≤ 2 ^ (m.log2 + 1 + k - n.log2) * n := Nat.mul_le_mul_left _ (Nat.log2_self_le hn.ne')
  have hlog := (Nat.log2_lt hzero).2 hlt
  omega

/-- The quotient by a number that is about as long, or longer, is finite. -/
theorem exponentLe_div {s t : Sign} {m n : Nat} {e f : Int} (hm : 0 < m) (hn : 0 < n)
    (h : totalExponent m e ≤ totalExponent n f + 1) :
    ExponentLe 971 (UnpackedFloat.div Format.binary64 (.finite s m e hm) (.finite t n f hn)) := by
  obtain ⟨g, hg⟩ : ∃ g, g = min (e - f)
    (Format.binary64.targetExponent (totalExponent m e - totalExponent n f)) := ⟨_, rfl⟩
  have hlog := @log2_div_le m n hn (e - f - g).toNat
  have hround := exponentLe_roundWithAccuracy (s / t) (m <<< (e - f - g).toNat / n) g
    (UnpackedFloat.accuracyOfFraction (m <<< (e - f - g).toNat % n) n)
  have hbound : max g (max (((m <<< (e - f - g).toNat / n).log2 : Int) + g - 52) (-1074)) + 1 ≤
      971 := by
    rw [targetExponent_binary64] at hg
    rw [totalExponent, totalExponent] at h hg
    omega
  rw [UnpackedFloat.div, divCore]
  dsimp only
  rw [← hg]
  exact hround.mono hbound

end Macc.Binary64

namespace Macc

open Binary64
open Float.Model (Format UnpackedFloat totalExponent)
open Float.Model.UnpackedFloat (Sign pack unpack)

/-! ## Periods and lengths -/

/-- The double of a number of periods is not longer than it by more than a place. -/
theorem exists_ofInt {k : Nat} {x : Float} (hx : floatOfInt k = .ok x) :
    ∃ m e, ofFloat x = .finite false m e ∧ (k = 0 → m = 0) ∧ totalExponent m e ≤ k.log2 + 2 := by
  obtain ⟨hinf, rfl⟩ : (Binary64.ofInt k).isInf = false ∧ Binary64.ofInt k = x := by
    rw [floatOfInt] at hx
    split at hx
    · cases hx
    · next h =>
        cases hx
        exact ⟨by simpa using h, rfl⟩
  have hnan := isNaN_ofInt k
  have hle := nearestBits_le k 1
  have hnone : k = 0 → nearestBits k 1 = 0 := by
    rintro rfl
    rfl
  have hplace : nearestBits k 1 ≤ (k.log2 + 1024) * 2 ^ 52 := by
    by_cases hzero : k = 0
    · rw [hnone hzero]
      exact Nat.zero_le _
    · have hmantissa := (mantissaOf_bounds hzero).2
      rw [nearestBits_one hzero]
      omega
  have hvalue := ofFloat_ofInt k
  rw [decide_eq_false (not_lt.2 (Int.natCast_nonneg k)), Bool.toNat_false, zero_mul, zero_add,
    Int.natAbs_natCast, ofBits_eq] at hvalue
  generalize nearestBits k 1 = b at hle hnone hplace hvalue
  rw [UInt64.toNat_ofNat_of_lt' (by rw [UInt64.size]; omega)] at hvalue
  have hsign : (b / 2 ^ 63 == 1) = false := by
    rw [beq_eq_false_iff_ne]
    omega
  have hlog : ∀ {m : Nat}, m < 2 ^ 53 → m.log2 ≤ 52 := by
    intro m hm
    by_cases hzero : m = 0
    · rw [hzero]
      decide
    · have hlt := (Nat.log2_lt hzero).2 hm
      omega
  rw [hsign] at hvalue
  split at hvalue
  · split at hvalue
    · exact absurd (isInf_iff.2 ⟨_, hvalue⟩) (by rw [hinf]; decide)
    · exact absurd (isNaN_iff.2 hvalue) (by rw [hnan]; decide)
  · split at hvalue
    · have hbits := @hlog (b % 2 ^ 52) (by omega)
      refine ⟨_, _, hvalue, fun hzero => by rw [hnone hzero, Nat.zero_mod], ?_⟩
      rw [totalExponent]
      omega
    · have hbits := @hlog (b % 2 ^ 52 + 2 ^ 52) (by omega)
      refine ⟨_, _, hvalue, fun hzero => ?_, ?_⟩
      · have hb := hnone hzero
        omega
      · rw [totalExponent]
        omega

theorem ltInt_finite (n : Int) (negative : Bool) (m : Nat) (e : Int) :
    (finite negative m e).ltInt n = true ↔
      n * (2 ^ (-e).toNat : Nat) <
        (if negative then -m else m : Int) * (2 ^ e.toNat : Nat) := by
  rw [ltInt]
  simp only [Nat.pow_eq]
  split
  · next he =>
      rw [decide_eq_true_eq, show (-e).toNat = 0 by omega, pow_zero, Nat.cast_one, mul_one]
  · next he =>
      rw [decide_eq_true_eq, show e.toNat = 0 by omega, pow_zero, Nat.cast_one, mul_one]

/-- What is above a number of periods is positive, and not shorter than it. -/
theorem exists_of_ltInt {k : Nat} {v : Binary64} (h : v.ltInt k = true) :
    v = .infinite false ∨ ∃ m e, v = .finite false m e ∧ 0 < m ∧
      (k ≠ 0 → k.log2 + 1 ≤ totalExponent m e) := by
  cases v with
  | nan => cases h
  | infinite negative =>
      cases negative with
      | false => exact .inl rfl
      | true => cases h
  | finite negative m e =>
      rw [ltInt_finite] at h
      cases negative with
      | true =>
          have hleft : 0 ≤ (k : Int) * (2 ^ (-e).toNat : Nat) := by positivity
          have hright : 0 ≤ (m : Int) * (2 ^ e.toNat : Nat) := by positivity
          rw [if_pos rfl, neg_mul] at h
          omega
      | false =>
          have hlt : k * 2 ^ (-e).toNat < m * 2 ^ e.toNat := by
            rw [if_neg Bool.false_ne_true] at h
            exact_mod_cast h
          refine .inr ⟨m, e, rfl, Nat.pos_of_ne_zero ?_, fun hk => ?_⟩
          · rintro rfl
            rw [zero_mul] at hlt
            omega
          · have hpow : 2 ^ (k.log2 + (-e).toNat) < 2 ^ (m.log2 + 1 + e.toNat) := by
              calc 2 ^ (k.log2 + (-e).toNat) = 2 ^ k.log2 * 2 ^ (-e).toNat := pow_add _ _ _
                _ ≤ k * 2 ^ (-e).toNat := Nat.mul_le_mul_right _ (Nat.log2_self_le hk)
                _ < m * 2 ^ e.toNat := hlt
                _ ≤ 2 ^ (m.log2 + 1) * 2 ^ e.toNat := Nat.mul_le_mul_right _ Nat.lt_log2_self.le
                _ = 2 ^ (m.log2 + 1 + e.toNat) := (pow_add _ _ _).symm
            have hlog := (Nat.pow_lt_pow_iff_right (by decide)).1 hpow
            rw [totalExponent]
            omega

theorem eq_infinity_of_ofUnpacked {u : UnpackedFloat} (h : ofUnpacked u = .infinite false) :
    u = .infinity .positive := by
  cases u with
  | infinity s =>
      cases s with
      | negative => cases h
      | positive => rfl
  | _ => cases h

theorem eq_finite_of_ofUnpacked {u : UnpackedFloat} {m : Nat} {e : Int}
    (h : ofUnpacked u = .finite false m e) :
    (∃ s, u = .zero s ∧ m = 0) ∨ ∃ hm, u = .finite .positive m e hm := by
  cases u with
  | notANumber => cases h
  | infinity s => cases h
  | zero s =>
      cases s with
      | negative => cases h
      | positive =>
          cases h
          exact .inl ⟨.positive, rfl, rfl⟩
  | finite s n f hn =>
      cases s with
      | negative => cases h
      | positive =>
          cases h
          exact .inr ⟨hn, rfl⟩

/-- The part that a number of periods is of a length beyond it is finite and not below zero. -/
theorem isFinite_part {k : Nat} {x length : Float} (hx : floatOfInt k = .ok x)
    (hlength : Scalar.ltInt k length = true) :
    (x / length).isFinite = true ∧ Scalar.lt (x / length) Scalar.zero = false := by
  have hpart : ExponentLe 971
      (UnpackedFloat.div Format.binary64 x.toModel.unpack length.toModel.unpack) ∧
        HasSign .positive length.toModel.unpack ∧ NotNegative x.toModel.unpack := by
    obtain ⟨m, e, hvalue, hnone, hplace⟩ := exists_ofInt hx
    have hlonger := exists_of_ltInt hlength
    rw [ofFloat_eq_ofUnpacked] at hvalue hlonger
    rcases hlonger with hinfinite | ⟨n, f, hfinite, hn, hlonger⟩
    · rw [eq_infinity_of_ofUnpacked hinfinite]
      rcases eq_finite_of_ofUnpacked hvalue with ⟨s, hu, -⟩ | ⟨hm, hu⟩
      · rw [hu]
        exact ⟨trivial, rfl, .zero s⟩
      · rw [hu]
        exact ⟨trivial, rfl, .finite hm⟩
    · rcases eq_finite_of_ofUnpacked hfinite with ⟨t, -, rfl⟩ | ⟨hn', hv⟩
      · exact absurd hn (lt_irrefl 0)
      rw [hv]
      rcases eq_finite_of_ofUnpacked hvalue with ⟨s, hu, -⟩ | ⟨hm, hu⟩
      · rw [hu]
        exact ⟨trivial, rfl, .zero s⟩
      · rw [hu]
        have hlonger := hlonger fun hzero => hm.ne' (hnone hzero)
        exact ⟨exponentLe_div hm hn' (by omega), rfl, .finite hm⟩
  obtain ⟨hbound, hpositive, hnot⟩ := hpart
  exact ⟨isFinite_unpack_pack hbound,
    div_not_negative (notNegative_unpack_iff.1 hnot) (zero_lt_iff.2 hpositive)⟩

/-- A finite number whose exponent is too large becomes infinite when it is packed. -/
theorem unpack_pack_of_large (s : Sign) (m : Nat) {e : Int} (hm : 0 < m) (he : 971 < e) :
    unpack Format.binary64 (pack Format.binary64 (.finite s m e hm)) = .infinity s := by
  have hbias : Format.binary64.exponentBias = 1023 := rfl
  rw [pack]
  dsimp only
  rw [if_pos (by rw [hbias]; omega)]
  cases s <;> rfl

/-- What is a number is one when it is packed, if too large an infinite one. -/
theorem isNaN_unpack_pack {u : UnpackedFloat} (h : u.isNaN = false) :
    (unpack Format.binary64 (pack Format.binary64 u)).isNaN = false := by
  cases u with
  | notANumber => cases h
  | infinity s => cases s <;> rfl
  | zero s => exact isNaN_of_isFinite_unpacked (isFinite_unpack_pack trivial)
  | finite s m e hm =>
      by_cases he : e ≤ 971
      · exact isNaN_of_isFinite_unpacked (isFinite_unpack_pack he)
      · rw [unpack_pack_of_large s m hm (by omega)]
        rfl

/-- A product of finite numbers is a number. -/
theorem isNaN_mul_of_isFinite {x y : Float} (hx : x.isFinite = true) (hy : y.isFinite = true) :
    (x * y).isNaN = false := by
  refine isNaN_unpack_pack ?_
  change x.toModel.unpack.isFinite = true at hx
  change y.toModel.unpack.isFinite = true at hy
  generalize x.toModel.unpack = u at hx ⊢
  generalize y.toModel.unpack = v at hy ⊢
  cases u with
  | notANumber => cases hx
  | infinity s => cases hx
  | zero s =>
      cases v with
      | notANumber => cases hy
      | infinity t => cases hy
      | _ => rfl
  | finite s m e hm =>
      cases v with
      | notANumber => cases hy
      | infinity t => cases hy
      | zero t => rfl
      | finite t n f hn =>
          obtain ⟨k, -, -, hround⟩ := exists_roundWithAccuracy (s * t) (m * n) (e + f) .exact
          rw [UnpackedFloat.mul, hround]
          split <;> rfl

end Macc
