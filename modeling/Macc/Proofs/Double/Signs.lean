import Mathlib.Tactic.Ring
import Macc.Proofs.Double.Order

/-!
# The signs of computed doubles

A double that is computed is a number that is rounded and then packed into bits,
and neither step turns its sign: packing keeps the sign bit, and rounding a
mantissa leaves it with the sign it had or leaves nothing. So a result is not
below zero where the exact one is not.

That it is not zero where the exact one is not is more than this, since rounding
can leave nothing. It does so only below the least exponent, and there no sum and
no difference of doubles comes, because doubles have no bits there. That is why
two doubles that differ have a difference to divide by, however close they are.
-/

namespace Macc.Binary64

open Float.Model (Format UnpackedFloat totalExponent)
open Float.Model.UnpackedFloat (Accuracy ExtendedMantissa Sign decreaseExponent pack
  packComponents packedInfinity packedZero roundWithAccuracy shiftToExponent
  shiftToTargetExponent unpack unpackExponent_packComponents unpackMantissa_packComponents
  unpackSign)

/-! ## Packing -/

theorem unpackSign_packComponents {spec : Format} (s : Sign) (e : BitVec spec.exponentBits)
    (m : BitVec spec.mantissaBitsWithoutImplicit) :
    unpackSign (packComponents spec s e m) = s.toBitVec := by
  refine BitVec.eq_of_getLsbD_eq fun i hi => ?_
  obtain rfl : i = 0 := by omega
  simp [unpackSign, packComponents, BitVec.getLsbD_append, BitVec.getElem_append]

theorem ofBitVec_toBitVec (s : Sign) : Sign.ofBitVec s.toBitVec = s := by
  cases s <;> rfl

/-- Whether a number has a sign and is not zero. -/
def HasSign (s : Sign) : UnpackedFloat → Prop
  | .infinity t => t = s
  | .finite t _ _ _ => t = s
  | _ => False

theorem toNat_append_one (m : BitVec 52) : (1#1 ++ m).toNat = 2 ^ 52 + m.toNat := by
  rw [BitVec.toNat_append, ← Nat.shiftLeft_add_eq_or_of_lt m.isLt]
  rfl

theorem unpack_packComponents (s : Sign) (e : BitVec 11) (m : BitVec 52) :
    unpack Format.binary64 (packComponents Format.binary64 s e m) =
      if e = -1#11 then if m = 0#52 then .infinity s else .notANumber
      else if e = 0#11 then
        if h : m = 0#52 then .zero s
        else .finite s m.toNat ((e.toNat : Int) - 1075 + 1)
          (by simpa [BitVec.toNat_pos, BitVec.pos_iff_ne_zero])
      else .finite s (1#1 ++ m).toNat ((e.toNat : Int) - 1075)
        (by rw [toNat_append_one]; omega) := by
  rw [unpack]
  simp only [unpackExponent_packComponents, unpackMantissa_packComponents,
    unpackSign_packComponents, ofBitVec_toBitVec]
  rfl

/-! An exponent with its bias is kept as it is while it is below that of infinity, and it is that of
a normal number if it is above zero. -/

theorem toNat_biased {b : Nat} (hlt : b < 2047) : (BitVec.ofNat 11 b).toNat = b := by
  rw [BitVec.toNat_ofNat, Nat.mod_eq_of_lt (by omega)]

theorem biased_ne_ones {b : Nat} (hlt : b < 2047) : BitVec.ofNat 11 b ≠ -1#11 := by
  intro hones
  have hnat := congrArg BitVec.toNat hones
  rw [toNat_biased hlt] at hnat
  change _ = 2047 at hnat
  omega

theorem biased_ne_zero {b : Nat} (hpos : 0 < b) (hlt : b < 2047) : BitVec.ofNat 11 b ≠ 0#11 := by
  intro hzero
  have hnat := congrArg BitVec.toNat hzero
  rw [toNat_biased hlt] at hnat
  change _ = 0 at hnat
  omega

theorem eq_of_hasSign_packComponents {s t : Sign} {e : BitVec 11} {m : BitVec 52}
    (h : HasSign t (unpack Format.binary64 (packComponents Format.binary64 s e m))) : s = t := by
  rw [unpack_packComponents] at h
  split at h
  · split at h
    · exact h
    · exact h.elim
  · split at h
    · split at h
      · exact h.elim
      · exact h
    · exact h

/-- No number comes by a sign by being packed. -/
theorem hasSign_of_unpack_pack {s : Sign} {u : UnpackedFloat}
    (h : HasSign s (unpack Format.binary64 (pack Format.binary64 u))) : HasSign s u := by
  cases u with
  | notANumber =>
      have hnan : unpack Format.binary64 (pack Format.binary64 .notANumber) = .notANumber := rfl
      rw [hnan] at h
      exact h.elim
  | infinity t => exact eq_of_hasSign_packComponents h
  | zero t =>
      rw [pack, packedZero, unpack_packComponents] at h
      exact h.elim
  | finite t m e hm =>
      rw [pack] at h
      dsimp only at h
      split at h
      · exact eq_of_hasSign_packComponents h
      · split at h
        · exact eq_of_hasSign_packComponents h
        · exact eq_of_hasSign_packComponents h

/-- What rounding leaves: at most fifty-three bits, and no exponent below the least one. -/
def Rounded : UnpackedFloat → Prop
  | .finite _ m e _ => m < 2 ^ 53 ∧ -1074 ≤ e
  | _ => True

/-- What is rounded keeps its sign when it is packed, and does not become zero. -/
theorem hasSign_unpack_pack {s : Sign} {u : UnpackedFloat} (hr : Rounded u) (h : HasSign s u) :
    HasSign s (unpack Format.binary64 (pack Format.binary64 u)) := by
  cases u with
  | notANumber => exact h.elim
  | zero t => exact h.elim
  | infinity t =>
      rw [pack, packedInfinity, unpack_packComponents]
      exact h
  | finite t m e hm =>
      obtain ⟨hbits, hleast⟩ := hr
      rw [pack]
      dsimp only
      split
      · rw [packedInfinity, unpack_packComponents]
        exact h
      · next hrange =>
          have hbiased : 0 < (e + Format.binary64.exponentBias + (52 : Nat)).toNat ∧
              (e + Format.binary64.exponentBias + (52 : Nat)).toNat < 2047 := by
            have hbias : Format.binary64.exponentBias = 1023 := rfl
            rw [hbias] at hrange ⊢
            omega
          split
          · rw [unpack_packComponents, if_neg (biased_ne_ones hbiased.2),
              if_neg (biased_ne_zero hbiased.1 hbiased.2)]
            exact h
          · next hfull =>
              have hsub : m < 2 ^ 52 := by
                have hlog : m.log2 < 53 := (Nat.log2_lt hm.ne').2 hbits
                have hbits : Format.binary64.mantissaBits = 53 := rfl
                exact (Nat.log2_lt hm.ne').1 (by omega)
              rw [unpack_packComponents, if_neg (by decide), if_pos rfl, dif_neg]
              · exact h
              · intro hzero
                have hnat := congrArg BitVec.toNat hzero
                rw [BitVec.toNat_ofNat, Nat.mod_eq_of_lt hsub] at hnat
                exact hm.ne' hnat

/-! ## Rounding -/

theorem mantissa_shiftRight (em : ExtendedMantissa) (k : Nat) :
    (em >>> k).mantissa = em.mantissa / 2 ^ k := by
  induction k with
  | zero => exact (Nat.div_one _).symm
  | succ k ih =>
      show (em >>> k).mantissa / 2 = _
      rw [ih, Nat.div_div_eq_div_mul, Nat.pow_succ]

theorem mantissa_ofMantissaAndAccuracy (m : Nat) (a : Accuracy) :
    (ExtendedMantissa.ofMantissaAndAccuracy m a).mantissa = m := by
  cases a with
  | exact => rfl
  | inexact o => cases o <;> rfl

theorem roundToNearestEven_bounds (m : Nat) (a : Accuracy) :
    m ≤ a.roundToNearestEven m ∧ a.roundToNearestEven m ≤ m + 1 := by
  cases a with
  | exact => exact ⟨le_refl m, Nat.le_succ m⟩
  | inexact o => cases o <;> simp only [Accuracy.roundToNearestEven] <;> omega

theorem targetExponent_binary64 (t : Int) :
    Format.binary64.targetExponent t = max (t - 53) (-1074) := rfl

/-- How many bits a mantissa loses so that fifty-three are left, or that the exponent rises to the
least one. -/
def excess (m : Nat) (e : Int) : Nat :=
  (Format.binary64.targetExponent (totalExponent m e) - e).toNat

theorem div_excess_lt (m : Nat) (e : Int) : m / 2 ^ excess m e < 2 ^ 53 := by
  rw [Nat.div_lt_iff_lt_mul (Nat.two_pow_pos _), ← pow_add]
  refine lt_of_lt_of_le Nat.lt_log2_self (Nat.pow_le_pow_right Nat.two_pos ?_)
  rw [excess, targetExponent_binary64, totalExponent]
  omega

theorem le_add_excess (m : Nat) (e : Int) : -1074 ≤ e + excess m e := by
  rw [excess, targetExponent_binary64]
  omega

/-- From the least exponent on, no number loses all its bits. -/
theorem div_excess_pos {m : Nat} (hm : 0 < m) {e : Int} (he : -1074 ≤ e) :
    0 < m / 2 ^ excess m e := by
  refine Nat.div_pos (le_trans (Nat.pow_le_pow_right Nat.two_pos ?_) (Nat.log2_self_le hm.ne'))
    (Nat.two_pow_pos _)
  rw [excess, targetExponent_binary64, totalExponent]
  omega

/-- Rounding is done twice over, because rounding up may give one bit too many. -/
theorem exists_roundWithAccuracy (s : Sign) (m : Nat) (e : Int) (a : Accuracy) :
    ∃ n, m / 2 ^ excess m e ≤ n ∧ n ≤ m / 2 ^ excess m e + 1 ∧
      roundWithAccuracy Format.binary64 s m e a =
        if h : n / 2 ^ excess n (e + excess m e) = 0 then .zero s
        else .finite s (n / 2 ^ excess n (e + excess m e))
          (e + excess m e + excess n (e + excess m e)) (Nat.pos_of_ne_zero h) := by
  refine ⟨((ExtendedMantissa.ofMantissaAndAccuracy m a) >>> excess m e).roundedMantissa, ?_, ?_, ?_⟩
  · rw [ExtendedMantissa.roundedMantissa, mantissa_shiftRight, mantissa_ofMantissaAndAccuracy]
    exact (roundToNearestEven_bounds _ _).1
  · rw [ExtendedMantissa.roundedMantissa, mantissa_shiftRight, mantissa_ofMantissaAndAccuracy]
    exact (roundToNearestEven_bounds _ _).2
  · rw [roundWithAccuracy]
    simp only [shiftToTargetExponent, shiftToExponent, mantissa_shiftRight,
      mantissa_ofMantissaAndAccuracy]
    rfl

theorem rounded_roundWithAccuracy (s : Sign) (m : Nat) (e : Int) (a : Accuracy) :
    Rounded (roundWithAccuracy Format.binary64 s m e a) := by
  obtain ⟨n, -, -, hround⟩ := exists_roundWithAccuracy s m e a
  rw [hround]
  split
  · trivial
  · exact ⟨div_excess_lt _ _, le_add_excess _ _⟩

theorem eq_of_hasSign_roundWithAccuracy {s t : Sign} {m : Nat} {e : Int} {a : Accuracy}
    (h : HasSign t (roundWithAccuracy Format.binary64 s m e a)) : s = t := by
  obtain ⟨n, -, -, hround⟩ := exists_roundWithAccuracy s m e a
  rw [hround] at h
  split at h
  · exact h.elim
  · exact h

theorem hasSign_roundWithAccuracy (s : Sign) {m : Nat} (hm : 0 < m) {e : Int} (he : -1074 ≤ e)
    (a : Accuracy) : HasSign s (roundWithAccuracy Format.binary64 s m e a) := by
  obtain ⟨n, hn, -, hround⟩ := exists_roundWithAccuracy s m e a
  have hpos : 0 < n := lt_of_lt_of_le (div_excess_pos hm he) hn
  rw [hround, dif_neg (div_excess_pos hpos (le_add_excess m e)).ne']
  rfl

theorem rounded_normalize (d e : Int) (s : Sign) :
    Rounded (UnpackedFloat.normalize Format.binary64 d e s) := by
  rw [UnpackedFloat.normalize]
  split
  · exact rounded_roundWithAccuracy _ _ _ _
  · trivial
  · exact rounded_roundWithAccuracy _ _ _ _

theorem hasSign_normalize {d : Int} (hd : 0 < d) {e : Int} (he : -1074 ≤ e) (s : Sign) :
    HasSign .positive (UnpackedFloat.normalize Format.binary64 d e s) := by
  have hround : UnpackedFloat.normalize Format.binary64 d e s =
      UnpackedFloat.round Format.binary64 .positive d.toNat e := by
    rw [UnpackedFloat.normalize, compare_gt_iff_gt.2 hd]
  obtain ⟨t, ht⟩ : ∃ t, t = Format.binary64.targetExponent (totalExponent d.toNat e) := ⟨_, rfl⟩
  have hleast : -1074 ≤ e - ((e - t).toNat : Int) := by
    rw [targetExponent_binary64] at ht
    omega
  have hsome : 0 < d.toNat <<< (e - t).toNat := by
    rw [Nat.shiftLeft_eq]
    exact Nat.mul_pos (by omega) (Nat.two_pow_pos _)
  rw [hround, UnpackedFloat.round, ← ht]
  exact hasSign_roundWithAccuracy .positive hsome hleast _

/-! ## Values in common units -/

/-- How many of the smallest doubles a value comes to, without its sign. -/
def unitCount : Binary64 → Nat
  | .finite _ m e => m * 2 ^ (e + 1074).toNat
  | _ => 0

def units (v : Binary64) : Int :=
  if v.isNegative then -v.unitCount else v.unitCount

theorem unitCount_lt {s t : Bool} {m n : Nat} {e f : Int}
    (hm : (finite s m e).Canonical) (hn : (finite t n f).Canonical)
    (h : (finite s m e).magnitude < (finite t n f).magnitude) :
    (finite s m e).unitCount < (finite t n f).unitCount := by
  obtain ⟨hlow₁, -, hbits₁, hfull₁⟩ := hm
  obtain ⟨hlow₂, -, hbits₂, hfull₂⟩ := hn
  rw [magnitude, magnitude] at h
  rw [unitCount, unitCount]
  rcases lt_trichotomy e f with hef | rfl | hef
  · calc m * 2 ^ (e + 1074).toNat < 2 ^ 53 * 2 ^ (e + 1074).toNat :=
          Nat.mul_lt_mul_of_pos_right hbits₁ (Nat.two_pow_pos _)
      _ = 2 ^ (53 + (e + 1074).toNat) := (pow_add _ _ _).symm
      _ ≤ 2 ^ (52 + (f + 1074).toNat) := Nat.pow_le_pow_right Nat.two_pos (by omega)
      _ = 2 ^ 52 * 2 ^ (f + 1074).toNat := pow_add _ _ _
      _ ≤ n * 2 ^ (f + 1074).toNat := Nat.mul_le_mul_right _ (hfull₂.resolve_left (by omega))
  · exact Nat.mul_lt_mul_of_pos_right (by omega) (Nat.two_pow_pos _)
  · omega

theorem unitCount_pos {s : Bool} {m : Nat} {e : Int} (hm : (finite s m e).Canonical)
    (h : 0 < (finite s m e).magnitude) : 0 < (finite s m e).unitCount := by
  have hzero : (finite s 0 (-1074)).Canonical := by
    refine ⟨?_, ?_, ?_, ?_⟩ <;> omega
  exact lt_of_le_of_lt (Nat.zero_le _) (unitCount_lt hzero hm h)

/-- Values are ordered as their ranks are. -/
theorem units_lt_of_rank {s t : Bool} {m n : Nat} {e f : Int}
    (hm : (finite s m e).Canonical) (hn : (finite t n f).Canonical)
    (h : (finite s m e).rank < (finite t n f).rank) :
    (finite s m e).units < (finite t n f).units := by
  have hlt := unitCount_lt hm hn
  have hgt := unitCount_lt hn hm
  have hpos := unitCount_pos hm
  have hpos' := unitCount_pos hn
  rw [rank_finite, rank_finite] at h
  show (if s then _ else _) < if t then _ else _
  generalize (finite s m e).magnitude = a at *
  generalize (finite t n f).magnitude = b at *
  generalize (finite s m e).unitCount = p at *
  generalize (finite t n f).unitCount = q at *
  have hfalse : ¬false = true := Bool.false_ne_true
  cases s with
  | false =>
      rw [if_neg hfalse] at h ⊢
      cases t with
      | false =>
          rw [if_neg hfalse] at h ⊢
          omega
      | true =>
          rw [if_pos rfl] at h ⊢
          omega
  | true =>
      rw [if_pos rfl] at h ⊢
      cases t with
      | false =>
          rw [if_neg hfalse] at h ⊢
          omega
      | true =>
          rw [if_pos rfl] at h ⊢
          omega

/-- Brought to a common exponent, mantissas count common units. -/
theorem apply_decreaseExponent (s : Sign) (m : Nat) {e g : Int} (hge : g ≤ e) (hg : -1074 ≤ g) :
    s.apply (decreaseExponent m e g).1 * 2 ^ (g + 1074).toNat = (finite (ofSign s) m e).units := by
  have hcount : (decreaseExponent m e g).1 * 2 ^ (g + 1074).toNat =
      (finite (ofSign s) m e).unitCount := by
    dsimp only [decreaseExponent]
    rw [Nat.shiftLeft_eq, mul_assoc, ← pow_add, unitCount]
    congr 2
    omega
  rw [units, ← hcount]
  generalize (decreaseExponent m e g).1 = k
  cases s with
  | negative =>
      show -(k : Int) * _ = -((k * _ : Nat) : Int)
      push_cast
      ring
  | positive =>
      show (k : Int) * _ = ((k * _ : Nat) : Int)
      push_cast
      ring

/-! ## Differences -/

theorem rounded_of_canonical {u : UnpackedFloat} (hu : (ofUnpacked u).Canonical) : Rounded u := by
  cases u with
  | finite s m e hm => exact ⟨hu.2.2.1, hu.1⟩
  | _ => trivial

theorem rounded_sub {u v : UnpackedFloat} (hu : (ofUnpacked u).Canonical)
    (hv : (ofUnpacked v).Canonical) : Rounded (UnpackedFloat.sub Format.binary64 v u) := by
  have hneg : ∀ {s : Sign} {m : Nat} {e : Int} {hm : 0 < m},
      (ofUnpacked (.finite s m e hm)).Canonical → Rounded (.finite (-s) m e hm) :=
    fun h => ⟨h.2.2.1, h.1⟩
  cases v with
  | notANumber => trivial
  | infinity t =>
      cases u with
      | infinity s =>
          rw [UnpackedFloat.sub]
          split <;> trivial
      | _ => trivial
  | zero t =>
      cases u with
      | zero s =>
          rw [UnpackedFloat.sub]
          split <;> trivial
      | finite s m e hm => exact hneg hu
      | _ => trivial
  | finite t n f hn =>
      cases u with
      | zero s => exact rounded_of_canonical hv
      | finite s m e hm => exact rounded_normalize _ _ _
      | _ => trivial

/-- The difference of a number and a smaller one is above zero, if the infinities are numbers. -/
theorem hasSign_sub {u v : UnpackedFloat} (hu : (ofUnpacked u).Canonical)
    (hv : (ofUnpacked v).Canonical) (h : u.compare v = some .lt) :
    HasSign .positive (UnpackedFloat.sub Format.binary64 v u) := by
  cases u with
  | notANumber => cases h
  | infinity s =>
      cases s with
      | negative =>
          cases v with
          | notANumber => cases h
          | infinity t => cases t <;> first | rfl | cases h
          | zero t => rfl
          | finite t n f hn => rfl
      | positive =>
          cases v with
          | infinity t => cases t <;> cases h
          | _ => cases h
  | zero s =>
      cases v with
      | infinity t => cases t <;> first | rfl | cases h
      | finite t n f hn => cases t <;> first | rfl | cases h
      | _ => cases h
  | finite s m e hm =>
      cases v with
      | notANumber => cases s <;> cases h
      | infinity t =>
          cases t with
          | negative => cases s <;> cases h
          | positive => rfl
      | zero t => cases s <;> first | rfl | cases h
      | finite t n f hn =>
          have hrank : (ofUnpacked (.finite s m e hm)).rank <
              (ofUnpacked (.finite t n f hn)).rank := by
            rw [compare_eq hu hv Binary64.noConfusion Binary64.noConfusion, Option.some_inj,
              compare_lt_iff_lt] at h
            exact h
          have hunits := units_lt_of_rank hu hv hrank
          have hleast : -1074 ≤ min e f := le_min hu.1 hv.1
          rw [← apply_decreaseExponent s m (min_le_left e f) hleast,
            ← apply_decreaseExponent t n (min_le_right e f) hleast] at hunits
          have hdiff := lt_of_mul_lt_mul_right hunits (by positivity)
          rw [UnpackedFloat.sub, min_comm]
          exact hasSign_normalize (sub_pos.2 hdiff) hleast _

/-! ## Results that are not below zero -/

/-- What is not below zero: the zeros, what is above them, and what is no number. -/
inductive NotNegative : UnpackedFloat → Prop where
  | nan : NotNegative .notANumber
  | zero (s : Sign) : NotNegative (.zero s)
  | infinity : NotNegative (.infinity .positive)
  | finite {m : Nat} {e : Int} (hm : 0 < m) : NotNegative (.finite .positive m e hm)

theorem notNegative_iff (u : UnpackedFloat) : NotNegative u ↔ ¬HasSign .negative u := by
  constructor
  · intro h hsign
    cases h <;> cases hsign
  · intro h
    cases u with
    | notANumber => exact .nan
    | zero s => exact .zero s
    | infinity s =>
        cases s with
        | negative => exact absurd rfl h
        | positive => exact .infinity
    | finite s m e hm =>
        cases s with
        | negative => exact absurd rfl h
        | positive => exact .finite hm

theorem notNegative_unpack_pack {u : UnpackedFloat} (h : NotNegative u) :
    NotNegative (unpack Format.binary64 (pack Format.binary64 u)) := by
  rw [notNegative_iff] at h ⊢
  exact fun hsign => h (hasSign_of_unpack_pack hsign)

theorem notNegative_roundWithAccuracy (m : Nat) (e : Int) (a : Accuracy) :
    NotNegative (roundWithAccuracy Format.binary64 .positive m e a) := by
  rw [notNegative_iff]
  intro hsign
  cases eq_of_hasSign_roundWithAccuracy hsign

theorem notNegative_normalize {d : Int} (hd : 0 ≤ d) (e : Int) (s : Sign) :
    NotNegative (UnpackedFloat.normalize Format.binary64 d e s) := by
  rw [UnpackedFloat.normalize]
  rcases hd.eq_or_lt with rfl | hd
  · rw [compare_eq_iff_eq.2 rfl]
    exact .zero s
  · rw [compare_gt_iff_gt.2 hd]
    exact notNegative_roundWithAccuracy _ _ _

theorem NotNegative.add {u v : UnpackedFloat} (hu : NotNegative u) (hv : NotNegative v) :
    NotNegative (UnpackedFloat.add Format.binary64 u v) := by
  cases hu with
  | nan => exact .nan
  | zero s =>
      cases hv with
      | nan => exact .nan
      | zero t =>
          rw [UnpackedFloat.add]
          split
          · exact .zero s
          · exact .zero _
      | infinity => exact .infinity
      | finite hn => exact .finite hn
  | infinity =>
      cases hv with
      | nan => exact .nan
      | _ => exact .infinity
  | finite hm =>
      cases hv with
      | nan => exact .nan
      | zero t => exact .finite hm
      | infinity => exact .infinity
      | finite hn =>
          exact notNegative_normalize
            (Int.add_nonneg (Int.natCast_nonneg _) (Int.natCast_nonneg _)) _ _

theorem NotNegative.mul {u v : UnpackedFloat} (hu : NotNegative u) (hv : NotNegative v) :
    NotNegative (UnpackedFloat.mul Format.binary64 u v) := by
  cases hu with
  | nan => exact .nan
  | zero s =>
      cases hv with
      | nan => exact .nan
      | zero t => exact .zero _
      | infinity => exact .nan
      | finite hn => exact .zero _
  | infinity =>
      cases hv with
      | nan => exact .nan
      | zero t => exact .nan
      | infinity => exact .infinity
      | finite hn => exact .infinity
  | finite hm =>
      cases hv with
      | nan => exact .nan
      | zero t => exact .zero _
      | infinity => exact .infinity
      | finite hn => exact notNegative_roundWithAccuracy _ _ _

/-- A quotient by zero can be below zero, because zero has a sign; by nothing else. -/
theorem NotNegative.div {u v : UnpackedFloat} (hu : NotNegative u) (hv : HasSign .positive v) :
    NotNegative (UnpackedFloat.div Format.binary64 u v) := by
  cases v with
  | notANumber => exact hv.elim
  | zero t => exact hv.elim
  | infinity t =>
      cases hv
      cases hu with
      | nan => exact .nan
      | zero s => exact .zero _
      | infinity => exact .nan
      | finite hm => exact .zero _
  | finite t n f hn =>
      cases hv
      cases hu with
      | nan => exact .nan
      | zero s => exact .zero _
      | infinity => exact .infinity
      | finite hm => exact notNegative_roundWithAccuracy _ _ _

/-- The difference of equal numbers is zero, and of equal infinities no number. -/
theorem notNegative_sub_of_eq {u v : UnpackedFloat} (h : u.compare v = some .eq) :
    NotNegative (UnpackedFloat.sub Format.binary64 v u) := by
  cases u with
  | notANumber => cases h
  | infinity s =>
      cases v with
      | infinity t => cases s <;> cases t <;> first | exact .nan | cases h
      | _ => cases s <;> cases h
  | zero s =>
      cases v with
      | zero t =>
          rw [UnpackedFloat.sub]
          split
          · exact .zero t
          · exact .zero _
      | infinity t => cases t <;> cases h
      | finite t n f hn => cases t <;> cases h
      | notANumber => cases h
  | finite s m e hm =>
      cases v with
      | finite t n f hn =>
          have hsame : s = t ∧ m = n ∧ e = f := by
            cases s <;> cases t <;> simp [UnpackedFloat.compare] at h
            · exact ⟨rfl, h.2, h.1⟩
            · exact ⟨rfl, h.2, h.1⟩
          obtain ⟨rfl, rfl, rfl⟩ := hsame
          refine notNegative_normalize (le_of_eq ?_) _ _
          rw [min_self, sub_self]
      | infinity t => cases s <;> cases t <;> cases h
      | zero t => cases s <;> cases h
      | notANumber => cases s <;> cases h

end Macc.Binary64

namespace Macc

open Binary64
open Float.Model (Format UnpackedFloat)
open Float.Model.UnpackedFloat (pack unpack)

theorem lt_zero_iff {x : Float} :
    Scalar.lt x Scalar.zero = true ↔ HasSign .negative x.toModel.unpack := by
  have hzero : (Scalar.zero : Float).toModel.unpack = .zero .positive := rfl
  rw [lt_float_iff, hzero]
  cases x.toModel.unpack with
  | notANumber => exact iff_of_false nofun id
  | infinity s =>
      cases s with
      | negative => exact iff_of_true rfl rfl
      | positive => exact iff_of_false nofun nofun
  | zero s => exact iff_of_false nofun id
  | finite s m e hm =>
      cases s with
      | negative => exact iff_of_true rfl rfl
      | positive => exact iff_of_false nofun nofun

theorem zero_lt_iff {x : Float} :
    Scalar.lt Scalar.zero x = true ↔ HasSign .positive x.toModel.unpack := by
  have hzero : (Scalar.zero : Float).toModel.unpack = .zero .positive := rfl
  rw [lt_float_iff, hzero]
  cases x.toModel.unpack with
  | notANumber => exact iff_of_false nofun id
  | infinity s =>
      cases s with
      | negative => exact iff_of_false nofun nofun
      | positive => exact iff_of_true rfl rfl
  | zero s => exact iff_of_false nofun id
  | finite s m e hm =>
      cases s with
      | negative => exact iff_of_false nofun nofun
      | positive => exact iff_of_true rfl rfl

theorem canonical_unpack (x : Float) : (ofUnpacked x.toModel.unpack).Canonical := by
  rw [← ofFloat_eq_ofUnpacked]
  exact canonical_ofBits x.toBits

theorem isNaN_of_isFinite_unpacked {u : UnpackedFloat} (h : u.isFinite = true) :
    u.isNaN = false := by
  cases u with
  | notANumber => cases h
  | _ => rfl

theorem isNaN_of_isFinite {x : Float} (h : x.isFinite = true) : x.isNaN = false :=
  isNaN_of_isFinite_unpacked h

/-- However close two doubles are, their difference is not rounded to zero. -/
theorem zero_lt_sub {x y : Float} (h : Scalar.lt x y = true) :
    Scalar.lt Scalar.zero (y - x) = true := by
  rw [zero_lt_iff]
  have hpositive := hasSign_sub (canonical_unpack x) (canonical_unpack y) (lt_float_iff.1 h)
  exact hasSign_unpack_pack (rounded_sub (canonical_unpack x) (canonical_unpack y)) hpositive

theorem notNegative_unpack_iff {x : Float} :
    NotNegative x.toModel.unpack ↔ Scalar.lt x Scalar.zero = false := by
  rw [notNegative_iff, ← lt_zero_iff, Bool.not_eq_true]

section

variable {x y : Float}

theorem add_not_negative (hx : Scalar.lt x Scalar.zero = false)
    (hy : Scalar.lt y Scalar.zero = false) : Scalar.lt (x + y) Scalar.zero = false := by
  rw [← notNegative_unpack_iff] at hx hy ⊢
  exact notNegative_unpack_pack (hx.add hy)

theorem mul_not_negative (hx : Scalar.lt x Scalar.zero = false)
    (hy : Scalar.lt y Scalar.zero = false) : Scalar.lt (x * y) Scalar.zero = false := by
  rw [← notNegative_unpack_iff] at hx hy ⊢
  exact notNegative_unpack_pack (hx.mul hy)

theorem div_not_negative (hx : Scalar.lt x Scalar.zero = false)
    (hy : Scalar.lt Scalar.zero y = true) : Scalar.lt (x / y) Scalar.zero = false := by
  rw [← notNegative_unpack_iff] at hx ⊢
  exact notNegative_unpack_pack (hx.div (zero_lt_iff.1 hy))

/-- Computing with what is no number gives no number. -/
theorem isNaN_of_operand (x : Float) (hy : y.isNaN = true) :
    (x + y).isNaN = true ∧ (x - y).isNaN = true ∧ (y - x).isNaN = true ∧
      (x / y).isNaN = true := by
  have hnan : y.toModel.unpack = .notANumber := UnpackedFloat.isNaN_iff.1 hy
  have hresult : ∀ u : UnpackedFloat, u = .notANumber →
      (unpack Format.binary64 (pack Format.binary64 u)).isNaN = true := by
    rintro u rfl
    rfl
  refine ⟨hresult _ ?_, hresult _ ?_, hresult _ ?_, hresult _ ?_⟩
  · rw [hnan]
    cases x.toModel.unpack <;> rfl
  · rw [hnan]
    cases x.toModel.unpack <;> rfl
  · rw [hnan]
    rfl
  · rw [hnan]
    cases x.toModel.unpack <;> rfl

theorem not_negative_of_isNaN (hx : x.isNaN = true) : Scalar.lt x Scalar.zero = false := by
  rw [← notNegative_unpack_iff, UnpackedFloat.isNaN_iff.1 hx]
  exact .nan

theorem sub_not_negative (h : Scalar.lt x y = false) : Scalar.lt (x - y) Scalar.zero = false := by
  cases hx : x.isNaN with
  | true => exact not_negative_of_isNaN (isNaN_of_operand y hx).2.2.1
  | false =>
      cases hy : y.isNaN with
      | true => exact not_negative_of_isNaN (isNaN_of_operand x hy).2.1
      | false =>
          cases heq : Scalar.eq x y with
          | true =>
              rw [← notNegative_unpack_iff]
              exact notNegative_unpack_pack
                (notNegative_sub_of_eq (eq_float_iff.1 (Ranked.eq_symm heq)))
          | false =>
              have hlt : Scalar.lt y x = true := Ranked.lt_of_not_lt_of_not_eq hx hy
                (by rw [h]; decide) (by rw [heq]; decide)
              rw [← Bool.not_eq_true]
              exact Ranked.not_lt_of_lt (zero_lt_sub hlt)

end

end Macc
