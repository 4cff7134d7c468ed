import Macc.Proofs.CurveOrder
import Macc.Proofs.Double.Bits

/-!
# The order of doubles

Read as an integer, the bits of a double without the sign grow with its
magnitude: the exponent stands above the fraction, and a larger exponent
outweighs every fraction. So comparing two doubles is comparing two integers,
the bits with the sign put in front as a sign. The two zeros meet at zero, and
what is no number is left out. With that, doubles are `Ranked`, and what is
proved about ascending curves holds of them.
-/

namespace Macc.Binary64

open Float.Model (UnpackedFloat)
open Float.Model.UnpackedFloat (Sign)

/-- The place of a value on the line of doubles; the two zeros share one. -/
def rank (v : Binary64) : Int :=
  if v.isNegative then -v.magnitude else v.magnitude

theorem magnitude_finite_lt {negative : Bool} {m : Nat} {e : Int}
    (h : (finite negative m e).Canonical) :
    (finite negative m e).magnitude < 2047 * 2 ^ 52 := by
  obtain ⟨hlow, hhigh, hbits, -⟩ := h
  rw [magnitude]
  omega

/-- Comparing exponents first and mantissas then is comparing magnitudes. -/
theorem compare_magnitude {s t : Bool} {m n : Nat} {e f : Int}
    (hm : (finite s m e).Canonical) (hn : (finite t n f).Canonical) :
    (compare e f).then (compare m n) =
      compare ((finite s m e).magnitude : Int) (finite t n f).magnitude := by
  obtain ⟨hlow₁, -, hbits₁, hfull₁⟩ := hm
  obtain ⟨hlow₂, -, hbits₂, hfull₂⟩ := hn
  rw [magnitude, magnitude]
  rcases lt_trichotomy e f with h | h | h
  · rw [compare_lt_iff_lt.2 h]
    exact (compare_lt_iff_lt.2 (by omega)).symm
  · subst h
    rw [compare_eq_iff_eq.2 rfl]
    rcases lt_trichotomy m n with h | h | h
    · rw [compare_lt_iff_lt.2 h]
      exact (compare_lt_iff_lt.2 (by omega)).symm
    · rw [compare_eq_iff_eq.2 h]
      exact (compare_eq_iff_eq.2 (by omega)).symm
    · rw [compare_gt_iff_gt.2 h]
      exact (compare_gt_iff_gt.2 (by omega)).symm
  · rw [compare_gt_iff_gt.2 h]
    exact (compare_gt_iff_gt.2 (by omega)).symm

theorem swap_compare (a b : Int) : (compare a b).swap = compare (-a) (-b) := by
  rcases lt_trichotomy a b with h | h | h
  · rw [compare_lt_iff_lt.2 h]
    exact (compare_gt_iff_gt.2 (by omega)).symm
  · rw [compare_eq_iff_eq.2 h]
    exact (compare_eq_iff_eq.2 (by omega)).symm
  · rw [compare_gt_iff_gt.2 h]
    exact (compare_lt_iff_lt.2 (by omega)).symm

theorem rank_finite (negative : Bool) (m : Nat) (e : Int) :
    (finite negative m e).rank =
      if negative then -((finite negative m e).magnitude : Int)
      else (finite negative m e).magnitude := rfl

theorem rank_bottom : (infinite true).rank = -((2047 * 2 ^ 52 : Nat) : Int) := rfl

theorem rank_top : (infinite false).rank = ((2047 * 2 ^ 52 : Nat) : Int) := rfl

theorem rank_bottom_neg : (infinite true).rank < 0 := by
  rw [rank_bottom]
  decide

theorem rank_top_pos : 0 < (infinite false).rank := by
  rw [rank_top]
  decide

theorem rank_zero (negative : Bool) : (finite negative 0 (-1074)).rank = 0 := by
  cases negative <;> rfl

/-- What is finite ranks between the infinities. -/
theorem rank_finite_lt {negative : Bool} {m : Nat} {e : Int}
    (h : (finite negative m e).Canonical) :
    (infinite true).rank < (finite negative m e).rank ∧
      (finite negative m e).rank < (infinite false).rank := by
  have hlt := magnitude_finite_lt h
  rw [rank_finite, rank_bottom, rank_top]
  generalize (finite negative m e).magnitude = k at hlt ⊢
  split <;> omega

theorem rank_finite_pos {m : Nat} (hm : 0 < m) (e : Int) : 0 < (finite false m e).rank := by
  rw [rank_finite, if_neg (by decide), magnitude]
  omega

theorem rank_finite_neg {m : Nat} (hm : 0 < m) (e : Int) : (finite true m e).rank < 0 := by
  rw [rank_finite, if_pos rfl, magnitude]
  omega

/-- Comparing doubles is comparing their ranks. -/
theorem compare_eq {u v : UnpackedFloat} (hu : (ofUnpacked u).Canonical)
    (hv : (ofUnpacked v).Canonical) (hnu : ofUnpacked u ≠ .nan) (hnv : ofUnpacked v ≠ .nan) :
    u.compare v = some (compare (ofUnpacked u).rank (ofUnpacked v).rank) := by
  cases u with
  | notANumber => exact absurd rfl hnu
  | infinity s =>
      cases v with
      | notANumber => exact absurd rfl hnv
      | infinity t =>
          have hlt := rank_bottom_neg.trans rank_top_pos
          cases s <;> cases t
          · exact congrArg some (compare_eq_iff_eq.2 rfl).symm
          · exact congrArg some (compare_lt_iff_lt.2 hlt).symm
          · exact congrArg some (compare_gt_iff_gt.2 hlt).symm
          · exact congrArg some (compare_eq_iff_eq.2 rfl).symm
      | zero t =>
          rw [ofUnpacked.eq_3, rank_zero]
          cases s with
          | negative => exact congrArg some (compare_lt_iff_lt.2 rank_bottom_neg).symm
          | positive => exact congrArg some (compare_gt_iff_gt.2 rank_top_pos).symm
      | finite t n f hn =>
          obtain ⟨hbottom, htop⟩ := rank_finite_lt hv
          cases s with
          | negative => exact congrArg some (compare_lt_iff_lt.2 hbottom).symm
          | positive => exact congrArg some (compare_gt_iff_gt.2 htop).symm
  | zero s =>
      rw [ofUnpacked.eq_3, rank_zero]
      cases v with
      | notANumber => exact absurd rfl hnv
      | infinity t =>
          cases t with
          | negative => exact congrArg some (compare_gt_iff_gt.2 rank_bottom_neg).symm
          | positive => exact congrArg some (compare_lt_iff_lt.2 rank_top_pos).symm
      | zero t => 
          rw [ofUnpacked.eq_3, rank_zero]
          rfl
      | finite t n f hn =>
          cases t with
          | negative => exact congrArg some (compare_gt_iff_gt.2 (rank_finite_neg hn f)).symm
          | positive => exact congrArg some (compare_lt_iff_lt.2 (rank_finite_pos hn f)).symm
  | finite s m e hm =>
      cases v with
      | notANumber => exact absurd rfl hnv
      | infinity t =>
          obtain ⟨hbottom, htop⟩ := rank_finite_lt hu
          cases t with
          | negative =>
            cases s <;> exact congrArg some (compare_gt_iff_gt.2 hbottom).symm
          | positive =>
            cases s <;> exact congrArg some (compare_lt_iff_lt.2 htop).symm
      | zero t =>
          rw [ofUnpacked.eq_3, rank_zero]
          cases s with
          | negative => exact congrArg some (compare_lt_iff_lt.2 (rank_finite_neg hm e)).symm
          | positive => exact congrArg some (compare_gt_iff_gt.2 (rank_finite_pos hm e)).symm
      | finite t n f hn =>
          cases s with
          | negative =>
              cases t with
              | negative =>
                  have h := congrArg Ordering.swap (compare_magnitude hu hv)
                  rw [swap_compare] at h
                  rw [ofUnpacked, ofUnpacked, ofSign, rank_finite, rank_finite, if_pos rfl,
                    if_pos rfl]
                  exact congrArg some h
              | positive =>
                  have h := (rank_finite_neg hm e).trans (rank_finite_pos hn f)
                  exact congrArg some (compare_lt_iff_lt.2 h).symm
          | positive =>
              cases t with
              | negative =>
                  have h := (rank_finite_neg hn f).trans (rank_finite_pos hm e)
                  exact congrArg some (compare_gt_iff_gt.2 h).symm
              | positive =>
                  rw [ofUnpacked, ofUnpacked, ofSign, rank_finite, rank_finite,
                    if_neg (by decide), if_neg (by decide)]
                  exact congrArg some (compare_magnitude hu hv)

end Macc.Binary64

namespace Macc

open Binary64
open Float.Model (UnpackedFloat)

theorem isNaN_iff {x : Float} : x.isNaN = true ↔ ofFloat x = .nan := by
  rw [ofFloat_eq_ofUnpacked]
  change x.toModel.unpack.isNaN = true ↔ _
  cases x.toModel.unpack <;> simp [ofUnpacked, Float.Model.UnpackedFloat.isNaN]

theorem ofFloat_ne_nan {x : Float} (hx : x.isNaN = false) : ofFloat x ≠ .nan := by
  intro h
  rw [isNaN_iff.2 h] at hx
  cases hx

theorem isNaN_of_isInteger {x : Float} (h : (ofFloat x).isInteger = true) : x.isNaN = false := by
  rw [Bool.eq_false_iff]
  intro hnan
  rw [isNaN_iff.1 hnan] at h
  cases h

theorem Binary64.exists_truncate {v : Binary64} (h : v.isInteger = true) :
    ∃ n, v.truncate? = some n := by
  cases v with
  | nan => cases h
  | infinite negative => cases h
  | finite negative m e => cases negative <;> exact ⟨_, rfl⟩

theorem isInf_iff {x : Float} : x.isInf = true ↔ ∃ s, ofFloat x = .infinite s := by
  rw [ofFloat_eq_ofUnpacked]
  change x.toModel.unpack.isInf = true ↔ _
  cases x.toModel.unpack <;> simp [ofUnpacked, Float.Model.UnpackedFloat.isInf]

theorem compare_float {x y : Float} (hx : x.isNaN = false) (hy : y.isNaN = false) :
    x.toModel.unpack.compare y.toModel.unpack =
      some (compare (ofFloat x).rank (ofFloat y).rank) := by
  have hcx : (ofFloat x).Canonical := canonical_ofBits x.toBits
  have hcy : (ofFloat y).Canonical := canonical_ofBits y.toBits
  have hnx := ofFloat_ne_nan hx
  have hny := ofFloat_ne_nan hy
  rw [ofFloat_eq_ofUnpacked] at hcx hnx ⊢
  rw [ofFloat_eq_ofUnpacked] at hcy hny ⊢
  exact compare_eq hcx hcy hnx hny

theorem compare_nan {x y : Float} (h : x.isNaN = true ∨ y.isNaN = true) :
    x.toModel.unpack.compare y.toModel.unpack = none := by
  rcases h with h | h
  · rw [UnpackedFloat.isNaN_iff.1 h]
    rfl
  · rw [UnpackedFloat.isNaN_iff.1 h]
    cases x.toModel.unpack with
    | infinity s => cases s <;> rfl
    | notANumber => rfl
    | zero s => rfl
    | finite s m e hm => cases s <;> rfl

theorem lt_float_iff {x y : Float} :
    Scalar.lt x y = true ↔ x.toModel.unpack.compare y.toModel.unpack = some .lt := by
  change decide (x < y) = true ↔ _
  rw [decide_eq_true_eq]
  change decide (x.toModel < y.toModel) = true ↔ _
  rw [decide_eq_true_eq]
  change (x.toModel.unpack.compare y.toModel.unpack == some .lt) = true ↔ _
  exact beq_iff_eq

theorem eq_float_iff {x y : Float} :
    Scalar.eq x y = true ↔ x.toModel.unpack.compare y.toModel.unpack = some .eq := by
  change (x.toModel.unpack.compare y.toModel.unpack == some .eq) = true ↔ _
  exact beq_iff_eq

theorem compare_eq_some_iff {x y : Float} {o : Ordering} :
    x.toModel.unpack.compare y.toModel.unpack = some o ↔
      x.isNaN = false ∧ y.isNaN = false ∧ compare (ofFloat x).rank (ofFloat y).rank = o := by
  cases hx : x.isNaN with
  | true => simp [compare_nan (.inl hx)]
  | false =>
      cases hy : y.isNaN with
      | true => simp [compare_nan (.inr hy)]
      | false => simp [compare_float hx hy]

instance : Ranked Float where
  rank x := ((ofFloat x).rank : Rat)
  lt_iff x y := by
    rw [lt_float_iff, compare_eq_some_iff, compare_lt_iff_lt, Int.cast_lt]
    rfl
  eq_iff x y := by
    rw [eq_float_iff, compare_eq_some_iff, compare_eq_iff_eq, Int.cast_inj]
    rfl

end Macc
