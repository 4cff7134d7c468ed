import Mathlib
import Macc.Scalar

/-!
# The bits of a double

The program reads a double's exact value off its bits. The logic knows doubles
by another reading of the same bits, the one its arithmetic and its comparisons
are defined on. Here the two readings are shown to be one, and then the way
back: a value determines its bits, except that many words are no number, and a
double that is made of a word has the value that the word encodes.

All of it is arithmetic on the three fields of a word of sixty-four bits: the
sign, eleven bits of exponent, fifty-two bits of fraction.
-/

namespace Macc.Binary64

open Float.Model (Format UnpackedFloat)
open Float.Model.UnpackedFloat (Sign isNaNBits pack pack_unpack unpack unpackExponent
  unpackMantissa unpackSign)

/-! ## The fields -/

theorem ofBits_eq (u : UInt64) :
    ofBits u =
      if u.toNat / 2 ^ 52 % 2 ^ 11 = 2047 then
        if u.toNat % 2 ^ 52 = 0 then .infinite (u.toNat / 2 ^ 63 == 1) else .nan
      else if u.toNat / 2 ^ 52 % 2 ^ 11 = 0 then
        .finite (u.toNat / 2 ^ 63 == 1) (u.toNat % 2 ^ 52) (-1074)
      else
        .finite (u.toNat / 2 ^ 63 == 1) (u.toNat % 2 ^ 52 + 2 ^ 52)
          ((u.toNat / 2 ^ 52 % 2 ^ 11 : Nat) - 1075) := by
  have hsign : (u >>> 63 == 1) = (u.toNat / 2 ^ 63 == 1) := by
    rw [Bool.eq_iff_iff, beq_iff_eq, beq_iff_eq, ← UInt64.toNat_inj, UInt64.toNat_shiftRight]
    simp [Nat.shiftRight_eq_div_pow]
  have hexponent : ((u >>> 52) &&& 0x7ff).toNat = u.toNat / 2 ^ 52 % 2 ^ 11 := by
    rw [UInt64.toNat_and, UInt64.toNat_shiftRight, ← Nat.shiftRight_eq_div_pow]
    exact Nat.and_two_pow_sub_one_eq_mod _ 11
  have hfraction : (u &&& 0xfffffffffffff).toNat = u.toNat % 2 ^ 52 := by
    rw [UInt64.toNat_and]
    exact Nat.and_two_pow_sub_one_eq_mod _ 52
  rw [ofBits, hsign, hexponent, hfraction]
  rfl

theorem toNat_unpackMantissa (b : BitVec 64) :
    (@unpackMantissa Format.binary64 b).toNat = b.toNat % 2 ^ 52 := by
  simp [unpackMantissa]

theorem toNat_unpackExponent (b : BitVec 64) :
    (@unpackExponent Format.binary64 b).toNat = b.toNat / 2 ^ 52 % 2 ^ 11 := by
  simp [unpackExponent, Nat.shiftRight_eq_div_pow]

theorem toNat_unpackSign (b : BitVec 64) :
    (@unpackSign Format.binary64 b).toNat = b.toNat / 2 ^ 63 := by
  have := b.isLt
  simp [unpackSign, Nat.shiftRight_eq_div_pow]
  omega

/-! ## The two readings -/

/-- Whether a sign is the negative one. -/
def ofSign : Sign → Bool
  | .negative => true
  | .positive => false

def ofUnpacked : UnpackedFloat → Binary64
  | .notANumber => .nan
  | .infinity s => .infinite (ofSign s)
  | .zero s => .finite (ofSign s) 0 (-1074)
  | .finite s m e _ => .finite (ofSign s) m e

theorem ofSign_ofBitVec (b : BitVec 1) : ofSign (Sign.ofBitVec b) = (b.toNat == 1) := by
  revert b
  decide

theorem ofBits_eq_ofUnpacked (u : UInt64) :
    ofBits u = ofUnpacked (unpack Format.binary64 u.toBitVec) := by
  have hsign := toNat_unpackSign u.toBitVec
  have hexponent := toNat_unpackExponent u.toBitVec
  have hfraction := toNat_unpackMantissa u.toBitVec
  rw [ofBits_eq, unpack]
  have hones : (-1#11).toNat = 2047 := rfl
  have hnone : (0#11).toNat = 0 := rfl
  have hempty : (0#52).toNat = 0 := rfl
  simp only [← UInt64.toNat_toBitVec, ← hsign, ← hexponent, ← hfraction, ← ofSign_ofBitVec,
    ← BitVec.toNat_inj, hones, hnone, hempty]
  by_cases hinf : (@unpackExponent Format.binary64 u.toBitVec).toNat = 2047
  · rw [if_pos hinf, if_pos hinf]
    by_cases hzero : (@unpackMantissa Format.binary64 u.toBitVec).toNat = 0
    · rw [if_pos hzero, if_pos hzero]
      rfl
    · rw [if_neg hzero, if_neg hzero]
      rfl
  · rw [if_neg hinf, if_neg hinf]
    by_cases hsub : (@unpackExponent Format.binary64 u.toBitVec).toNat = 0
    · rw [if_pos hsub, if_pos hsub]
      by_cases hzero : (@unpackMantissa Format.binary64 u.toBitVec).toNat = 0
      · rw [dif_pos hzero, hzero]
        rfl
      · rw [dif_neg hzero, hsub]
        rfl
    · rw [if_neg hsub, if_neg hsub, ofUnpacked, BitVec.toNat_append]
      have hlt := (@unpackMantissa Format.binary64 u.toBitVec).isLt
      rw [← Nat.shiftLeft_add_eq_or_of_lt hlt]
      congr 1
      rw [Nat.add_comm]
      rfl

theorem ofFloat_eq_ofUnpacked (x : Float) : ofFloat x = ofUnpacked x.toModel.unpack :=
  ofBits_eq_ofUnpacked x.toBits

/-! ## From values to bits -/

/-- The bits of a value without its sign. -/
def magnitude : Binary64 → Nat
  | .nan => 2047 * 2 ^ 52 + 2 ^ 51
  | .infinite _ => 2047 * 2 ^ 52
  | .finite _ m e => (e + 1074).toNat * 2 ^ 52 + m

def bits (v : Binary64) : Nat :=
  v.isNegative.toNat * 2 ^ 63 + v.magnitude

/-- A value as a double has it: fifty-three bits, and fewer only at the least exponent. -/
def Canonical : Binary64 → Prop
  | .finite _ m e => -1074 ≤ e ∧ e ≤ 971 ∧ m < 2 ^ 53 ∧ (e = -1074 ∨ 2 ^ 52 ≤ m)
  | _ => True

theorem canonical_ofBits (u : UInt64) : (ofBits u).Canonical := by
  rw [ofBits_eq]
  split
  · split <;> trivial
  · split
    · refine ⟨?_, ?_, ?_, ?_⟩ <;> omega
    · refine ⟨?_, ?_, ?_, ?_⟩ <;> omega

theorem bits_finite (negative : Bool) (m : Nat) (e : Int) :
    (finite negative m e).bits = negative.toNat * 2 ^ 63 + ((e + 1074).toNat * 2 ^ 52 + m) := rfl

theorem bits_ofBits {u : UInt64} (h : ofBits u ≠ .nan) : (ofBits u).bits = u.toNat := by
  have hlt := u.toNat_lt
  have hsign : (u.toNat / 2 ^ 63 == 1).toNat = u.toNat / 2 ^ 63 := by
    have hbit : u.toNat / 2 ^ 63 = 0 ∨ u.toNat / 2 ^ 63 = 1 := by omega
    rcases hbit with hbit | hbit <;> rw [hbit] <;> rfl
  rw [ofBits_eq] at h ⊢
  split
  · next hinf =>
      split
      · rw [bits, isNegative, hsign, magnitude]
        omega
      · next hfraction =>
          rw [if_pos hinf, if_neg hfraction] at h
          exact absurd rfl h
  · split
    · have hleast : ((-1074 : Int) + 1074).toNat = 0 := rfl
      rw [bits_finite, hsign, hleast]
      omega
    · rw [bits_finite, hsign]
      omega

/-- The words that stand for no number. -/
theorem ofBits_of_isNaNBits {u : UInt64} (h : @isNaNBits Format.binary64 u.toBitVec) :
    ofBits u = .nan := by
  obtain ⟨hexponent, hfraction⟩ := of_decide_eq_true h
  have hones : u.toNat / 2 ^ 52 % 2 ^ 11 = 2047 := by
    rw [← UInt64.toNat_toBitVec, ← toNat_unpackExponent, hexponent]
    rfl
  have hsome : u.toNat % 2 ^ 52 ≠ 0 := by
    rw [← UInt64.toNat_toBitVec, ← toNat_unpackMantissa]
    intro hzero
    exact hfraction (BitVec.eq_of_toNat_eq hzero)
  rw [ofBits_eq, if_pos hones, if_neg hsome]

/-- A double made of bits has the value that they encode. -/
theorem ofFloat_ofBits (u : UInt64) : ofFloat (Float.ofBits u) = ofBits u := by
  have hbits : (Float.ofBits u).toBits =
      UInt64.ofBitVec (pack Format.binary64 (unpack Format.binary64 u.toBitVec)) := rfl
  rw [ofFloat, hbits, pack_unpack]
  split
  · next hnan =>
      rw [ofBits_of_isNaNBits hnan]
      decide
  · rfl

end Macc.Binary64
