import Macc.Proofs.Attempts
import Macc.Proofs.Double.Integers
import Macc.Proofs.Trimming
import Macc.Value.Reading

/-!
# What was read is read again

Reading brings many spellings together: a name loses the blanks around it, a
year may come as text, as a real, as an integer. What matters for writing is
that the result is a fixed point. A name that was trimmed has nothing left to
trim, and an integer that came out of a value is read as itself, although it is
read by way of a double: it was cut from one, so it fits one.
-/

namespace Macc

namespace Value

theorem toName_of_toName {v : Value} {s : String} (h : v.toName = .ok s) :
    (Value.text s).toName = .ok s := by
  have hs : ∃ raw, s = Text.trim raw := by
    rw [toName.eq_def] at h
    split at h
    · cases h
    · obtain ⟨raw, -, hraw⟩ := bind_eq_ok_iff.1 h
      exact ⟨raw, (Except.ok.inj hraw).symm⟩
  obtain ⟨raw, rfl⟩ := hs
  change Except.ok (Text.trim (Text.trim raw)) = _
  rw [Text.trim_trim]

/-- An integer that a value was read as came out of a double. -/
theorem exists_truncate_of_toWhole {v : Value} {n : Int} (h : v.toWhole = .ok n) :
    ∃ x : Float, (Binary64.ofFloat x).truncate? = some n := by
  rw [toWhole.eq_def] at h
  split at h
  · cases h
  · obtain ⟨x, -, h⟩ := bind_eq_ok_iff.1 h
    split at h
    · rw [truncateFloat] at h
      split at h
      · next hcut =>
          cases h
          exact ⟨x, hcut⟩
      · cases h
    · cases h

theorem toWhole_of_toWhole {v : Value} {n : Int} (h : v.toWhole = .ok n) :
    (Value.int n).toWhole = .ok n := by
  obtain ⟨x, hx⟩ := exists_truncate_of_toWhole h
  obtain ⟨y, hfits, hinteger, hcut⟩ :=
    floatOfInt_truncate (Binary64.canonical_ofBits x.toBits) hx
  have hreal : (Value.int n).toReal = .ok y := hfits
  rw [toWhole, hreal, ok_bind, if_pos hinteger, truncateFloat, hcut]
  intro b hb
  cases hb

end Value

end Macc
