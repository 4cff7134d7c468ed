import Macc.Text.Hex

/-!
# Digits and their numbers

A number is read back from its digits, whatever the base and however many zeros
stand in front of them. So two numbers with the same digits are one number, and
a spelling of fixed least width tells numbers apart.
-/

namespace Macc.Text

/-- The value of a digit in every base up to sixteen. -/
def digitValue (c : Char) : Nat :=
  (hexValue? c).getD 0

/-- The number that digits stand for, in a base. -/
def valueOf (base : Nat) (digits : List Char) : Nat :=
  digits.foldl (fun value c => base * value + digitValue c) 0

theorem digitValue_digitChar : ∀ {d : Nat}, d < 16 → digitValue (Nat.digitChar d) = d := by
  decide

theorem valueOf_append_singleton (base : Nat) (digits : List Char) (c : Char) :
    valueOf base (digits ++ [c]) = base * valueOf base digits + digitValue c := by
  simp [valueOf]

/-- Every digit of a number is one of its base. -/
theorem exists_digit_of_mem {base n : Nat} (hbase : 1 < base) {c : Char}
    (h : c ∈ Nat.toDigits base n) : ∃ d < base, c = Nat.digitChar d := by
  induction n using Nat.strongRecOn with
  | ind n ih =>
      rw [Nat.toDigits_eq_if hbase] at h
      split at h
      · next hsmall => exact ⟨n, hsmall, List.mem_singleton.1 h⟩
      · next hlarge =>
          rcases List.mem_append.1 h with hfront | hlast
          · exact ih _ (Nat.div_lt_self (by omega) hbase) hfront
          · exact ⟨n % base, Nat.mod_lt _ (by omega), List.mem_singleton.1 hlast⟩

theorem valueOf_toDigits {base : Nat} (hbase : 1 < base) (hsixteen : base ≤ 16) (n : Nat) :
    valueOf base (Nat.toDigits base n) = n := by
  induction n using Nat.strongRecOn with
  | ind n ih =>
      rw [Nat.toDigits_eq_if hbase]
      split
      · next hsmall =>
          have hvalue := valueOf_append_singleton base [] (Nat.digitChar n)
          rw [List.nil_append] at hvalue
          rw [hvalue, digitValue_digitChar (by omega)]
          simp [valueOf]
      · next hlarge =>
          have hdigit : n % base < 16 := Nat.lt_of_lt_of_le (Nat.mod_lt n (by omega)) hsixteen
          rw [valueOf_append_singleton, ih _ (Nat.div_lt_self (by omega) hbase),
            digitValue_digitChar hdigit]
          exact Nat.div_add_mod n base

theorem valueOf_zeros_append (base count : Nat) (digits : List Char) :
    valueOf base (List.replicate count '0' ++ digits) = valueOf base digits := by
  induction count with
  | zero => rfl
  | succ count ih =>
      rw [List.replicate_succ, List.cons_append, valueOf, List.foldl_cons]
      exact ih

theorem valueOf_padded (width n : Nat) : valueOf 10 (padded width n) = n := by
  rw [padded, valueOf_zeros_append, valueOf_toDigits (by decide) (by decide)]

theorem valueOf_hex (width n : Nat) : valueOf 16 (hex width n) = n := by
  rw [hex, valueOf_zeros_append, valueOf_toDigits (by decide) (by decide)]

/-- Numbers with the same padded digits are one number. -/
theorem padded_injective (width : Nat) : Function.Injective (padded width) := by
  intro m n h
  rw [← valueOf_padded width m, h, valueOf_padded]

end Macc.Text
