import Mathlib
import Macc.Decimal.Shortest
import Macc.Proofs.Double.Bits

/-!
# The shortest digits tell doubles apart

The decimal that is written for a double is looked for on one grid after the
other, each ten times as fine. It is taken from the interval of the reals that
round to the double, so it can stand for two doubles only if their intervals
meet, and they do not: neighbouring intervals touch at an end, and at most one
of the two has that end for its own.

What remains is that the search finds something. The last grid has sixteen
digits behind the leading one, and two to the fifty-third is below ten to the
sixteenth, so its step is shorter than the interval, and a grid that finer than
an interval is long has a point in it. Only the length counts: that the grid is
looked at next to the value, and on both sides of it, is what makes the length
enough.
-/

namespace Macc.Decimal

/-- The number that a decimal stands for. -/
def Scaled.toRat (d : Scaled) : ℚ :=
  d.coefficient * (10 : ℚ) ^ d.exponent

/-- A number in an interval: between its ends, which belong to it only if it is closed. -/
structure Interval.Has (i : Interval) (q : ℚ) : Prop where
  low : (i.low : ℚ) ≤ q * i.scale
  high : q * i.scale ≤ i.high
  inner : i.closed = false → (i.low : ℚ) < q * i.scale ∧ q * i.scale < i.high

/-- An interval as one lies around a double: its value is inside. -/
structure Interval.Proper (i : Interval) : Prop where
  scale : 0 < i.scale
  low : i.low < i.value
  high : i.value < i.high

/-! ## The points of a grid -/

theorem zpow_mul_toNat {base : ℚ} (hbase : base ≠ 0) (n : ℤ) :
    base ^ n * base ^ (-n).toNat = base ^ n.toNat := by
  rw [← zpow_natCast, ← zpow_natCast, ← zpow_add₀ hbase]
  congr 1
  omega

variable {i : Interval} {step : ℤ} {c n scale : Nat}

theorem gridPoint_mul (scale : Nat) (step : ℤ) (c : Nat) :
    (c : ℚ) * 10 ^ step * scale * 10 ^ (-step).toNat =
      ((c * (scale * 10 ^ step.toNat) : Nat) : ℚ) := by
  push_cast
  rw [← zpow_mul_toNat (by norm_num) step, mul_right_comm _ (scale : ℚ), mul_assoc (c : ℚ), mul_assoc,
    mul_comm (scale : ℚ)]

/-- Comparisons with grid points are made between naturals. -/
theorem le_gridPoint_iff :
    (n : ℚ) ≤ c * 10 ^ step * scale ↔
      n * 10 ^ (-step).toNat ≤ c * (scale * 10 ^ step.toNat) := by
  have hup : (0 : ℚ) < 10 ^ (-step).toNat := by positivity
  rw [← mul_le_mul_iff_left₀ hup, gridPoint_mul]
  exact_mod_cast Iff.rfl

theorem gridPoint_le_iff :
    c * 10 ^ step * scale ≤ (n : ℚ) ↔
      c * (scale * 10 ^ step.toNat) ≤ n * 10 ^ (-step).toNat := by
  have hup : (0 : ℚ) < 10 ^ (-step).toNat := by positivity
  rw [← mul_le_mul_iff_left₀ hup, gridPoint_mul]
  exact_mod_cast Iff.rfl

/-- The question that is asked of a grid point: whether it is in the interval. -/
def Interval.contains (i : Interval) (step : ℤ) (c : Nat) : Bool :=
  if i.closed then
    i.low * 10 ^ (-step).toNat ≤ c * (i.scale * 10 ^ step.toNat) &&
      c * (i.scale * 10 ^ step.toNat) ≤ i.high * 10 ^ (-step).toNat
  else
    i.low * 10 ^ (-step).toNat < c * (i.scale * 10 ^ step.toNat) &&
      c * (i.scale * 10 ^ step.toNat) < i.high * 10 ^ (-step).toNat

theorem contains_iff : i.contains step c = true ↔ i.Has (c * 10 ^ step) := by
  rw [Interval.contains]
  split
  · next hclosed =>
      rw [Bool.and_eq_true, decide_eq_true_iff, decide_eq_true_iff, ← le_gridPoint_iff,
        ← gridPoint_le_iff]
      constructor
      · rintro ⟨hlow, hhigh⟩
        exact ⟨hlow, hhigh, fun hopen => by rw [hclosed] at hopen; cases hopen⟩
      · exact fun h => ⟨h.low, h.high⟩
  · next hopen =>
      rw [Bool.and_eq_true, decide_eq_true_iff, decide_eq_true_iff, ← not_le, ← not_le,
        ← le_gridPoint_iff, ← gridPoint_le_iff, not_le, not_le]
      constructor
      · rintro ⟨hlow, hhigh⟩
        exact ⟨hlow.le, hhigh.le, fun _ => ⟨hlow, hhigh⟩⟩
      · exact fun h => h.inner (Bool.eq_false_iff.2 hopen)

/-- The grid point below the value. -/
def Interval.below (i : Interval) (step : ℤ) : Nat :=
  i.value * 10 ^ (-step).toNat / (i.scale * 10 ^ step.toNat)

/-- What is chosen on a grid is in the interval. -/
theorem has_of_gridPoint? (h : i.gridPoint? step = some c) : i.Has (c * 10 ^ step) := by
  rw [← contains_iff]
  rw [Interval.gridPoint?] at h
  dsimp only at h
  split at h
  · cases h
  · cases h
    assumption
  · cases h
    assumption
  · split at h
    · cases h
      assumption
    · split at h
      · cases h
        assumption
      · split at h <;> cases h <;> assumption

/-- Nothing is chosen only if neither neighbour of the value is in the interval. -/
theorem of_gridPoint?_eq_none (h : i.gridPoint? step = none) :
    i.contains step (i.below step) = false ∧ i.contains step (i.below step + 1) = false := by
  rw [Interval.gridPoint?] at h
  dsimp only at h
  split at h
  · exact ⟨‹_›, ‹_›⟩
  · cases h
  · cases h
  · split at h
    · cases h
    · split at h
      · cases h
      · split at h <;> cases h

/-- The neighbours of a value are on either side of it, so outside they are beyond the ends. -/
theorem ends_le {below unit low value high : Nat} (hunit : 0 < unit) (hbelow : below = value / unit)
    (hlow : low < value) (hhigh : value < high) (hleft : below * unit ≤ low ∨ high ≤ below * unit)
    (hright : (below + 1) * unit ≤ low ∨ high ≤ (below + 1) * unit) : high ≤ low + unit := by
  have hle : below * unit ≤ value := hbelow ▸ Nat.div_mul_le_self value unit
  have hlt : value < (below + 1) * unit := by
    rw [hbelow, Nat.mul_comm]
    exact Nat.lt_mul_div_succ value hunit
  rw [Nat.succ_mul] at hright hlt
  omega

theorem outside_of_contains (h : i.contains step c = false) :
    c * (i.scale * 10 ^ step.toNat) ≤ i.low * 10 ^ (-step).toNat ∨
      i.high * 10 ^ (-step).toNat ≤ c * (i.scale * 10 ^ step.toNat) := by
  rw [Interval.contains] at h
  split at h <;> simp only [Bool.and_eq_false_iff, decide_eq_false_iff_not] at h <;> omega

/-- A grid on which nothing is chosen is at least as coarse as the interval is long. -/
theorem length_le_of_gridPoint?_eq_none (hi : i.Proper) (h : i.gridPoint? step = none) :
    (i.high : ℚ) - i.low ≤ 10 ^ step * i.scale := by
  obtain ⟨hbelow, habove⟩ := of_gridPoint?_eq_none h
  have hten : 0 < 10 ^ (-step).toNat := by positivity
  have hends := ends_le (Nat.mul_pos hi.scale (by positivity)) rfl
    (Nat.mul_lt_mul_of_pos_right hi.low hten) (Nat.mul_lt_mul_of_pos_right hi.high hten)
    (outside_of_contains hbelow) (outside_of_contains habove)
  have hgrid := gridPoint_mul i.scale step 1
  rw [Nat.cast_one, one_mul, one_mul] at hgrid
  have hup : (0 : ℚ) < 10 ^ (-step).toNat := by positivity
  rw [← mul_le_mul_iff_left₀ hup, hgrid, sub_mul, sub_le_iff_le_add']
  exact_mod_cast hends

/-! ## The place of the leading digit -/

theorem pow_digitCount_le {n : Nat} (h : 0 < n) : 10 ^ (digitCount n - 1) ≤ n := by
  have hpos : 0 < digitCount n := Nat.length_toDigits_pos
  rcases Nat.eq_or_lt_of_le (show 1 ≤ digitCount n from hpos) with hone | hmore
  · rw [← hone]
    exact h
  · by_contra hlt
    have hle := (Nat.length_toDigits_le_iff (by decide) (by omega)).2 (Nat.not_le.1 hlt)
    exact absurd hle (by rw [digitCount] at hmore ⊢; omega)

theorem lt_pow_digitCount (n : Nat) : n < 10 ^ digitCount n :=
  (Nat.length_toDigits_le_iff (by decide) Nat.length_toDigits_pos).1 (Nat.le_refl _)

theorem neg_pow_mul_le {k value : Nat} (h : scale ≤ value * 10 ^ k) :
    (10 : ℚ) ^ (-(k : ℤ)) * scale ≤ value := by
  rw [zpow_neg, zpow_natCast, inv_mul_le_iff₀ (by positivity), mul_comm]
  exact_mod_cast h

/-- The magnitude does not overstate the value. -/
theorem pow_magnitude_le (hi : i.Proper) :
    (10 : ℚ) ^ (i.magnitude - 1) * i.scale ≤ i.value := by
  have hvalue : 0 < i.value := Nat.lt_of_le_of_lt (Nat.zero_le _) hi.low
  rw [Interval.magnitude]
  split
  · next hwhole =>
      have hquotient : 0 < i.value / i.scale := Nat.div_pos hwhole hi.scale
      have hcount : 0 < digitCount (i.value / i.scale) := Nat.length_toDigits_pos
      have hplace : ((digitCount (i.value / i.scale) : ℤ) - 1) =
          ((digitCount (i.value / i.scale) - 1 : Nat) : ℤ) := by omega
      have hle : 10 ^ (digitCount (i.value / i.scale) - 1) * i.scale ≤ i.value :=
        (Nat.mul_le_mul_right _ (pow_digitCount_le hquotient)).trans (Nat.div_mul_le_self _ _)
      rw [hplace, zpow_natCast]
      exact_mod_cast hle
  · next hpart =>
      have hcount : 0 < digitCount (i.scale / i.value) := Nat.length_toDigits_pos
      dsimp only
      split
      · have hplace : (1 - (digitCount (i.scale / i.value) : ℤ)) - 1 =
            -(digitCount (i.scale / i.value) : ℤ) := by omega
        rw [hplace]
        refine neg_pow_mul_le ?_
        have hlt := lt_pow_digitCount (i.scale / i.value)
        rw [Nat.div_lt_iff_lt_mul hvalue, Nat.mul_comm] at hlt
        exact hlt.le
      · next hexact =>
          have hplace : (2 - (digitCount (i.scale / i.value) : ℤ)) - 1 =
              -((digitCount (i.scale / i.value) - 1 : Nat) : ℤ) := by omega
          rw [hplace]
          exact neg_pow_mul_le (Nat.not_lt.1 hexact)

/-! ## The search -/

/-- A search that gets to a grid on which something is chosen finds something in the interval. -/
theorem has_search {magnitude : ℤ} {rounds digits : Nat}
    (h : ∃ j < rounds, i.gridPoint? (magnitude - (digits + j : Nat)) ≠ none) :
    i.Has (i.search magnitude digits rounds).toRat := by
  induction rounds generalizing digits with
  | zero =>
      obtain ⟨j, hj, -⟩ := h
      exact absurd hj (Nat.not_lt_zero j)
  | succ rounds ih =>
      obtain ⟨j, hj, hsome⟩ := h
      rw [Interval.search]
      split
      · next c hc => exact has_of_gridPoint? hc
      · next hnone =>
          match j with
          | 0 => exact absurd hnone hsome
          | j + 1 =>
              refine ih ⟨j, by omega, ?_⟩
              rw [show digits + 1 + j = digits + (j + 1) by omega]
              exact hsome

/-! ## The interval around a double -/

section

variable {m m' : Nat} {e e' : ℤ} {q : ℚ}

/-- How far below a double its interval begins, in quarters of the last place. -/
def gapBelow (m : Nat) (e : ℤ) : Nat :=
  if m == 2 ^ 52 && e != -1074 then 1 else 2

theorem gapBelow_cases (m : Nat) (e : ℤ) :
    gapBelow m e = 1 ∧ m = 2 ^ 52 ∧ e ≠ -1074 ∨
      gapBelow m e = 2 ∧ ¬ (m = 2 ^ 52 ∧ e ≠ -1074) := by
  rw [gapBelow]
  split
  · next h => exact .inl ⟨rfl, by simpa using h⟩
  · next h => exact .inr ⟨rfl, by simpa using h⟩

theorem around_eq (m : Nat) (e : ℤ) :
    Interval.around m e =
      ⟨(4 * m - gapBelow m e) * 2 ^ (e - 2).toNat, 4 * m * 2 ^ (e - 2).toNat,
        (4 * m + 2) * 2 ^ (e - 2).toNat, 2 ^ (-(e - 2)).toNat, m % 2 == 0⟩ := rfl

theorem proper_around (hm : 0 < m) (e : ℤ) : (Interval.around m e).Proper := by
  have hup : 0 < 2 ^ (e - 2).toNat := by positivity
  have hgap := gapBelow_cases m e
  rw [around_eq]
  refine ⟨by positivity, Nat.mul_lt_mul_of_pos_right ?_ hup,
    Nat.mul_lt_mul_of_pos_right ?_ hup⟩
  · omega
  · omega

/-- The ends of the interval around a double, in quarters of its last place. -/
theorem Interval.Has.quarters (h : (Interval.around m e).Has q) :
    ((4 * m - gapBelow m e : Nat) : ℚ) * 2 ^ (e - 2) ≤ q ∧
      q ≤ ((4 * m + 2 : Nat) : ℚ) * 2 ^ (e - 2) ∧
      (m % 2 = 1 → ((4 * m - gapBelow m e : Nat) : ℚ) * 2 ^ (e - 2) < q ∧
        q < ((4 * m + 2 : Nat) : ℚ) * 2 ^ (e - 2)) := by
  have hscale : (0 : ℚ) < 2 ^ (-(e - 2)).toNat := by positivity
  have hunit := zpow_mul_toNat (two_ne_zero (α := ℚ)) (e - 2)
  obtain ⟨hlow, hhigh, hinner⟩ := h
  rw [around_eq] at hlow hhigh hinner
  dsimp only at hlow hhigh hinner
  rw [Nat.cast_mul, Nat.cast_pow, Nat.cast_pow, Nat.cast_ofNat, ← hunit, ← mul_assoc] at hlow hhigh
  rw [Nat.cast_mul, Nat.cast_mul, Nat.cast_pow, Nat.cast_pow, Nat.cast_ofNat, ← hunit, ← mul_assoc,
    ← mul_assoc] at hinner
  refine ⟨le_of_mul_le_mul_right hlow hscale, le_of_mul_le_mul_right hhigh hscale, fun hodd => ?_⟩
  obtain ⟨hlow', hhigh'⟩ := hinner (by rw [hodd]; rfl)
  exact ⟨lt_of_mul_lt_mul_right hlow' hscale.le, lt_of_mul_lt_mul_right hhigh' hscale.le⟩

/-- A double as it is held, other than zero. -/
structure Positive (m : Nat) (e : ℤ) : Prop where
  pos : 0 < m
  lt : m < 2 ^ 53
  least : -1074 ≤ e
  full : e = -1074 ∨ 2 ^ 52 ≤ m

/-- If a number is in two intervals, of which the first has the finer places, the upper end of the
first is not below the lower end of the second, and above it if one of the two is open. -/
theorem ends_meet {k : Nat} (h : (Interval.around m e).Has q)
    (h' : (Interval.around m' (e + k)).Has q) :
    (4 * m' - gapBelow m' (e + k)) * 2 ^ k ≤ 4 * m + 2 ∧
      (m % 2 = 1 ∨ m' % 2 = 1 → (4 * m' - gapBelow m' (e + k)) * 2 ^ k < 4 * m + 2) := by
  obtain ⟨-, hhigh, hopen⟩ := h.quarters
  obtain ⟨hlow, -, hopen'⟩ := h'.quarters
  have hunit : (0 : ℚ) < 2 ^ (e - 2) := by positivity
  have hplaces : ((4 * m' - gapBelow m' (e + k) : Nat) : ℚ) * 2 ^ (e + k - 2) =
      (((4 * m' - gapBelow m' (e + k)) * 2 ^ k : Nat) : ℚ) * 2 ^ (e - 2) := by
    rw [show e + k - 2 = k + (e - 2) by omega, zpow_add₀ two_ne_zero, zpow_natCast, Nat.cast_mul,
      Nat.cast_pow, Nat.cast_ofNat, mul_assoc]
  rw [hplaces] at hlow hopen'
  constructor
  · exact_mod_cast le_of_mul_le_mul_right (hlow.trans hhigh) hunit
  · rintro (hodd | hodd)
    · exact_mod_cast lt_of_mul_lt_mul_right (hlow.trans_lt (hopen hodd).2) hunit.le
    · exact_mod_cast lt_of_mul_lt_mul_right ((hopen' hodd).1.trans_le hhigh) hunit.le

/-- A number is around one double only. -/
theorem eq_of_has (hd : Positive m e) (hd' : Positive m' e') (h : (Interval.around m e).Has q)
    (h' : (Interval.around m' e').Has q) : m = m' ∧ e = e' := by
  wlog hle : e ≤ e' generalizing m m' e e'
  · obtain ⟨rfl, rfl⟩ := this hd' hd h' h (by omega)
    exact ⟨rfl, rfl⟩
  obtain ⟨k, rfl⟩ : ∃ k : Nat, e' = e + k := ⟨(e' - e).toNat, by omega⟩
  obtain ⟨hends, hstrict⟩ := ends_meet h h'
  have hgap' := gapBelow_cases m' (e + k)
  have hlt := hd.lt
  have hfull := hd'.full
  have hleast := hd.least
  cases k with
  | zero =>
      have hback : (Interval.around m (e + (0 : Nat) + (0 : Nat))).Has q := by
        simpa using h
      obtain ⟨hends', hstrict'⟩ := ends_meet h' hback
      have hgap := gapBelow_cases m (e + (0 : Nat) + (0 : Nat))
      rw [pow_zero, mul_one] at hends hends' hstrict hstrict'
      have hpos := hd.pos
      have hpos' := hd'.pos
      refine ⟨?_, by simp⟩
      omega
  | succ k =>
      have hpow : 2 ≤ 2 ^ (k + 1) := by
        rw [pow_succ]
        exact Nat.le_mul_of_pos_left 2 (by positivity)
      have htwice := Nat.mul_le_mul_left (4 * m' - gapBelow m' (e + (k + 1 : Nat))) hpow
      generalize (4 * m' - gapBelow m' (e + (k + 1 : Nat))) * 2 ^ (k + 1) = lower at *
      omega

/-- The interval around a double is longer than the steps of the last grid that is tried. -/
theorem length_around (hd : Positive m e) :
    ((Interval.around m e).value : ℚ) <
      ((Interval.around m e).high - (Interval.around m e).low) * 10 ^ 16 := by
  have hgap := gapBelow_cases m e
  have hpos := hd.pos
  have hlt := hd.lt
  have hup : 0 < 2 ^ (e - 2).toNat := by positivity
  have hlength : (4 * m + 2) = (4 * m - gapBelow m e) + (gapBelow m e + 2) := by omega
  have hquarters : 4 * m < (gapBelow m e + 2) * 10 ^ 16 := by
    rcases hgap with ⟨hone, rfl, -⟩ | ⟨htwo, -⟩
    · rw [hone]
      norm_num
    · rw [htwo]
      omega
  have hnat := Nat.mul_lt_mul_of_pos_right hquarters hup
  rw [around_eq]
  dsimp only
  rw [hlength]
  push_cast
  have hrat : ((4 * m * 2 ^ (e - 2).toNat : Nat) : ℚ) <
      (((gapBelow m e + 2) * 10 ^ 16 * 2 ^ (e - 2).toNat : Nat) : ℚ) := by
    exact_mod_cast hnat
  push_cast at hrat
  linarith

/-- The shortest decimal of a double is one that is around it. -/
theorem has_shortest (hd : Positive m e) :
    (Interval.around m e).Has (shortest m e).toRat := by
  rw [shortest, if_neg hd.pos.ne']
  refine has_search ⟨16, by decide, fun hnone => ?_⟩
  have hproper := proper_around hd.pos e
  have hlength := length_le_of_gridPoint?_eq_none hproper hnone
  have hplace := pow_magnitude_le hproper
  have hstep : (10 : ℚ) ^ ((Interval.around m e).magnitude - (1 + 16 : Nat)) * 10 ^ 16 =
      10 ^ ((Interval.around m e).magnitude - 1) := by
    rw [← zpow_natCast, ← zpow_add₀ (by norm_num)]
    congr 1
    push_cast
    ring
  have hlong := length_around hd
  have hshort : ((Interval.around m e).high - (Interval.around m e).low : ℚ) * 10 ^ 16 ≤
      (Interval.around m e).value := by
    calc ((Interval.around m e).high - (Interval.around m e).low : ℚ) * 10 ^ 16
        ≤ 10 ^ ((Interval.around m e).magnitude - (1 + 16 : Nat)) * (Interval.around m e).scale *
            10 ^ 16 := mul_le_mul_of_nonneg_right hlength (by norm_num)
      _ = 10 ^ ((Interval.around m e).magnitude - 1) * (Interval.around m e).scale := by
          rw [mul_right_comm, hstep]
      _ ≤ (Interval.around m e).value := hplace
  exact absurd hshort (not_le.2 hlong)

/-- Doubles with the same shortest decimal are one double. -/
theorem eq_of_shortest (hd : Positive m e) (hd' : Positive m' e')
    (h : (shortest m e).toRat = (shortest m' e').toRat) : m = m' ∧ e = e' :=
  eq_of_has hd hd' (has_shortest hd) (h ▸ has_shortest hd')

/-- The shortest decimal of a double other than zero is not zero. -/
theorem shortest_pos (hd : Positive m e) : 0 < (shortest m e).coefficient := by
  have hlow := (has_shortest hd).quarters.1
  have hgap := gapBelow_cases m e
  have hpos := hd.pos
  have hend : (0 : ℚ) < ((4 * m - gapBelow m e : Nat) : ℚ) * 2 ^ (e - 2) := by
    have : 0 < 4 * m - gapBelow m e := by omega
    positivity
  by_contra hzero
  rw [Nat.not_lt, Nat.le_zero] at hzero
  rw [Scaled.toRat, hzero, Nat.cast_zero, zero_mul] at hlow
  linarith

end

end Macc.Decimal
