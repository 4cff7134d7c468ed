import Mathlib.Algebra.Order.Field.Rat
import Mathlib.Tactic.Linarith
import Macc.Curve
import Macc.Proofs.Exact

/-!
# Curves stay in order

A curve is only ever built by adding points, and adding a point puts it where
its `x` belongs. So the points of a curve ascend strictly, whatever was added
and in which order, as long as every `x` is a number. The argument needs nothing
of the numbers but that comparing them is comparing ranks: the rank of a
rational is itself, and doubles have one too, in which the two zeros share a
place. `Ranked` is that one assumption, and both kinds of curves go through the
same proofs.
-/

namespace Macc

/-- Numbers whose comparisons are comparisons of ranks; what is no number compares with nothing. -/
class Ranked (α : Type) [Scalar α] where
  rank : α → Rat
  lt_iff : ∀ a b : α, Scalar.lt a b = true ↔
    Scalar.isNaN a = false ∧ Scalar.isNaN b = false ∧ rank a < rank b
  eq_iff : ∀ a b : α, Scalar.eq a b = true ↔
    Scalar.isNaN a = false ∧ Scalar.isNaN b = false ∧ rank a = rank b

instance : Ranked Rat where
  rank := id
  lt_iff := by simp
  eq_iff := by simp

namespace Ranked

variable {α : Type} [Scalar α] [Ranked α] {a b c : α}

theorem lt_trans (hab : Scalar.lt a b = true) (hbc : Scalar.lt b c = true) :
    Scalar.lt a c = true := by
  obtain ⟨ha, -, h₁⟩ := (lt_iff a b).1 hab
  obtain ⟨-, hc, h₂⟩ := (lt_iff b c).1 hbc
  exact (lt_iff a c).2 ⟨ha, hc, by linarith⟩

/-- Of two numbers that are neither in order nor equal, the second one is less. -/
theorem lt_of_not_lt_of_not_eq (ha : Scalar.isNaN a = false) (hb : Scalar.isNaN b = false)
    (hlt : ¬Scalar.lt a b = true) (heq : ¬Scalar.eq a b = true) : Scalar.lt b a = true := by
  rw [lt_iff] at hlt
  rw [eq_iff] at heq
  refine (lt_iff b a).2 ⟨hb, ha, ?_⟩
  rcases lt_trichotomy (rank a) (rank b) with h | h | h
  · exact absurd ⟨ha, hb, h⟩ hlt
  · exact absurd ⟨ha, hb, h⟩ heq
  · exact h

theorem lt_of_not_lt_of_lt (hb : Scalar.isNaN b = false) (hab : ¬Scalar.lt a b = true)
    (hac : Scalar.lt a c = true) : Scalar.lt b c = true := by
  obtain ⟨ha, hc, hlt⟩ := (lt_iff a c).1 hac
  rw [lt_iff] at hab
  have hle : rank b ≤ rank a := not_lt.1 fun h => hab ⟨ha, hb, h⟩
  exact (lt_iff b c).2 ⟨hb, hc, by linarith⟩

theorem lt_of_lt_of_not_lt (hc : Scalar.isNaN c = false) (hab : Scalar.lt a b = true)
    (hcb : ¬Scalar.lt c b = true) : Scalar.lt a c = true := by
  obtain ⟨ha, hb, hlt⟩ := (lt_iff a b).1 hab
  rw [lt_iff] at hcb
  have hle : rank b ≤ rank c := not_lt.1 fun h => hcb ⟨hc, hb, h⟩
  exact (lt_iff a c).2 ⟨ha, hc, by linarith⟩

theorem not_eq_of_lt (h : Scalar.lt a b = true) : ¬Scalar.eq b a = true := by
  intro heq
  have hrank := ((eq_iff b a).1 heq).2.2
  have hlt := ((lt_iff a b).1 h).2.2
  linarith

theorem not_lt_of_lt (h : Scalar.lt a b = true) : ¬Scalar.lt b a = true := by
  intro hba
  have hab := ((lt_iff a b).1 h).2.2
  have hlt := ((lt_iff b a).1 hba).2.2
  linarith

theorem eq_refl (ha : Scalar.isNaN a = false) : Scalar.eq a a = true :=
  (eq_iff a a).2 ⟨ha, ha, rfl⟩

theorem eq_symm (h : Scalar.eq a b = true) : Scalar.eq b a = true := by
  obtain ⟨ha, hb, hrank⟩ := (eq_iff a b).1 h
  exact (eq_iff b a).2 ⟨hb, ha, hrank.symm⟩

/-- What is no number compares with nothing. -/
theorem not_lt_of_isNaN (h : Scalar.isNaN a = true ∨ Scalar.isNaN b = true) :
    ¬Scalar.lt a b = true := by
  rw [lt_iff]
  rintro ⟨ha, hb, -⟩
  rcases h with h | h
  · exact Bool.false_ne_true (ha.symm.trans h)
  · exact Bool.false_ne_true (hb.symm.trans h)

theorem not_eq_of_isNaN (h : Scalar.isNaN a = true ∨ Scalar.isNaN b = true) :
    ¬Scalar.eq a b = true := by
  rw [eq_iff]
  rintro ⟨ha, hb, -⟩
  rcases h with h | h
  · exact Bool.false_ne_true (ha.symm.trans h)
  · exact Bool.false_ne_true (hb.symm.trans h)

theorem not_lt_of_eq (h : Scalar.eq a b = true) : ¬Scalar.lt a b = true :=
  fun hlt => not_eq_of_lt hlt (eq_symm h)

/-- Equal numbers stand on the same side of every third one. -/
theorem lt_congr (hab : Scalar.eq a b = true) (c : α) :
    Scalar.lt a c = Scalar.lt b c ∧ Scalar.lt c a = Scalar.lt c b := by
  obtain ⟨ha, hb, hrank⟩ := (eq_iff a b).1 hab
  constructor
  · rw [Bool.eq_iff_iff, lt_iff, lt_iff, ha, hb, hrank]
  · rw [Bool.eq_iff_iff, lt_iff, lt_iff, ha, hb, hrank]

/-- Equal numbers equal the same numbers. -/
theorem eq_congr (hab : Scalar.eq a b = true) (c : α) :
    Scalar.eq a c = Scalar.eq b c ∧ Scalar.eq c a = Scalar.eq c b := by
  obtain ⟨ha, hb, hrank⟩ := (eq_iff a b).1 hab
  constructor
  · rw [Bool.eq_iff_iff, eq_iff, eq_iff, ha, hb, hrank]
  · rw [Bool.eq_iff_iff, eq_iff, eq_iff, ha, hb, hrank]

end Ranked

namespace Curve

variable {α : Type} [Scalar α]

/-- The points of a curve are numbers in strictly ascending order. -/
structure Ascending (c : Curve α) : Prop where
  numeric : ∀ p ∈ c.points, Scalar.isNaN p.x = false
  sorted : c.points.Pairwise fun p q => Scalar.lt p.x q.x = true

/-- Among numbers, to precede is to be less. -/
theorem precedes_eq_lt {a b : α} (hb : Scalar.isNaN b = false) :
    precedes a b = Scalar.lt a b := by
  simp [precedes, hb]

/-- Inserting moves no `x`: every point stands at the new `x` or where a point stood before. -/
theorem mem_insertPoint {x y : α} {points : List (ControlPoint α)} {q : ControlPoint α}
    (h : q ∈ insertPoint x y points) : q.x = x ∨ ∃ p ∈ points, q.x = p.x := by
  induction points with
  | nil =>
      rw [insertPoint, List.mem_singleton] at h
      exact .inl (by rw [h])
  | cons p rest ih =>
      rw [insertPoint] at h
      split at h
      · rcases List.mem_cons.1 h with rfl | h
        · exact .inr ⟨q, by simp, rfl⟩
        · rcases ih h with hx | ⟨r, hr, hx⟩
          · exact .inl hx
          · exact .inr ⟨r, by simp [hr], hx⟩
      · split at h
        · rcases List.mem_cons.1 h with rfl | h
          · exact .inr ⟨p, by simp, rfl⟩
          · exact .inr ⟨q, by simp [h], rfl⟩
        · rcases List.mem_cons.1 h with rfl | h
          · exact .inl rfl
          · exact .inr ⟨q, h, rfl⟩

theorem ascending_empty : (empty : Curve α).Ascending :=
  ⟨by simp [empty], by simp [empty]⟩

/-- Adding points in order is inserting them in order. -/
theorem value_addAll (c : Curve α) (pairs : List (α × α)) :
    (c.addAll pairs).value = pairs.foldl (fun c p => c.insert p.1 p.2) c := by
  induction pairs generalizing c with
  | nil => rfl
  | cons p rest ih =>
      rw [addAll, List.foldlM_cons, Logged.value_bind, value_add]
      exact ih _

/-! ## Adding points -/

variable [Ranked α]

theorem sorted_insertPoint {x y : α} (hx : Scalar.isNaN x = false)
    {points : List (ControlPoint α)} (hn : ∀ p ∈ points, Scalar.isNaN p.x = false)
    (hs : points.Pairwise fun p q => Scalar.lt p.x q.x = true) :
    (insertPoint x y points).Pairwise fun p q => Scalar.lt p.x q.x = true := by
  induction points with
  | nil => simp [insertPoint]
  | cons p rest ih =>
      have hp : Scalar.isNaN p.x = false := hn p (by simp)
      obtain ⟨hbelow, hrest⟩ := List.pairwise_cons.1 hs
      rw [insertPoint, precedes_eq_lt hx]
      split
      · next hlt =>
          refine List.pairwise_cons.2 ⟨fun q hq => ?_, ih (fun r hr => hn r (by simp [hr])) hrest⟩
          rcases mem_insertPoint hq with h | ⟨r, hr, h⟩
          · rw [h]; exact hlt
          · rw [h]; exact hbelow r hr
      · next hlt =>
          split
          · exact List.pairwise_cons.2 ⟨hbelow, hrest⟩
          · next heq =>
              have hxp := Ranked.lt_of_not_lt_of_not_eq hp hx hlt heq
              refine List.pairwise_cons.2 ⟨fun q hq => ?_, hs⟩
              rcases List.mem_cons.1 hq with rfl | hq
              · exact hxp
              · exact Ranked.lt_trans hxp (hbelow q hq)

theorem Ascending.insert {c : Curve α} (hc : c.Ascending) {x : α} (hx : Scalar.isNaN x = false)
    (y : α) : (c.insert x y).Ascending where
  numeric p hp := by
    rcases mem_insertPoint hp with h | ⟨r, hr, h⟩
    · rw [h]; exact hx
    · rw [h]; exact hc.numeric r hr
  sorted := sorted_insertPoint hx hc.numeric hc.sorted

theorem Ascending.addAll {c : Curve α} (hc : c.Ascending) {pairs : List (α × α)}
    (hp : ∀ p ∈ pairs, Scalar.isNaN p.1 = false) : (c.addAll pairs).value.Ascending := by
  rw [value_addAll]
  induction pairs generalizing c with
  | nil => exact hc
  | cons p rest ih =>
      exact ih (hc.insert (hp p (by simp)) p.2) fun q hq => hp q (by simp [hq])

end Curve

end Macc
