import Macc.Proofs.CurveReading

/-!
# Curves from their own points

A curve that is taken apart into pairs and built from them again is the same
curve, and building it replaces nothing: in an ascending list every point comes
after those that stand there already, so it goes to the end.

A curve of a document has no promise about its points when it is read, only
about the points that are left at the end. That is enough, because a point never
leaves a curve: it can lose its `y` to a later one, but its `x` stays. So if no
`x` of the finished curve lacks a number, none of the points added on the way
did.
-/

namespace Macc.Curve

variable {α : Type} [Scalar α]

/-! ## Building a curve again -/

/-- A point beyond all others goes to the end and is not worth a report. -/
theorem add_of_all_lt {c : Curve α} {p : ControlPoint α}
    (h : ∀ q ∈ c.points, Scalar.lt q.x p.x = true) :
    c.add p.x p.y = pure ⟨c.points ++ [p]⟩ := by
  have hfound : pointAt? p.x c.points = none := by
    rw [← List.append_nil c.points, pointAt?_append h, pointAt?]
  have hpoints : insertPoint p.x p.y c.points = c.points ++ [p] := by
    have happend := insertPoint_append p.y h []
    rwa [List.append_nil] at happend
  rw [add, hfound, Curve.insert, hpoints]

/-- Ascending points added behind ascending points, all of which they follow. -/
theorem addAll_of_pairwise {done todo : List (ControlPoint α)}
    (h : (done ++ todo).Pairwise fun p q => Scalar.lt p.x q.x = true) :
    addAll ⟨done⟩ (todo.map fun p => (p.x, p.y)) = pure ⟨done ++ todo⟩ := by
  induction todo generalizing done with
  | nil =>
      rw [List.append_nil]
      rfl
  | cons p rest ih =>
      have hbelow : ∀ q ∈ done, Scalar.lt q.x p.x = true := by
        intro q hq
        exact (List.pairwise_append.1 h).2.2 q hq p (by simp)
      have hmoved : (done ++ [p]) ++ rest = done ++ p :: rest := by simp
      rw [addAll, List.map_cons, List.foldlM_cons, @add_of_all_lt _ _ ⟨done⟩ p hbelow, pure_bind]
      rw [← hmoved] at h ⊢
      exact ih h

theorem Ascending.addAll_pairs {c : Curve α} (hc : c.Ascending) :
    empty.addAll c.pairs = pure c :=
  addAll_of_pairwise hc.sorted

/-! ## Points that stay -/

/-- Whether every `x` of a curve is a number. -/
def Numeric (c : Curve α) : Prop :=
  ∀ p ∈ c.points, Scalar.isNaN p.x = false

/-- No `x` is lost by inserting. -/
theorem mem_insertPoint_of_mem {x y : α} {points : List (ControlPoint α)} {p : ControlPoint α}
    (h : p ∈ points) : ∃ q ∈ insertPoint x y points, q.x = p.x := by
  induction points with
  | nil => cases h
  | cons first rest ih =>
      rw [insertPoint]
      split
      · rcases List.mem_cons.1 h with rfl | h
        · exact ⟨p, by simp, rfl⟩
        · obtain ⟨q, hq, hx⟩ := ih h
          exact ⟨q, by simp [hq], hx⟩
      · split
        · rcases List.mem_cons.1 h with rfl | h
          · exact ⟨⟨p.x, y⟩, by simp, rfl⟩
          · exact ⟨p, by simp [h], rfl⟩
        · exact ⟨p, by simp [List.mem_cons.1 h], rfl⟩

/-- The new `x` is there after inserting, or a number that equals it. -/
theorem exists_mem_insertPoint (x y : α) (points : List (ControlPoint α)) :
    ∃ q ∈ insertPoint x y points, q.x = x ∨ Scalar.eq q.x x = true := by
  induction points with
  | nil => exact ⟨⟨x, y⟩, by simp [insertPoint], .inl rfl⟩
  | cons first rest ih =>
      rw [insertPoint]
      split
      · obtain ⟨q, hq, hx⟩ := ih
        exact ⟨q, by simp [hq], hx⟩
      · split
        · next heq => exact ⟨⟨first.x, y⟩, by simp, .inr heq⟩
        · exact ⟨⟨x, y⟩, by simp, .inl rfl⟩

/-- Whether the points of a curve ascend, provided that every `x` is a number. -/
def Orderly (c : Curve α) : Prop :=
  c.Numeric → c.Ascending

theorem orderly_empty : (empty : Curve α).Orderly :=
  fun _ => ascending_empty

variable [Ranked α]

theorem numeric_of_insert {c : Curve α} {x y : α} (h : (c.insert x y).Numeric) :
    c.Numeric ∧ Scalar.isNaN x = false := by
  constructor
  · intro p hp
    obtain ⟨q, hq, hx⟩ := @mem_insertPoint_of_mem _ _ x y _ _ hp
    rw [← hx]
    exact h q hq
  · obtain ⟨q, hq, hx | heq⟩ := exists_mem_insertPoint x y c.points
    · rw [← hx]
      exact h q hq
    · exact ((Ranked.eq_iff q.x x).1 heq).2.1

theorem Orderly.insert {c : Curve α} (hc : c.Orderly) (x y : α) : (c.insert x y).Orderly := by
  intro hn
  obtain ⟨hold, hx⟩ := numeric_of_insert hn
  exact (hc hold).insert hx y

theorem Orderly.addAll {c : Curve α} (hc : c.Orderly) (pairs : List (α × α)) :
    (c.addAll pairs).value.Orderly := by
  rw [value_addAll]
  induction pairs generalizing c with
  | nil => exact hc
  | cons p rest ih => exact ih (hc.insert p.1 p.2)

end Macc.Curve
