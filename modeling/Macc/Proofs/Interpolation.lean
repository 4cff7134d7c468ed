import Mathlib.Order.Interval.Set.Basic
import Mathlib.Tactic.FieldSimp
import Mathlib.Tactic.Linarith
import Mathlib.Tactic.Ring
import Macc.Proofs.CurveOrder

/-!
# Reading a rising curve

A curve whose values do not fall from one control point to the next does not
fall anywhere: not along a segment, not from one segment to a later one, and not
at its foot, where prices below the first point count as zero. The walk over the
points is an induction, and what carries it is the pair of facts about one
segment, that its line stays above its left end and does not fall.
-/

namespace Macc

namespace ControlPoint

/-- A point that stands to the left of another one and is not higher. -/
def Below (p q : ControlPoint Rat) : Prop :=
  p.x < q.x ∧ p.y ≤ q.y

end ControlPoint

namespace Curve

/-- The values of a curve do not fall from left to right. -/
def Rising (c : Curve Rat) : Prop :=
  ∀ p ∈ c.points, ∀ q ∈ c.points, p.x ≤ q.x → p.y ≤ q.y

def Nonneg (c : Curve Rat) : Prop :=
  ∀ p ∈ c.points, 0 ≤ p.y

instance (c : Curve Rat) : Decidable c.Rising :=
  inferInstanceAs (Decidable (∀ p ∈ c.points, ∀ q ∈ c.points, p.x ≤ q.x → p.y ≤ q.y))

instance (c : Curve Rat) : Decidable c.Nonneg :=
  inferInstanceAs (Decidable (∀ p ∈ c.points, 0 ≤ p.y))

theorem pairwise_below {c : Curve Rat} (hc : c.Ascending) (hr : c.Rising) :
    c.points.Pairwise ControlPoint.Below := by
  refine hc.sorted.imp_of_mem fun hp hq h => ?_
  rw [Scalar.lt_rat, decide_eq_true_eq] at h
  exact ⟨h, hr _ hp _ hq (le_of_lt h)⟩

/-! ## One segment -/

theorem le_between {low high : ControlPoint Rat} (h : low.Below high) {x : Rat}
    (hx : low.x ≤ x) : low.y ≤ between low high x := by
  obtain ⟨hlt, hle⟩ := h
  have hrise : 0 ≤ (high.y - low.y) * (x - low.x) / (high.x - low.x) := by
    refine div_nonneg (mul_nonneg ?_ ?_) ?_ <;> linarith
  rw [between]
  linarith

theorem between_le_between {low high : ControlPoint Rat} (h : low.Below high) {a b : Rat}
    (hab : a ≤ b) : between low high a ≤ between low high b := by
  obtain ⟨hlt, hle⟩ := h
  have hrise : (high.y - low.y) * (a - low.x) / (high.x - low.x) ≤
      (high.y - low.y) * (b - low.x) / (high.x - low.x) := by
    refine div_le_div_of_nonneg_right (mul_le_mul_of_nonneg_left ?_ ?_) ?_ <;> linarith
  rw [between, between]
  linarith

theorem between_right {low high : ControlPoint Rat} (h : low.x < high.x) :
    between low high high.x = high.y := by
  have hwidth : high.x - low.x ≠ 0 := by linarith
  rw [between, mul_div_assoc, div_self hwidth]
  linarith

theorem between_le_right {low high : ControlPoint Rat} (h : low.Below high) {x : Rat}
    (hx : x ≤ high.x) : between low high x ≤ high.y :=
  (between_le_between h hx).trans_eq (between_right h.1)

theorem between_left (low high : ControlPoint Rat) : between low high low.x = low.y := by
  simp [between]

/-- The value between two points is a mean of theirs, weighted by the distances. -/
theorem between_eq_mean {low high : ControlPoint Rat} (h : low.x < high.x) (x : Rat) :
    between low high x = low.y * ((high.x - x) / (high.x - low.x)) +
      high.y * ((x - low.x) / (high.x - low.x)) := by
  have hwidth : high.x - low.x ≠ 0 := by linarith
  rw [between]
  field_simp
  ring

/-- Between two points a line keeps to every range that the two values are in. -/
theorem between_mem_Icc {low high : ControlPoint Rat} (h : low.x < high.x) {x : Rat}
    (hx : x ∈ Set.Icc low.x high.x) {a b : Rat} (hlow : low.y ∈ Set.Icc a b)
    (hhigh : high.y ∈ Set.Icc a b) : between low high x ∈ Set.Icc a b := by
  have hwidth : 0 < high.x - low.x := by linarith
  have hleft : 0 ≤ (high.x - x) / (high.x - low.x) := div_nonneg (by linarith [hx.2]) hwidth.le
  have hright : 0 ≤ (x - low.x) / (high.x - low.x) := div_nonneg (by linarith [hx.1]) hwidth.le
  have hwhole : (high.x - x) / (high.x - low.x) + (x - low.x) / (high.x - low.x) = 1 := by
    rw [← add_div, sub_add_sub_cancel, div_self hwidth.ne']
  rw [between_eq_mean h]
  generalize (high.x - x) / (high.x - low.x) = u at hleft hwhole ⊢
  generalize (x - low.x) / (high.x - low.x) = v at hright hwhole ⊢
  constructor
  · calc a = a * u + a * v := by rw [← mul_add, hwhole, mul_one]
      _ ≤ low.y * u + high.y * v :=
          add_le_add (mul_le_mul_of_nonneg_right hlow.1 hleft)
            (mul_le_mul_of_nonneg_right hhigh.1 hright)
  · calc low.y * u + high.y * v ≤ b * u + b * v :=
          add_le_add (mul_le_mul_of_nonneg_right hlow.2 hleft)
            (mul_le_mul_of_nonneg_right hhigh.2 hright)
      _ = b := by rw [← mul_add, hwhole, mul_one]

/-! ## From segment to segment -/

theorem valueAfter_cons (x : Rat) (previous p : ControlPoint Rat)
    (rest : List (ControlPoint Rat)) :
    valueAfter x previous (p :: rest) =
      if p.x < x then valueAfter x p rest
      else if p.x = x then some p.y
      else some (between previous p x) := by
  simp [valueAfter, precedes]

/-- Behind a point the curve has a value up to its last point, and none below that of the point. -/
theorem exists_valueAfter {x : Rat} {previous : ControlPoint Rat}
    {points : List (ControlPoint Rat)} (hb : (previous :: points).Pairwise ControlPoint.Below)
    (hlow : previous.x ≤ x) (hhigh : ∃ q ∈ points, x ≤ q.x) :
    ∃ v, valueAfter x previous points = some v ∧ previous.y ≤ v := by
  induction points generalizing previous with
  | nil => simp at hhigh
  | cons p rest ih =>
      obtain ⟨hprev, hrest⟩ := List.pairwise_cons.1 hb
      have hp := hprev p (by simp)
      rw [valueAfter_cons]
      by_cases hx : p.x < x
      · obtain ⟨q, hq, hxq⟩ := hhigh
        have hq : q ∈ rest := by
          rcases List.mem_cons.1 hq with rfl | hq
          · linarith
          · exact hq
        obtain ⟨v, hv, hle⟩ := ih hrest (le_of_lt hx) ⟨q, hq, hxq⟩
        exact ⟨v, by rw [if_pos hx]; exact hv, hp.2.trans hle⟩
      · rw [if_neg hx]
        by_cases he : p.x = x
        · exact ⟨p.y, if_pos he, hp.2⟩
        · exact ⟨_, if_neg he, le_between hp hlow⟩

/-- Behind a point the curve does not fall. -/
theorem valueAfter_mono {a b : Rat} (hab : a ≤ b) {previous : ControlPoint Rat}
    {points : List (ControlPoint Rat)} (hb : (previous :: points).Pairwise ControlPoint.Below)
    (hlow : previous.x ≤ a) (hhigh : ∃ q ∈ points, b ≤ q.x) :
    ∃ v w, valueAfter a previous points = some v ∧ valueAfter b previous points = some w ∧
      v ≤ w := by
  induction points generalizing previous with
  | nil => simp at hhigh
  | cons p rest ih =>
      obtain ⟨hprev, hrest⟩ := List.pairwise_cons.1 hb
      have hp := hprev p (by simp)
      rw [valueAfter_cons, valueAfter_cons]
      by_cases hbx : p.x < b
      · obtain ⟨q, hq, hbq⟩ := hhigh
        have hq : q ∈ rest := by
          rcases List.mem_cons.1 hq with rfl | hq
          · linarith
          · exact hq
        rw [if_pos hbx]
        by_cases hax : p.x < a
        · rw [if_pos hax]
          exact ih hrest (le_of_lt hax) ⟨q, hq, hbq⟩
        · -- the point lies between the two queries, and its value between theirs
          obtain ⟨w, hw, hpw⟩ := exists_valueAfter hrest (le_of_lt hbx) ⟨q, hq, hbq⟩
          rw [if_neg hax]
          by_cases hae : p.x = a
          · exact ⟨p.y, w, if_pos hae, hw, hpw⟩
          · have hle := between_le_right hp (not_lt.1 hax)
            exact ⟨_, w, if_neg hae, hw, hle.trans hpw⟩
      · have hax : ¬p.x < a := by linarith
        rw [if_neg hbx, if_neg hax]
        by_cases hae : p.x = a
        · have hbe : p.x = b := by linarith
          exact ⟨p.y, p.y, if_pos hae, if_pos hbe, le_refl _⟩
        · by_cases hbe : p.x = b
          · exact ⟨_, p.y, if_neg hae, if_pos hbe, between_le_right hp (not_lt.1 hax)⟩
          · exact ⟨_, _, if_neg hae, if_neg hbe, between_le_between hp hab⟩

/-! ## The whole curve -/

/-- The value at a price, counting as zero where the curve has none. -/
def valueOrZero (c : Curve Rat) (x : Rat) : Rat :=
  (c.valueAt x).getD 0

theorem valueAt_of_lt_first {first : ControlPoint Rat} {rest : List (ControlPoint Rat)} {x : Rat}
    (hx : x < first.x) : valueAt ⟨first :: rest⟩ x = none := by
  simp [valueAt, List.getLast?_cons, hx]

theorem valueAt_of_last_lt {c : Curve Rat} {top x : Rat} (htop : c.maxX? = some top)
    (hx : top < x) : c.valueAt x = none := by
  obtain ⟨last, hlast, rfl⟩ := Option.map_eq_some_iff.1 htop
  match hc : c.points with
  | [] => simp [hc] at hlast
  | first :: rest =>
      rw [hc] at hlast
      simp [valueAt, hc, hlast, hx]

/-- From the first point to the last one the curve is read by walking over its points. -/
theorem valueAt_cons {first : ControlPoint Rat} {rest : List (ControlPoint Rat)} {x top : Rat}
    (htop : maxX? ⟨first :: rest⟩ = some top) (hlow : first.x ≤ x) (hhigh : x ≤ top) :
    valueAt ⟨first :: rest⟩ x =
      if first.x = x then some first.y else valueAfter x first rest := by
  obtain ⟨last, hlast, rfl⟩ := Option.map_eq_some_iff.1 htop
  simp only [valueAt, hlast, Scalar.isNaN_rat, Scalar.lt_rat, Bool.false_or, Bool.or_eq_true,
    decide_eq_true_eq]
  rw [if_neg (by rintro (h | h) <;> linarith), valueAfter_cons]
  by_cases he : first.x = x
  · rw [if_neg (by linarith), if_pos he, if_pos he]
  · rw [if_pos (lt_of_le_of_ne hlow he), if_neg he]

theorem maxX?_mem {c : Curve Rat} {top : Rat} (htop : c.maxX? = some top) :
    ∃ q ∈ c.points, q.x = top := by
  obtain ⟨last, hlast, rfl⟩ := Option.map_eq_some_iff.1 htop
  exact ⟨last, List.mem_of_getLast? hlast, rfl⟩

theorem minX?_le_maxX? {c : Curve Rat} (hc : c.Ascending) {bottom top : Rat}
    (hbottom : c.minX? = some bottom) (htop : c.maxX? = some top) : bottom ≤ top := by
  obtain ⟨q, hq, rfl⟩ := maxX?_mem htop
  obtain ⟨first, hfirst, rfl⟩ := Option.map_eq_some_iff.1 hbottom
  obtain ⟨rest, hpoints⟩ := List.head?_eq_some_iff.1 hfirst
  have hsorted := hc.sorted
  rw [hpoints] at hq hsorted
  rcases List.mem_cons.1 hq with rfl | hq
  · exact le_refl _
  · have hlt := (List.pairwise_cons.1 hsorted).1 q hq
    rw [Scalar.lt_rat, decide_eq_true_eq] at hlt
    exact le_of_lt hlt

theorem valueOrZero_nonneg {c : Curve Rat} (hc : c.Ascending) (hr : c.Rising) (hn : c.Nonneg)
    (x : Rat) : 0 ≤ c.valueOrZero x := by
  have hbelow := pairwise_below hc hr
  obtain ⟨points⟩ := c
  match points with
  | [] => exact le_refl _
  | first :: rest =>
      have hfirst : 0 ≤ first.y := hn first (by simp)
      obtain ⟨top, htop⟩ : ∃ top, maxX? ⟨first :: rest⟩ = some top := by
        simp [maxX?, List.getLast?_cons]
      rw [valueOrZero]
      by_cases hlow : x < first.x
      · rw [valueAt_of_lt_first hlow]
        exact le_refl _
      by_cases hhigh : top < x
      · rw [valueAt_of_last_lt htop hhigh]
        exact le_refl _
      rw [valueAt_cons htop (not_lt.1 hlow) (not_lt.1 hhigh)]
      split
      · exact hfirst
      · next he =>
          obtain ⟨q, hq, rfl⟩ := maxX?_mem htop
          have hq : q ∈ rest := by
            rcases List.mem_cons.1 hq with rfl | hq
            · exact absurd (le_antisymm (not_lt.1 hlow) (not_lt.1 hhigh)) he
            · exact hq
          obtain ⟨v, hv, hle⟩ :=
            exists_valueAfter hbelow (not_lt.1 hlow) ⟨q, hq, not_lt.1 hhigh⟩
          rw [hv]
          exact hfirst.trans hle

/-- Up to its last point a rising curve of values that are not negative does not fall. -/
theorem valueOrZero_mono {c : Curve Rat} (hc : c.Ascending) (hr : c.Rising) (hn : c.Nonneg)
    {a b : Rat} (hab : a ≤ b) (hb : ∀ top, c.maxX? = some top → b ≤ top) :
    c.valueOrZero a ≤ c.valueOrZero b := by
  have hbelow := pairwise_below hc hr
  have hnonneg := valueOrZero_nonneg hc hr hn b
  obtain ⟨points⟩ := c
  match points with
  | [] => exact le_refl _
  | first :: rest =>
      obtain ⟨top, htop⟩ : ∃ top, maxX? ⟨first :: rest⟩ = some top := by
        simp [maxX?, List.getLast?_cons]
      have hbtop := hb top htop
      by_cases hlow : a < first.x
      · rw [valueOrZero, valueAt_of_lt_first hlow]
        exact hnonneg
      have hlow := not_lt.1 hlow
      rw [valueOrZero, valueOrZero, valueAt_cons htop hlow (hab.trans hbtop),
        valueAt_cons htop (hlow.trans hab) hbtop]
      by_cases hbe : first.x = b
      · rw [if_pos (by linarith), if_pos hbe]
      rw [if_neg hbe]
      obtain ⟨q, hq, rfl⟩ := maxX?_mem htop
      have hq : q ∈ rest := by
        rcases List.mem_cons.1 hq with rfl | hq
        · exact absurd (le_antisymm (hlow.trans hab) hbtop) hbe
        · exact hq
      split
      · obtain ⟨w, hw, hle⟩ := exists_valueAfter hbelow (hlow.trans hab) ⟨q, hq, hbtop⟩
        rw [hw]
        exact hle
      · obtain ⟨v, w, hv, hw, hle⟩ := valueAfter_mono hab hbelow hlow ⟨q, hq, hbtop⟩
        rw [hv, hw]
        exact hle

end Curve

end Macc
