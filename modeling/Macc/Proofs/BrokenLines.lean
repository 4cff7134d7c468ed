import Mathlib.Topology.Instances.Rat
import Mathlib.Topology.Order.DenselyOrdered
import Macc.Proofs.CurveColumns
import Macc.Proofs.Double.Signs
import Macc.Proofs.Interpolation

/-!
# A curve is its broken line

What a curve answers can be said without saying how it finds it: from its first
point to its last one it is the continuous function through the points that is
straight from each one to the next, and there is only one such function. Outside
it has no value. The first half of this is about exact numbers. What remains
true of doubles is where the answer comes from: from the point at the query, or
else from the formula of the line between the two points around it, and without
a reading beyond the points or a division by a width of zero.

Continuity is glued together at the points, since a line is continuous up to and
with its ends. Uniqueness goes the other way: a function that is straight
between two points and continuous at them cannot but meet them there, and a
straight line is determined by two of its points.
-/

namespace Macc

namespace Curve

/-! ## Answers over any numbers -/

section

variable {α : Type} [Scalar α]

/-- What a query of a curve answers, and that its columns answer it without a wrong reading. -/
structure AnswersAt (search : List α → α → Nat) (t : Columns α) (c : Curve α) (x : α) : Prop where
  columns : t.value search x = .ok (c.valueAt x)
  none_iff : c.valueAt x = none ↔ c.Outside x
  at_point : ∀ p ∈ c.points, Scalar.eq p.x x = true → c.valueAt x = some p.y
  between_points : ¬c.Outside x → (∀ p ∈ c.points, Scalar.eq p.x x = false) →
    ∃ low high, c.Neighbours low high ∧ Scalar.lt low.x x = true ∧ Scalar.lt x high.x = true ∧
      c.valueAt x = some (between low high x)

variable [Ranked α]

/-- However a curve was put together, every query is answered so, provided that numbers which
differ have a difference. -/
theorem answersAt_addAll
    (hwidth : ∀ a b : α, Scalar.lt a b = true → Scalar.eq (b - a) Scalar.zero = false)
    {search : List α → α → Nat} (hsearch : FindsPlaces search) {calls : List (α × α)}
    (hcalls : ∀ p ∈ calls, Scalar.isNaN p.1 = false) (x : α) :
    AnswersAt search (calls.foldl (fun t p => t.add search p.1 p.2) Columns.empty)
      (empty.addAll calls).value x := by
  have hc := ascending_empty.addAll hcalls
  rw [← columns_addAll hsearch hcalls]
  generalize (empty.addAll calls).value = c at hc ⊢
  refine ⟨Columns.value_eq hsearch hc (fun p _ q _ => hwidth p.x q.x) x, ?_,
    fun p hp => hc.valueAt_point hp, ?_⟩
  · refine ⟨fun hnone => ?_, valueAt_of_outside⟩
    have hanswer := hc.answer x
    rw [hnone] at hanswer
    cases hanswer
    assumption
  · intro hin hpoints
    have hanswer := hc.answer x
    generalize c.valueAt x = v at hanswer
    cases hanswer with
    | none hout => exact absurd hout hin
    | @point before after p hdiv hp =>
        rw [hpoints p hdiv.mem] at hp
        cases hp
    | @line before after low high hdiv hhigh =>
        obtain ⟨hnext, hlow⟩ := hdiv.neighbours
        exact ⟨low, high, hnext, hlow, hhigh, rfl⟩

end

/-! ## Straight lines -/

/-- A function that is straight between two points and continuous up to them is their line. -/
theorem eq_between_of_straight {low high : ControlPoint Rat} (h : low.x < high.x) {x : Rat}
    (hx : x ∈ Set.Icc low.x high.x) {f : Rat → Rat} (hf : ContinuousOn f (Set.Icc low.x high.x))
    (hlow : f low.x = low.y) (hhigh : f high.x = high.y) {a b : Rat}
    (hab : ∀ z ∈ Set.Ioo low.x high.x, f z = a + b * z) : f x = between low high x := by
  have hline : Set.EqOn f (fun z => a + b * z) (Set.Icc low.x high.x) := by
    refine Set.EqOn.of_subset_closure hab hf ?_ Set.Ioo_subset_Icc_self ?_
    · exact (continuous_const.add (continuous_const.mul continuous_id)).continuousOn
    · rw [closure_Ioo h.ne]
  have hleft : low.y = a + b * low.x := hlow.symm.trans (hline ⟨le_refl _, h.le⟩)
  have hright : high.y = a + b * high.x := hhigh.symm.trans (hline ⟨h.le, le_refl _⟩)
  have hwidth : high.x - low.x ≠ 0 := by linarith
  rw [hline hx, between, hleft, hright]
  field_simp
  ring

/-! ## The broken line -/

/-- A continuous function through the points of a curve that is straight between neighbours. -/
structure BrokenLine (c : Curve Rat) (f : Rat → Rat) : Prop where
  continuous : ∀ bottom top, c.minX? = some bottom → c.maxX? = some top →
    ContinuousOn f (Set.Icc bottom top)
  through : ∀ p ∈ c.points, f p.x = p.y
  straight : ∀ low high, c.Neighbours low high →
    ∃ a b, ∀ x ∈ Set.Ioo low.x high.x, f x = a + b * x

theorem continuous_between (low high : ControlPoint Rat) : Continuous (between low high) := by
  have hline : between low high = fun x => low.y + (high.y - low.y) * (x - low.x) *
      (high.x - low.x)⁻¹ := by
    funext x
    rw [between, div_eq_mul_inv]
  rw [hline]
  fun_prop

/-- What is the line between all neighbours is continuous from the first point to the last. -/
theorem continuousOn_of_between {f : Rat → Rat} {first last : ControlPoint Rat}
    {rest : List (ControlPoint Rat)} (hlast : (first :: rest).getLast? = some last)
    (hs : (first :: rest).Pairwise fun p q => p.x < q.x)
    (hf : ∀ low high, [low, high] <:+: first :: rest →
      Set.EqOn f (between low high) (Set.Icc low.x high.x)) :
    ContinuousOn f (Set.Icc first.x last.x) := by
  induction rest generalizing first with
  | nil =>
      obtain rfl : first = last := by simpa using hlast
      rw [Set.Icc_self]
      exact continuousOn_singleton f first.x
  | cons second rest ih =>
      obtain ⟨hbelow, hrest⟩ := List.pairwise_cons.1 hs
      rw [List.getLast?_cons_cons] at hlast
      have hsegment : ContinuousOn f (Set.Icc first.x second.x) :=
        (continuous_between first second).continuousOn.congr
          (hf first second ⟨[], rest, rfl⟩)
      have hbehind : ContinuousOn f (Set.Icc second.x last.x) :=
        ih hlast hrest fun low high hnext =>
          hf low high (hnext.trans (List.suffix_cons _ _).isInfix)
      have hle : second.x ≤ last.x := by
        rcases List.mem_cons.1 (List.mem_of_getLast? hlast) with rfl | hmem
        · exact le_refl _
        · exact ((List.pairwise_cons.1 hrest).1 last hmem).le
      rw [← Set.Icc_union_Icc_eq_Icc (hbelow second (by simp)).le hle]
      exact hsegment.union_of_isClosed hbehind isClosed_Icc isClosed_Icc

section

variable {c : Curve Rat} (hc : c.Ascending)

include hc

theorem Neighbours.lt_rat {low high : ControlPoint Rat} (h : c.Neighbours low high) :
    low.x < high.x := by
  simpa using h.lt hc

/-- From one point to the next, both included, a curve answers with their line. -/
theorem valueAt_of_mem_Icc {low high : ControlPoint Rat} (h : c.Neighbours low high) {x : Rat}
    (hx : x ∈ Set.Icc low.x high.x) : c.valueAt x = some (between low high x) := by
  rcases hx.1.eq_or_lt with rfl | hlow
  · rw [between_left]
    exact hc.valueAt_point h.mem.1 (by simp)
  rcases hx.2.eq_or_lt with rfl | hhigh
  · rw [between_right (h.lt_rat hc)]
    exact hc.valueAt_point h.mem.2 (by simp)
  exact hc.valueAt_line h (by simpa using hlow) (by simpa using hhigh)

/-- Every point of a curve stands between its ends. -/
theorem mem_Icc_ends {bottom top : Rat} (hbottom : c.minX? = some bottom)
    (htop : c.maxX? = some top) {p : ControlPoint Rat} (hp : p ∈ c.points) :
    p.x ∈ Set.Icc bottom top := by
  obtain ⟨first, hfirst, rfl⟩ := Option.map_eq_some_iff.1 hbottom
  obtain ⟨last, hlast, rfl⟩ := Option.map_eq_some_iff.1 htop
  have hends := hc.not_lt_ends hfirst hlast hp
  simpa using hends

theorem BrokenLine.valueAt_eq {f : Rat → Rat} (hf : BrokenLine c f) {x : Rat}
    (hin : ¬c.Outside x) : c.valueAt x = some (f x) := by
  have hanswer := hc.answer x
  generalize c.valueAt x = v at hanswer
  cases hanswer with
  | none hout => exact absurd hout hin
  | @point before after p hdiv hp =>
      have hpx : p.x = x := by simpa using hp
      rw [← hpx, hf.through p hdiv.mem]
  | @line before after low high hdiv hhigh =>
      obtain ⟨hnext, hlow⟩ := hdiv.neighbours
      obtain ⟨hlowmem, hhighmem⟩ := hnext.mem
      obtain ⟨a, b, hab⟩ := hf.straight low high hnext
      have hlowx : low.x < x := by simpa using hlow
      have hxhigh : x < high.x := by simpa using hhigh
      obtain ⟨bottom, hbottom⟩ : ∃ bottom, c.minX? = some bottom := by
        rw [minX?, hdiv.points_eq]
        simp
      obtain ⟨top, htop⟩ : ∃ top, c.maxX? = some top := by
        rw [maxX?, hdiv.points_eq]
        simp [List.getLast?_cons]
      have hcontinuous : ContinuousOn f (Set.Icc low.x high.x) :=
        (hf.continuous bottom top hbottom htop).mono
          (Set.Icc_subset_Icc (mem_Icc_ends hc hbottom htop hlowmem).1
            (mem_Icc_ends hc hbottom htop hhighmem).2)
      rw [eq_between_of_straight (hnext.lt_rat hc) ⟨hlowx.le, hxhigh.le⟩ hcontinuous
        (hf.through low hlowmem) (hf.through high hhighmem) hab]

theorem brokenLine_of_valueAt_eq {f : Rat → Rat}
    (hf : ∀ x, ¬c.Outside x → c.valueAt x = some (f x)) : BrokenLine c f := by
  have heq : ∀ {x v}, c.valueAt x = some v → f x = v := by
    intro x v hv
    have hin : ¬c.Outside x := by
      intro hout
      rw [valueAt_of_outside hout] at hv
      cases hv
    rw [hf x hin] at hv
    cases hv
    rfl
  have hsegment : ∀ low high, c.Neighbours low high →
      Set.EqOn f (between low high) (Set.Icc low.x high.x) :=
    fun low high hnext x hx => heq (valueAt_of_mem_Icc hc hnext hx)
  refine ⟨?_, fun p hp => heq (hc.valueAt_point hp (by simp)), ?_⟩
  · intro bottom top hbottom htop
    obtain ⟨first, hfirst, rfl⟩ := Option.map_eq_some_iff.1 hbottom
    obtain ⟨last, hlast, rfl⟩ := Option.map_eq_some_iff.1 htop
    obtain ⟨rest, hpoints⟩ := List.head?_eq_some_iff.1 hfirst
    have hsorted : c.points.Pairwise fun p q => p.x < q.x := by
      simpa using hc.sorted
    rw [hpoints] at hlast hsorted
    refine continuousOn_of_between hlast hsorted fun low high hnext => hsegment low high ?_
    rw [Neighbours, hpoints]
    exact hnext
  · intro low high hnext
    refine ⟨low.y - (high.y - low.y) / (high.x - low.x) * low.x,
      (high.y - low.y) / (high.x - low.x), fun x hx => ?_⟩
    rw [hsegment low high hnext (Set.Ioo_subset_Icc_self hx), between]
    ring

/-- Where it has a value, a curve is the one broken line through its points. -/
theorem brokenLine_iff (f : Rat → Rat) :
    BrokenLine c f ↔ ∀ x, ¬c.Outside x → c.valueAt x = some (f x) :=
  ⟨fun hf _ => hf.valueAt_eq hc, brokenLine_of_valueAt_eq hc⟩

end

end Curve

/-! ## Every query of every curve -/

theorem width_ne_zero {x y : Float} (h : Scalar.lt x y = true) :
    Scalar.eq (y - x) Scalar.zero = false := by
  rw [← Bool.not_eq_true]
  exact Ranked.not_eq_of_lt (zero_lt_sub h)

theorem width_ne_zero_rat {x y : Rat} (h : Scalar.lt x y = true) :
    Scalar.eq (y - x) Scalar.zero = false := by
  have hlt : x < y := by simpa using h
  have hne : y - x ≠ 0 := by linarith
  simpa using hne

open Curve in
/-- Curves of doubles answer every query from a point or from the line between two, and wrongly
read nothing; in exact arithmetic they are the broken lines through their points. -/
theorem valueAt_is_broken_line :
    (∀ search, FindsPlaces search → ∀ calls : List (Float × Float),
      (∀ p ∈ calls, p.1.isFinite = true ∧ p.2.isFinite = true) → ∀ x,
        AnswersAt search (calls.foldl (fun t p => t.add search p.1 p.2) Columns.empty)
          (Curve.empty.addAll calls).value x) ∧
      ∀ calls : List (Rat × Rat),
        let c := (Curve.empty.addAll calls).value
        (∀ search, FindsPlaces search → ∀ x,
          AnswersAt search (calls.foldl (fun t p => t.add search p.1 p.2) Columns.empty) c x) ∧
        (∀ low high, c.Neighbours low high → ∀ x ∈ Set.Icc low.x high.x,
          ∃ y ∈ Set.Icc (min low.y high.y) (max low.y high.y), c.valueAt x = some y ∧
            (y - low.y) * (high.x - low.x) = (high.y - low.y) * (x - low.x)) ∧
        ∀ f, BrokenLine c f ↔ ∀ x, ¬c.Outside x → c.valueAt x = some (f x) := by
  constructor
  · intro search hsearch calls hcalls x
    exact answersAt_addAll (fun _ _ => width_ne_zero) hsearch
      (fun p hp => isNaN_of_isFinite (hcalls p hp).1) x
  · intro calls c
    have hc : c.Ascending := ascending_empty.addAll fun p _ => rfl
    refine ⟨fun search hsearch x => ?_, fun low high hnext x hx => ?_, brokenLine_iff hc⟩
    · exact answersAt_addAll (fun _ _ => width_ne_zero_rat) hsearch (fun p _ => rfl) x
    · have hlt := hnext.lt_rat hc
      refine ⟨between low high x, ?_, valueAt_of_mem_Icc hc hnext hx, ?_⟩
      · exact between_mem_Icc hlt hx ⟨min_le_left _ _, le_max_left _ _⟩
          ⟨min_le_right _ _, le_max_right _ _⟩
      · have hwidth : high.x - low.x ≠ 0 := by linarith
        rw [between]
        field_simp
        ring

/-- Read in the middle of its second segment, with numbers of either kind. -/
theorem valueAt_is_broken_line_three_points :
    (([(50, 0.25), (0, 0), (100, 0.75)] : List (Float × Float)).foldl
        (fun t p => t.add countLess p.1 p.2) Columns.empty).value countLess 75 = .ok (some 0.5) ∧
    ∀ f, Curve.BrokenLine (Curve.empty.addAll [(50, 1 / 4), (0, 0), (100, 3 / 4)]).value f →
      f 75 = 1 / 2 := by
  obtain ⟨hdoubles, hexact⟩ := valueAt_is_broken_line
  constructor
  · rw [(hdoubles _ findsPlaces_countLess _ (by decide) 75).columns]
    rfl
  · intro f hf
    have hvalue : (Curve.empty.addAll [(50, 1 / 4), (0, 0), (100, 3 / 4)]).value.valueAt
        (75 : Rat) = some (1 / 2) := by
      decide +kernel
    have hin : ¬(Curve.empty.addAll [(50, 1 / 4), (0, 0), (100, 3 / 4)]).value.Outside
        (75 : Rat) := by
      intro hout
      rw [Curve.valueAt_of_outside hout] at hvalue
      cases hvalue
    rw [((hexact _).2.2 f).1 hf 75 hin, Option.some_inj] at hvalue
    exact hvalue

end Macc
