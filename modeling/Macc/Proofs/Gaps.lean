import Macc.Proofs.Double.Overflow
import Macc.Proofs.PointForms
import Macc.Proofs.ReductionSign

/-!
# Where a curve answers with no number

Points may be given at any double, so also at the infinities and at what is no
number. Adding them sorts them all the same: the numbers ascend, and what is no
number comes after them. A query then still divides the points in those before
it and those that are not, and the answer is decided at the division.

With values from zero to one and a query that is a finite price, two things can
go wrong there. The point behind the division may stand at no number, because
the price is beyond all points that stand at one; then the line to it is no
number. Or the point before it is infinitely far away, at negative infinity or so
low that the distance overflows; then the width of the segment is infinite as
well, and the line divides infinity by infinity. Everywhere else the answer is a
number. Neither case is reported, as nothing is that has an answer.
-/

namespace Macc

namespace Curve

/-! ## Points without a number -/

section

variable {α : Type} [Scalar α]

/-- Whether the points of a curve ascend as far as they stand at numbers, and the others come after
them. -/
def Climbing (points : List (ControlPoint α)) : Prop :=
  points.Pairwise fun p q => Scalar.lt p.x q.x = true ∨ Scalar.isNaN q.x = true

variable [Ranked α] {points : List (ControlPoint α)}

theorem Climbing.insertPoint (h : Climbing points) (x y : α) :
    Climbing (insertPoint x y points) := by
  induction points with
  | nil => exact List.pairwise_singleton _ _
  | cons p rest ih =>
      obtain ⟨hfirst, hrest⟩ := List.pairwise_cons.1 h
      rw [Curve.insertPoint]
      split
      · next hp =>
          refine List.pairwise_cons.2 ⟨fun q hq => ?_, ih hrest⟩
          rcases mem_insertPoint hq with hx | ⟨r, hr, hx⟩
          · rw [hx]
            rw [precedes, Bool.or_eq_true, Bool.and_eq_true] at hp
            exact hp.imp_right And.left
          · rw [hx]
            exact hfirst r hr
      · next hp =>
          rw [Bool.not_eq_true, precedes, Bool.or_eq_false_iff] at hp
          split
          · exact List.pairwise_cons.2 ⟨hfirst, hrest⟩
          · next heq =>
              refine List.pairwise_cons.2 ⟨fun q hq => ?_, h⟩
              cases hnan : Scalar.isNaN p.x with
              | true =>
                  -- behind what is no number there are no numbers
                  rcases List.mem_cons.1 hq with rfl | hq
                  · exact .inr hnan
                  · exact .inr ((hfirst q hq).resolve_left (Ranked.not_lt_of_isNaN (.inl hnan)))
              | false =>
                  have hx : Scalar.isNaN x = false := by
                    have hboth := hp.2
                    rwa [hnan, Bool.not_false, Bool.and_true] at hboth
                  have hlt : Scalar.lt x p.x = true :=
                    Ranked.lt_of_not_lt_of_not_eq hnan hx (by rw [hp.1]; decide) heq
                  rcases List.mem_cons.1 hq with rfl | hq
                  · exact .inl hlt
                  · exact (hfirst q hq).imp_left (Ranked.lt_trans hlt)

/-- However points are added, they climb. -/
theorem climbing_addAll (pairs : List (α × α)) : Climbing (empty.addAll pairs).value.points := by
  have hfold : ∀ c : Curve α, Climbing c.points →
      Climbing (pairs.foldl (fun c p => c.insert p.1 p.2) c).points := by
    induction pairs with
    | nil => exact fun c hc => hc
    | cons p rest ih => exact fun c hc => ih (c.insert p.1 p.2) (hc.insertPoint p.1 p.2)
  rw [value_addAll]
  exact hfold empty List.Pairwise.nil

/-- Behind a point without a number there is no number. -/
theorem Climbing.isNaN_of_isNaN {p q : ControlPoint α} {before after : List (ControlPoint α)}
    (h : Climbing (before ++ p :: after)) (hp : Scalar.isNaN p.x = true) (hq : q ∈ after) :
    Scalar.isNaN q.x = true := by
  have hafter := (List.pairwise_cons.1 (List.pairwise_append.1 h).2.1).1 q hq
  exact hafter.resolve_left (Ranked.not_lt_of_isNaN (.inl hp))

/-- If any point stands at no number, the last one does. -/
theorem Climbing.isNaN_last {last p : ControlPoint α} (h : Climbing points)
    (hlast : points.getLast? = some last) (hp : p ∈ points) (hnan : Scalar.isNaN p.x = true) :
    Scalar.isNaN last.x = true := by
  obtain ⟨before, after, rfl⟩ := List.append_of_mem hp
  rcases List.eq_nil_or_concat after with rfl | ⟨init, q, rfl⟩
  · rw [List.getLast?_append, List.getLast?_singleton] at hlast
    cases hlast
    exact hnan
  · have hq : last = q := by
      rw [List.concat_eq_append, ← List.cons_append, ← List.append_assoc,
        List.getLast?_concat] at hlast
      exact (Option.some_inj.1 hlast).symm
    exact h.isNaN_of_isNaN hnan (by rw [hq, List.concat_eq_append]; simp)

omit [Ranked α] in
theorem Climbing.ascending {c : Curve α} (h : Climbing c.points) (hn : c.Numeric) :
    c.Ascending where
  numeric := hn
  sorted := by
    refine List.Pairwise.imp_of_mem ?_ h
    intro p q _ hq hor
    rwa [hn q hq, or_iff_left Bool.false_ne_true] at hor

theorem Climbing.not_lt_of_mem_dropWhile (h : Climbing points) (x : α) :
    ∀ p ∈ points.dropWhile (fun p => Scalar.lt p.x x), Scalar.lt p.x x = false := by
  induction points with
  | nil => exact fun p hp => by cases hp
  | cons first rest ih =>
      obtain ⟨hfirst, hrest⟩ := List.pairwise_cons.1 h
      rw [List.dropWhile_cons]
      split
      · exact ih hrest
      · next hnot =>
          intro p hp
          rcases List.mem_cons.1 hp with rfl | hp
          · exact Bool.eq_false_iff.2 hnot
          · rcases hfirst p hp with hlt | hnan
            · exact Bool.eq_false_iff.2 fun hpx => hnot (Ranked.lt_trans hlt hpx)
            · exact Bool.eq_false_iff.2 (Ranked.not_lt_of_isNaN (.inl hnan))

theorem Climbing.exists_divided {c : Curve α} (h : Climbing c.points) (x : α) :
    ∃ before after, c.Divided x before after :=
  ⟨c.points.takeWhile fun p => Scalar.lt p.x x, c.points.dropWhile fun p => Scalar.lt p.x x,
    (List.takeWhile_append_dropWhile).symm, List.all_eq_true.1 List.all_takeWhile,
    h.not_lt_of_mem_dropWhile x⟩

/-- A query divides the points between two neighbours on its two sides. -/
theorem Climbing.divided {c : Curve α} (h : Climbing c.points) {low high : ControlPoint α}
    (hnext : c.Neighbours low high) {x : α} (hlow : Scalar.lt low.x x = true)
    (hhigh : Scalar.lt x high.x = true) :
    ∃ before after, c.Divided x (before ++ [low]) (high :: after) := by
  obtain ⟨before, after, hpoints⟩ := hnext.exists_append
  refine ⟨before, after, hpoints, fun p hp => ?_, fun p hp => ?_⟩
  · rw [hpoints] at h
    rcases List.mem_append.1 hp with hp | hp
    · have hnumber : Scalar.isNaN low.x = false := ((Ranked.lt_iff _ _).1 hlow).1
      have hbelow := (List.pairwise_append.1 (List.pairwise_append.1 h).1).2.2 p hp low (by simp)
      rw [hnumber, or_iff_left Bool.false_ne_true] at hbelow
      exact Ranked.lt_trans hbelow hlow
    · rw [List.mem_singleton.1 hp]
      exact hlow
  · rw [hpoints] at h
    rcases List.mem_cons.1 hp with rfl | hp
    · exact Bool.eq_false_iff.2 (Ranked.not_lt_of_lt hhigh)
    · rcases (List.pairwise_cons.1 (List.pairwise_append.1 h).2.1).1 p hp with hlt | hnan
      · exact Bool.eq_false_iff.2 (Ranked.not_lt_of_lt (Ranked.lt_trans hhigh hlt))
      · exact Bool.eq_false_iff.2 (Ranked.not_lt_of_isNaN (.inl hnan))

omit [Ranked α] in
/-- What is answered inside is decided by the first point that is not before the query. -/
theorem Divided.valueAt {c : Curve α} {x : α} {before after : List (ControlPoint α)}
    (h : c.Divided x before after) (hout : ¬c.Outside x) :
    ∃ p rest last, after = p :: rest ∧ c.valueAt x = some
      (if Scalar.eq p.x x then p.y else between ((before.getLast?).getD last) p x) := by
  rcases c.eq_nil_or_exists_ends with hnil | ⟨first, last, hfirst, hlast⟩
  · exact absurd (.inl hnil) hout
  have hends := mt (outside_iff hfirst hlast x).2 hout
  rw [valueAt_of_ends hfirst hlast, if_neg hends, h.points_eq, valueAfter_append h.below]
  simp only [Bool.or_eq_true, not_or, Bool.not_eq_true] at hends
  cases after with
  | nil =>
      -- the last point is not before the query
      have hmem := List.mem_of_getLast? hlast
      rw [h.points_eq, List.append_nil] at hmem
      rw [h.below last hmem] at hends
      cases hends.2
  | cons p rest =>
      refine ⟨p, rest, last, rfl, ?_⟩
      rw [valueAfter, precedes_eq_lt hends.1.1, h.not_below p List.mem_cons_self,
        if_neg Bool.false_ne_true]
      split <;> rfl

end

/-! ## Answers that are no number -/

/-- Between two values from zero to one a line is no number exactly where the way from the lower
point overflows. -/
theorem isNaN_between_iff {low high : ControlPoint Float} {x : Float}
    (hlow : Scalar.lt low.x x = true) (hhigh : Scalar.lt x high.x = true)
    (hzero : 0 ≤ low.y ∧ 0 ≤ high.y) (hone : low.y ≤ 1 ∧ high.y ≤ 1) :
    (between low high x).isNaN = true ↔ (x - low.x).isInf = true := by
  have hwidth : Scalar.lt Scalar.zero (high.x - low.x) = true :=
    zero_lt_sub (Ranked.lt_trans hlow hhigh)
  have hpassed := zero_lt_sub hlow
  constructor
  · intro hnan
    by_contra hinf
    have hnumber : (x - low.x).isNaN = false := ((Ranked.lt_iff _ _).1 hpassed).2.1
    have hfinite : (x - low.x).isFinite = true :=
      isFinite_iff.2 ⟨hnumber, Bool.eq_false_iff.2 hinf⟩
    obtain ⟨hrise, hbound⟩ := unitCount_sub_of_mem_Icc hzero hone
    have hpart := isFinite_mul_of_unitCount_le hrise hbound hfinite
    have hvalue := isNaN_add_of_isFinite (units_of_mem_Icc hzero.1 hone.1).1
      (isNaN_div_of_isFinite hpart hwidth)
    rw [between, hvalue] at hnan
    cases hnan
  · intro hinf
    have hpart := not_isFinite_mul_of_isInf (high.y - low.y) hinf
    have hquotient := isNaN_div_of_isInf hpart (isInf_sub_mono hlow hhigh hinf)
    exact (isNaN_of_operand low.y hquotient).1

/-- Whether a query is beyond all numbers at which points stand, and there are others. -/
def BeyondNumbers (c : Curve Float) (x : Float) : Prop :=
  (∃ p ∈ c.points, p.x.isNaN = true) ∧
    ∀ p ∈ c.points, p.x.isNaN = true ∨ Scalar.lt p.x x = true

/-- Whether a query is between two points and infinitely far from the lower one. -/
def FarFromLower (c : Curve Float) (x : Float) : Prop :=
  ∃ low high, c.Neighbours low high ∧ Scalar.lt low.x x = true ∧ Scalar.lt x high.x = true ∧
    (x - low.x).isInf = true

variable {c : Curve Float} {x : Float}

/-- Both are queries to which the curve has an answer. -/
theorem Climbing.not_outside (hc : Climbing c.points) (hx : x.isNaN = false)
    (h : c.BeyondNumbers x ∨ c.FarFromLower x) : ¬c.Outside x := by
  rcases c.eq_nil_or_exists_ends with hnil | ⟨first, last, hfirst, hlast⟩
  · rcases h with ⟨⟨p, hp, -⟩, -⟩ | ⟨low, high, hnext, -, -, -⟩
    · rw [hnil] at hp
      cases hp
    · have hmem := hnext.mem.1
      rw [hnil] at hmem
      cases hmem
  have hmemFirst := List.mem_of_mem_head? hfirst
  have hmemLast := List.mem_of_getLast? hlast
  rw [outside_iff hfirst hlast]
  change ¬(x.isNaN || _ || _) = true
  rw [hx, Bool.false_or, Bool.or_eq_true, not_or]
  rcases h with ⟨⟨p, hp, hnan⟩, hnumbers⟩ | ⟨low, high, hnext, hlow, hhigh, -⟩
  · constructor
    · rcases hnumbers first hmemFirst with hfirst | hfirst
      · exact Ranked.not_lt_of_isNaN (.inr hfirst)
      · exact Ranked.not_lt_of_lt hfirst
    · exact Ranked.not_lt_of_isNaN (.inl (hc.isNaN_last hlast hp hnan))
  · obtain ⟨before, after, hdiv⟩ := hc.divided hnext hlow hhigh
    have hbefore : first ∈ before ++ [low] := by
      refine List.mem_of_mem_head? ?_
      rw [hdiv.points_eq, List.head?_append_of_ne_nil _ (by simp)] at hfirst
      exact hfirst
    have hafter : last ∈ high :: after := by
      refine List.mem_of_getLast? ?_
      rw [hdiv.points_eq, List.getLast?_append_of_ne_nil _ (by simp)] at hlast
      exact hlast
    rw [hdiv.not_below last hafter]
    exact ⟨Ranked.not_lt_of_lt (hdiv.below first hbefore), Bool.false_ne_true⟩

section

variable {before rest : List (ControlPoint Float)} {p : ControlPoint Float}

/-- Whether a query is beyond all numbers shows at the first point that is not before it. -/
theorem Climbing.beyondNumbers_iff (hc : Climbing c.points)
    (hdiv : c.Divided x before (p :: rest)) : c.BeyondNumbers x ↔ p.x.isNaN = true := by
  constructor
  · rintro ⟨-, hall⟩
    refine (hall p hdiv.mem).resolve_right ?_
    rw [hdiv.not_below p List.mem_cons_self]
    exact Bool.false_ne_true
  · intro hnan
    refine ⟨⟨p, hdiv.mem, hnan⟩, fun q hq => ?_⟩
    rw [hdiv.points_eq] at hq hc
    rcases List.mem_append.1 hq with hq | hq
    · exact .inr (hdiv.below q hq)
    · rcases List.mem_cons.1 hq with rfl | hq
      · exact .inl hnan
      · exact .inl (hc.isNaN_of_isNaN hnan hq)

/-- Whether a query is infinitely far from the point below it shows at the last point before it. -/
theorem Climbing.farFromLower_iff (hc : Climbing c.points)
    (hdiv : c.Divided x before (p :: rest)) : c.FarFromLower x ↔
      ∃ low, before.getLast? = some low ∧ Scalar.lt x p.x = true ∧
        (x - low.x).isInf = true := by
  constructor
  · rintro ⟨low, high, hnext, hlow, hhigh, hinf⟩
    obtain ⟨init, tail, hdiv'⟩ := hc.divided hnext hlow hhigh
    obtain ⟨rfl, hafter⟩ := hdiv.unique hdiv'
    cases hafter
    exact ⟨low, List.getLast?_concat, hhigh, hinf⟩
  · rintro ⟨low, hlast, hhigh, hinf⟩
    obtain ⟨init, rfl⟩ := List.getLast?_eq_some_iff.1 hlast
    obtain ⟨hnext, hlow⟩ := hdiv.neighbours
    exact ⟨low, p, hnext, hlow, hhigh, hinf⟩

end

/-- A climbing curve of values from zero to one answers with what is no number where it has only
points without a number left, and where a line begins infinitely far away. -/
theorem Climbing.isNaN_valueAt_iff (hc : Climbing c.points)
    (hvalues : ∀ p ∈ c.points, 0 ≤ p.y ∧ p.y ≤ 1) (hx : x.isNaN = false) :
    ((c.valueAt x).getD Scalar.zero).isNaN = true ↔ c.BeyondNumbers x ∨ c.FarFromLower x := by
  by_cases hout : c.Outside x
  · rw [valueAt_of_outside hout]
    exact iff_of_false (by decide +kernel) fun h => hc.not_outside hx h hout
  obtain ⟨before, after, hdiv⟩ := hc.exists_divided x
  obtain ⟨p, rest, last, rfl, hvalue⟩ := hdiv.valueAt hout
  have hp := hdiv.not_below p List.mem_cons_self
  rw [hvalue, Option.getD_some, hc.beyondNumbers_iff hdiv, hc.farFromLower_iff hdiv]
  split
  · next heq =>
      obtain ⟨hnumber, -, -⟩ := (Ranked.eq_iff _ _).1 heq
      have hy := hvalues p hdiv.mem
      rw [isNaN_of_isFinite (units_of_mem_Icc hy.1 hy.2).1]
      refine iff_of_false Bool.false_ne_true ?_
      rintro (hnan | ⟨low, -, hhigh, -⟩)
      · exact Bool.false_ne_true (hnumber.symm.trans hnan)
      · exact Ranked.not_eq_of_lt hhigh heq
  · next hne =>
      cases hnan : p.x.isNaN with
      | true => exact iff_of_true (isNaN_between hnan x) (.inl rfl)
      | false =>
          have hhigh : Scalar.lt x p.x = true :=
            Ranked.lt_of_not_lt_of_not_eq hnan hx (by rw [hp]; decide) hne
          obtain ⟨init, low, rfl⟩ : ∃ init low, before = init ++ [low] := by
            rcases List.eq_nil_or_concat before with rfl | ⟨init, low, rfl⟩
            · refine absurd (.inr (.inr (.inl ⟨p.x, ?_, hhigh⟩))) hout
              rw [minX?, hdiv.points_eq]
              rfl
            · exact ⟨init, low, List.concat_eq_append⟩
          obtain ⟨hnext, hlow⟩ := hdiv.neighbours
          obtain ⟨hmemLow, hmemHigh⟩ := hnext.mem
          rw [List.getLast?_concat, Option.getD_some,
            isNaN_between_iff hlow hhigh ⟨(hvalues low hmemLow).1, (hvalues p hmemHigh).1⟩
              ⟨(hvalues low hmemLow).2, (hvalues p hmemHigh).2⟩]
          constructor
          · exact fun hinf => .inr ⟨low, rfl, hhigh, hinf⟩
          · rintro (h | ⟨_, hlast, -, hinf⟩)
            · cases h
            · cases hlast
              exact hinf

end Curve

namespace Strategy

/-- The curve of a strategy that is read answers a finite price with what is no number in two cases:
where it has only points without a number left, and where the price is infinitely far from the next
point below it. -/
theorem reductionAt_isNaN_iff {s t : Strategy Float} {items : List Value}
    (hparse : (s.parse items).outcome = .ok t)
    (hvalues : ∀ p ∈ t.curve.points, 0 ≤ p.y ∧ p.y ≤ 1) {price : Float}
    (hprice : price.isFinite = true) :
    (t.reductionAt price).value.isNaN = true ↔
      t.curve.BeyondNumbers price ∨ t.curve.FarFromLower price := by
  have hclimbs : Curve.Climbing t.curve.points := by
    rw [(says_of_parse hparse).curve]
    exact Curve.climbing_addAll _
  have hsame := hclimbs.isNaN_valueAt_iff hvalues (isNaN_of_isFinite hprice)
  rw [value_reductionAt, cappedPrice]
  cases htop : t.curve.maxX? with
  | none => exact hsame
  | some top =>
      dsimp only
      rw [Scalar.smaller]
      split
      · next hlt =>
          obtain ⟨last, hlast, rfl⟩ := Option.map_eq_some_iff.1 htop
          have hmem := List.mem_of_getLast? hlast
          have hnumber : last.x.isNaN = false := ((Ranked.lt_iff _ _).1 hlt).1
          have hnumeric : t.curve.Numeric := by
            intro p hp
            rw [← Bool.not_eq_true]
            intro hnan
            have hother : last.x.isNaN = true := hclimbs.isNaN_last hlast hp hnan
            rw [hnumber] at hother
            cases hother
          have hascends : t.curve.Ascending := hclimbs.ascending hnumeric
          have hv := isNaN_of_isFinite
            (units_of_mem_Icc (hvalues last hmem).1 (hvalues last hmem).2).1
          rw [hascends.valueAt_point hmem (Ranked.eq_refl hnumber), Option.getD_some, hv]
          refine iff_of_false Bool.false_ne_true ?_
          rintro (⟨⟨p, hp, hnan⟩, -⟩ | ⟨low, high, hnext, -, hhigh, -⟩)
          · have hnot : p.x.isNaN = false := hnumeric p hp
            rw [hnot] at hnan
            cases hnan
          · obtain ⟨first, hfirst⟩ : ∃ first, t.curve.points.head? = some first := by
              rcases t.curve.eq_nil_or_exists_ends with hnil | ⟨first, -, hfirst, -⟩
              · rw [hnil] at hmem
                cases hmem
              · exact ⟨first, hfirst⟩
            exact (hascends.not_lt_ends hfirst hlast hnext.mem.2).2 (Ranked.lt_trans hlt hhigh)
      · exact hsame

/-- Fields of the points `(0, 0)` and `(x, 1 / 2)`. -/
def twoPoints (x : Float) : List Value :=
  [fieldItem "reduction" (.list [.list [.float 0, .float 0], .list [.float x, .float 0.5]])]

theorem outcome_parse_twoPoints (s : Strategy Float) (x : Float) :
    (s.parse (twoPoints x)).outcome =
      .ok { s with curve := (Curve.empty.addAll [(0, 0), (x, 0.5)]).value } := by
  have hname : Field.namesPoints "reduction" = true := by decide +kernel
  exact outcome_parse_of_writesField s (.cons (writesField_fieldItem hname
    (.many (.cons (.pair rfl rfl) (.cons (.pair rfl rfl) .nil)))) .nil)

/-- A point at infinity is neither of the two cases: the price is five away from the lower point. -/
theorem reductionAt_isNaN_iff_twoPoints :
    ∃ t, ((fresh threeYears "MAC").parse (twoPoints (1 / 0))).outcome = .ok t ∧
      (∀ p ∈ t.curve.points, 0 ≤ p.y ∧ p.y ≤ 1) ∧ (5 : Float).isFinite = true ∧
      (t.reductionAt 5).value.isNaN = false := by
  have hparse := outcome_parse_twoPoints (fresh threeYears "MAC") (1 / 0)
  obtain ⟨c, hc⟩ : ∃ c : Curve Float, c = (Curve.empty.addAll [(0, 0), (1 / 0, 0.5)]).value :=
    ⟨_, rfl⟩
  have hpoints : c.points = [⟨0, 0⟩, ⟨1 / 0, 0.5⟩] := by
    rw [hc]
    decide +kernel
  have hvalues : ∀ p ∈ c.points, 0 ≤ p.y ∧ p.y ≤ 1 := by
    rw [hpoints]
    decide +kernel
  have hfinite : (5 : Float).isFinite = true := by decide +kernel
  rw [← hc] at hparse
  refine ⟨_, hparse, hvalues, hfinite, ?_⟩
  rw [← Bool.not_eq_true, reductionAt_isNaN_iff hparse hvalues hfinite]
  rintro (⟨⟨p, hp, hnan⟩, -⟩ | ⟨low, high, hnext, -, -, hinf⟩)
  · dsimp only at hp
    rw [hpoints] at hp
    have hnumbers : ∀ p ∈ [(⟨0, 0⟩ : ControlPoint Float), ⟨1 / 0, 0.5⟩], p.x.isNaN = false := by
      decide +kernel
    rw [hnumbers p hp] at hnan
    cases hnan
  · rw [Curve.Neighbours] at hnext
    dsimp only at hnext
    rw [hpoints] at hnext
    cases hnext.eq_of_length rfl
    exact absurd hinf (by decide +kernel)

/-- Behind the last number a point without a number leaves no number, and no report. -/
theorem reductionAt_isNaN_twoPoints :
    ∃ t, ((fresh threeYears "MAC").parse (twoPoints (0 / 0))).outcome = .ok t ∧
      (∀ p ∈ t.curve.points, 0 ≤ p.y ∧ p.y ≤ 1) ∧ (5 : Float).isFinite = true ∧
      (t.reductionAt 5).value.isNaN = true ∧ (t.reductionAt 5).log = [] := by
  refine ⟨_, outcome_parse_twoPoints _ _, ?_, ?_, ?_, List.eq_nil_of_length_eq_zero ?_⟩ <;>
    decide +kernel

end Strategy

end Macc
