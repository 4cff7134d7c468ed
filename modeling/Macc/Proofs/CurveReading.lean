import Macc.Proofs.CurveOrder

/-!
# Where a curve is read

A query divides the points of an ascending curve in two: those that stand before
it and those that do not. The walk over the points passes the first part and
stops at the head of the second, so everything that a curve is asked or told
happens at that one division. A value is the one of the point there or lies on
the line that ends there, and a new point is put there.

The line needs a point to begin at. The walk starts behind the last point as if
the curve were closed, and what keeps it from ever using that start is that a
query is not before the first point: so the first part is not empty unless the
query stands at a point.
-/

namespace Macc.Curve

variable {α : Type} [Scalar α]

/-! ## The division at a query -/

theorem insertPoint_append {x : α} (y : α) {before : List (ControlPoint α)}
    (h : ∀ p ∈ before, Scalar.lt p.x x = true) (after : List (ControlPoint α)) :
    insertPoint x y (before ++ after) = before ++ insertPoint x y after := by
  induction before with
  | nil => rfl
  | cons p rest ih =>
      have hp : precedes p.x x = true := by
        rw [precedes, h p (by simp), Bool.true_or]
      rw [List.cons_append, insertPoint, if_pos hp, ih fun q hq => h q (by simp [hq])]
      rfl

theorem pointAt?_append {x : α} {before : List (ControlPoint α)}
    (h : ∀ p ∈ before, Scalar.lt p.x x = true) (after : List (ControlPoint α)) :
    pointAt? x (before ++ after) = pointAt? x after := by
  induction before with
  | nil => rfl
  | cons p rest ih =>
      have hp : precedes p.x x = true := by
        rw [precedes, h p (by simp), Bool.true_or]
      rw [List.cons_append, pointAt?, if_pos hp]
      exact ih fun q hq => h q (by simp [hq])

/-- The walk arrives at the division with the last point that it has passed. -/
theorem valueAfter_append {x : α} {before : List (ControlPoint α)}
    (h : ∀ p ∈ before, Scalar.lt p.x x = true) (previous : ControlPoint α)
    (after : List (ControlPoint α)) :
    valueAfter x previous (before ++ after) =
      valueAfter x ((before.getLast?).getD previous) after := by
  induction before generalizing previous with
  | nil => rfl
  | cons p rest ih =>
      have hp : precedes p.x x = true := by
        rw [precedes, h p (by simp), Bool.true_or]
      rw [List.cons_append, valueAfter, if_pos hp, ih (fun q hq => h q (by simp [hq])),
        List.getLast?_cons]
      rfl

/-- The points of a curve on the two sides of a query. -/
structure Divided (c : Curve α) (x : α) (before after : List (ControlPoint α)) : Prop where
  points_eq : c.points = before ++ after
  below : ∀ p ∈ before, Scalar.lt p.x x = true
  not_below : ∀ p ∈ after, Scalar.lt p.x x = false

/-- A query divides the points in one way. -/
theorem Divided.before_eq {c : Curve α} {x : α} {before after : List (ControlPoint α)}
    (h : c.Divided x before after) :
    before = c.points.takeWhile fun p => Scalar.lt p.x x := by
  rw [h.points_eq, List.takeWhile_append_of_pos h.below]
  match after, h.not_below with
  | [], _ => rw [List.takeWhile_nil, List.append_nil]
  | p :: rest, hnot =>
      rw [List.takeWhile_cons, hnot p (by simp), if_neg Bool.false_ne_true, List.append_nil]

theorem Divided.unique {c : Curve α} {x : α} {before after before' after' : List (ControlPoint α)}
    (h : c.Divided x before after) (h' : c.Divided x before' after') :
    before = before' ∧ after = after' := by
  have hbefore : before = before' := h.before_eq.trans h'.before_eq.symm
  subst hbefore
  exact ⟨rfl, List.append_cancel_left (h.points_eq.symm.trans h'.points_eq)⟩

/-! ## What a query answers -/

/-- A query has no answer without points, when it is no number, and beyond either end. -/
def Outside (c : Curve α) (x : α) : Prop :=
  c.points = [] ∨ Scalar.isNaN x = true ∨
    (∃ bottom, c.minX? = some bottom ∧ Scalar.lt x bottom = true) ∨
    ∃ top, c.maxX? = some top ∧ Scalar.lt top x = true

/-- How a curve answers a query: not at all, by a point, or by the line between two neighbours. -/
inductive Answer (c : Curve α) (x : α) : Option α → Prop where
  | none (h : c.Outside x) : Answer c x none
  | point {before after : List (ControlPoint α)} {p : ControlPoint α}
      (h : c.Divided x before (p :: after)) (hp : Scalar.eq p.x x = true) : Answer c x (some p.y)
  | line {before after : List (ControlPoint α)} {low high : ControlPoint α}
      (h : c.Divided x (before ++ [low]) (high :: after)) (hhigh : Scalar.lt x high.x = true) :
      Answer c x (some (between low high x))

omit [Scalar α] in
theorem eq_nil_or_exists_ends (c : Curve α) :
    c.points = [] ∨ ∃ first last, c.points.head? = some first ∧ c.points.getLast? = some last := by
  match c.points with
  | [] => exact .inl rfl
  | first :: rest => exact .inr ⟨first, _, rfl, List.getLast?_cons⟩

/-- With points, a query is outside if it passes the test at the two ends. -/
theorem outside_iff {c : Curve α} {first last : ControlPoint α}
    (hfirst : c.points.head? = some first) (hlast : c.points.getLast? = some last) (x : α) :
    c.Outside x ↔
      (Scalar.isNaN x || Scalar.lt x first.x || Scalar.lt last.x x) = true := by
  have hsome : c.points ≠ [] := by
    rintro h
    rw [h] at hfirst
    cases hfirst
  simp [Outside, minX?, maxX?, hfirst, hlast, hsome, or_assoc]

theorem valueAt_of_ends {c : Curve α} {first last : ControlPoint α}
    (hfirst : c.points.head? = some first) (hlast : c.points.getLast? = some last) (x : α) :
    c.valueAt x =
      if Scalar.isNaN x || Scalar.lt x first.x || Scalar.lt last.x x then none
      else valueAfter x last c.points := by
  obtain ⟨points⟩ := c
  match points with
  | [] => cases hfirst
  | p :: rest =>
      cases hfirst
      rw [valueAt, hlast]

theorem valueAt_of_outside {c : Curve α} {x : α} (h : c.Outside x) : c.valueAt x = none := by
  rcases c.eq_nil_or_exists_ends with hnil | ⟨first, last, hfirst, hlast⟩
  · obtain ⟨points⟩ := c
    cases hnil
    rfl
  · rw [valueAt_of_ends hfirst hlast, if_pos ((outside_iff hfirst hlast x).1 h)]

/-- Behind a point that the query is beyond, a value is that of a point or lies on the line between
two that follow each other. -/
theorem valueAfter_eq_some {x : α} {previous : ControlPoint α} {points : List (ControlPoint α)}
    {v : α} (hprevious : precedes previous.x x = true)
    (h : valueAfter x previous points = some v) :
    (∃ p ∈ points, v = p.y) ∨ ∃ low high, [low, high] <:+: previous :: points ∧
      precedes low.x x = true ∧ precedes high.x x = false ∧ Scalar.eq high.x x = false ∧
        v = between low high x := by
  induction points generalizing previous with
  | nil => cases h
  | cons p rest ih =>
      rw [valueAfter] at h
      split at h
      · next hp =>
          rcases ih hp h with ⟨q, hq, hv⟩ | ⟨low, high, hnext, hline⟩
          · exact .inl ⟨q, List.mem_cons_of_mem p hq, hv⟩
          · exact .inr ⟨low, high, hnext.trans (List.suffix_cons _ _).isInfix, hline⟩
      · next hp =>
          split at h
          · cases h
            exact .inl ⟨p, List.mem_cons_self, rfl⟩
          · next hne =>
              cases h
              exact .inr ⟨previous, p, ⟨[], rest, rfl⟩, hprevious, by simpa using hp,
                by simpa using hne, rfl⟩

/-- Two points of a curve, one right after the other. -/
def Neighbours (c : Curve α) (low high : ControlPoint α) : Prop :=
  [low, high] <:+: c.points

theorem Divided.mem {c : Curve α} {x : α} {before after : List (ControlPoint α)}
    {p : ControlPoint α} (h : c.Divided x before (p :: after)) : p ∈ c.points := by
  rw [h.points_eq]
  simp

/-- The points around a query stand next to each other, and the first of them is before it. -/
theorem Divided.neighbours {c : Curve α} {x : α} {before after : List (ControlPoint α)}
    {low high : ControlPoint α} (h : c.Divided x (before ++ [low]) (high :: after)) :
    c.Neighbours low high ∧ Scalar.lt low.x x = true := by
  refine ⟨⟨before, after, ?_⟩, h.below low (by simp)⟩
  rw [h.points_eq]
  simp

/-- Where the values of a curve come from, whether or not its points ascend. The last case is that
of a first point without a number. -/
theorem valueAt_eq_some {c : Curve α} {x v : α} (h : c.valueAt x = some v) :
    (∃ p ∈ c.points, v = p.y) ∨
      (∃ low high, c.Neighbours low high ∧ Scalar.lt low.x x = true ∧
        Scalar.lt high.x x = false ∧ Scalar.eq high.x x = false ∧ v = between low high x) ∨
      ∃ first last, Scalar.isNaN x = false ∧ Scalar.lt first.x x = false ∧
        Scalar.lt x first.x = false ∧ Scalar.eq first.x x = false ∧ v = between last first x := by
  rcases c.eq_nil_or_exists_ends with hnil | ⟨first, last, hfirst, hlast⟩
  · rw [valueAt_of_outside (.inl hnil)] at h
    cases h
  rw [valueAt_of_ends hfirst hlast] at h
  split at h
  · cases h
  next hends =>
  simp only [Bool.or_eq_true, not_or, Bool.not_eq_true] at hends
  obtain ⟨⟨hx, hbottom⟩, -⟩ := hends
  obtain ⟨rest, hrest⟩ := List.head?_eq_some_iff.1 hfirst
  rw [hrest, valueAfter] at h
  split at h
  · next hlt =>
      rcases valueAfter_eq_some hlt h with ⟨p, hp, hv⟩ | ⟨low, high, hnext, hlow, hhigh, hne, hv⟩
      · exact .inl ⟨p, by rw [hrest]; exact List.mem_cons_of_mem first hp, hv⟩
      · rw [precedes_eq_lt hx] at hlow hhigh
        exact .inr (.inl ⟨low, high, by rw [Neighbours, hrest]; exact hnext, hlow, hhigh, hne, hv⟩)
  · next hlt =>
      split at h
      · cases h
        exact .inl ⟨first, by rw [hrest]; exact List.mem_cons_self, rfl⟩
      · next hne =>
          cases h
          rw [precedes_eq_lt hx] at hlt
          exact .inr (.inr ⟨first, last, hx, by simpa using hlt, hbottom, by simpa using hne, rfl⟩)

variable [Ranked α]

/-- Where ascending items are not below a query any more, they stay so. -/
theorem not_lt_of_mem_dropWhile {β : Type} (f : β → α) {items : List β}
    (hs : items.Pairwise fun a b => Scalar.lt (f a) (f b) = true) (x : α) :
    ∀ b ∈ items.dropWhile (fun a => Scalar.lt (f a) x), Scalar.lt (f b) x = false := by
  induction items with
  | nil => simp
  | cons first rest ih =>
      obtain ⟨hbelow, hrest⟩ := List.pairwise_cons.1 hs
      rw [List.dropWhile_cons]
      split
      · exact ih hrest
      · next hfirst =>
          intro b hb
          rw [← Bool.not_eq_true]
          rcases List.mem_cons.1 hb with rfl | hb
          · exact hfirst
          · intro hlt
            exact hfirst (Ranked.lt_trans (hbelow b hb) hlt)

theorem Ascending.exists_divided {c : Curve α} (hc : c.Ascending) (x : α) :
    ∃ before after, c.Divided x before after :=
  ⟨c.points.takeWhile fun p => Scalar.lt p.x x, c.points.dropWhile fun p => Scalar.lt p.x x,
    (List.takeWhile_append_dropWhile).symm, List.all_eq_true.1 List.all_takeWhile,
    not_lt_of_mem_dropWhile ControlPoint.x hc.sorted x⟩

/-- An ascending curve answers every query in one of the three ways. -/
theorem Ascending.answer {c : Curve α} (hc : c.Ascending) (x : α) :
    c.Answer x (c.valueAt x) := by
  by_cases hout : c.Outside x
  · rw [valueAt_of_outside hout]
    exact .none hout
  rcases c.eq_nil_or_exists_ends with hnil | ⟨first, last, hfirst, hlast⟩
  · exact absurd (.inl hnil) hout
  have hends := mt (outside_iff hfirst hlast x).2 hout
  obtain ⟨before, after, hdiv⟩ := hc.exists_divided x
  rw [valueAt_of_ends hfirst hlast, if_neg hends]
  simp only [Bool.or_eq_true, not_or, Bool.not_eq_true] at hends
  obtain ⟨⟨hx, hbottom⟩, htop⟩ := hends
  rw [hdiv.points_eq, valueAfter_append hdiv.below]
  match after with
  | [] =>
      -- the last point is not below the query
      have hmem : last ∈ before := by
        have hmem := List.mem_of_getLast? hlast
        rwa [hdiv.points_eq, List.append_nil] at hmem
      rw [hdiv.below last hmem] at htop
      cases htop
  | p :: after =>
      have hp := hdiv.not_below p (by simp)
      have hpx : Scalar.isNaN p.x = false := hc.numeric p hdiv.mem
      rw [valueAfter, precedes_eq_lt hx, hp, if_neg Bool.false_ne_true]
      split
      · next heq => exact .point hdiv heq
      · next heq =>
          have hhigh : Scalar.lt x p.x = true :=
            Ranked.lt_of_not_lt_of_not_eq hpx hx (by rw [hp]; decide) heq
          rcases List.eq_nil_or_concat before with rfl | ⟨init, low, rfl⟩
          · -- the query is not before the first point
            rw [hdiv.points_eq] at hfirst
            cases hfirst
            rw [hhigh] at hbottom
            cases hbottom
          · rw [List.concat_eq_append] at hdiv ⊢
            rw [List.getLast?_concat]
            exact .line hdiv hhigh

/-! ## Answers at points and between them -/

omit [Scalar α] [Ranked α] in
theorem Neighbours.exists_append {c : Curve α} {low high : ControlPoint α}
    (h : c.Neighbours low high) :
    ∃ before after, c.points = (before ++ [low]) ++ high :: after := by
  obtain ⟨before, after, happend⟩ := h
  exact ⟨before, after, by rw [← happend]; simp⟩

omit [Scalar α] [Ranked α] in
theorem Neighbours.mem {c : Curve α} {low high : ControlPoint α} (h : c.Neighbours low high) :
    low ∈ c.points ∧ high ∈ c.points := by
  obtain ⟨before, after, hpoints⟩ := h.exists_append
  rw [hpoints]
  simp

omit [Ranked α] in
theorem Neighbours.lt {c : Curve α} (hc : c.Ascending) {low high : ControlPoint α}
    (h : c.Neighbours low high) : Scalar.lt low.x high.x = true := by
  obtain ⟨before, after, happend⟩ := h.exists_append
  have hsorted := hc.sorted
  rw [happend] at hsorted
  exact (List.pairwise_append.1 hsorted).2.2 low (by simp) high (by simp)

/-- The first point of an ascending curve is below no other, and no point is above the last one. -/
theorem Ascending.not_lt_ends {c : Curve α} (hc : c.Ascending) {first last p : ControlPoint α}
    (hfirst : c.points.head? = some first) (hlast : c.points.getLast? = some last)
    (hp : p ∈ c.points) : ¬Scalar.lt p.x first.x = true ∧ ¬Scalar.lt last.x p.x = true := by
  have hself : ∀ q ∈ c.points, ¬Scalar.lt q.x q.x = true := fun q hq =>
    Ranked.not_lt_of_eq (Ranked.eq_refl (hc.numeric q hq))
  constructor
  · obtain ⟨rest, hrest⟩ := List.head?_eq_some_iff.1 hfirst
    have hsorted := hc.sorted
    rw [hrest] at hsorted hp
    rcases List.mem_cons.1 hp with rfl | hmem
    · exact hself p (by rw [hrest]; simp)
    · exact Ranked.not_lt_of_lt ((List.pairwise_cons.1 hsorted).1 p hmem)
  · obtain ⟨init, hinit⟩ := List.getLast?_eq_some_iff.1 hlast
    have hsorted := hc.sorted
    rw [hinit] at hsorted hp
    rcases List.mem_append.1 hp with hmem | hmem
    · exact Ranked.not_lt_of_lt ((List.pairwise_append.1 hsorted).2.2 p hmem last (by simp))
    · rw [List.mem_singleton.1 hmem]
      exact hself last (by rw [hinit]; simp)

/-- A number that has a point on either side of it, or at it, is not outside. -/
theorem Ascending.not_outside {c : Curve α} (hc : c.Ascending) {p q : ControlPoint α}
    (hp : p ∈ c.points) (hq : q ∈ c.points) {x : α} (hx : Scalar.isNaN x = false)
    (hpx : ¬Scalar.lt x p.x = true) (hxq : ¬Scalar.lt q.x x = true) : ¬c.Outside x := by
  rcases c.eq_nil_or_exists_ends with hnil | ⟨first, last, hfirst, hlast⟩
  · rw [hnil] at hp
    cases hp
  have hbottom : ¬Scalar.lt x first.x = true := fun hlt => hpx <|
    Ranked.lt_of_lt_of_not_lt (hc.numeric p hp) hlt (hc.not_lt_ends hfirst hlast hp).1
  have htop : ¬Scalar.lt last.x x = true := fun hlt =>
    (hc.not_lt_ends hfirst hlast hq).2 <|
      Ranked.lt_of_lt_of_not_lt (hc.numeric q hq) hlt hxq
  rw [outside_iff hfirst hlast, hx]
  simp [hbottom, htop]

/-- Points of an ascending curve that stand at equal numbers are one. -/
theorem Ascending.eq_of_eq {c : Curve α} (hc : c.Ascending) {p q : ControlPoint α}
    (hp : p ∈ c.points) (hq : q ∈ c.points) (h : Scalar.eq p.x q.x = true) : p = q := by
  have hone : ∀ ⦃p⦄, p ∈ c.points → ∀ ⦃q⦄, q ∈ c.points → Scalar.eq p.x q.x = true → p = q := by
    refine List.Pairwise.forall_of_forall_of_flip (fun p _ _ => rfl) ?_ ?_
    · exact hc.sorted.imp fun hlt heq => absurd (Ranked.eq_symm heq) (Ranked.not_eq_of_lt hlt)
    · exact hc.sorted.imp fun hlt heq => absurd heq (Ranked.not_eq_of_lt hlt)
  exact hone hp hq h

/-- At a control point a curve answers its value. -/
theorem Ascending.valueAt_point {c : Curve α} (hc : c.Ascending) {p : ControlPoint α}
    (hp : p ∈ c.points) {x : α} (h : Scalar.eq p.x x = true) : c.valueAt x = some p.y := by
  have hx : Scalar.isNaN x = false := ((Ranked.eq_iff p.x x).1 h).2.1
  have hnot := Ranked.not_lt_of_eq h
  have hanswer := hc.answer x
  generalize c.valueAt x = v at hanswer
  cases hanswer with
  | none hout =>
      exact absurd hout
        (hc.not_outside hp hp hx (Ranked.not_lt_of_eq (Ranked.eq_symm h)) hnot)
  | @point before after q hdiv hq =>
      have heq : Scalar.eq p.x q.x = true := by
        rw [(Ranked.eq_congr h q.x).1]
        exact Ranked.eq_symm hq
      rw [hc.eq_of_eq hp hdiv.mem heq]
  | @line before after low high hdiv hhigh =>
      -- the point can stand on neither side of the line
      have hsorted := hc.sorted
      rw [hdiv.points_eq] at hp hsorted
      rcases List.mem_append.1 hp with hbefore | hafter
      · exact absurd (hdiv.below p hbefore) hnot
      · have hxp : Scalar.lt x p.x = true := by
          rcases List.mem_cons.1 hafter with rfl | hafter
          · exact hhigh
          · exact Ranked.lt_trans hhigh
              ((List.pairwise_cons.1 (List.pairwise_append.1 hsorted).2.1).1 p hafter)
        exact absurd h (Ranked.not_eq_of_lt hxp)

/-- A query divides the points between two neighbours on its two sides. -/
theorem Ascending.divided {c : Curve α} (hc : c.Ascending) {before after : List (ControlPoint α)}
    {low high : ControlPoint α} (hpoints : c.points = (before ++ [low]) ++ high :: after) {x : α}
    (hlow : Scalar.lt low.x x = true) (hhigh : ¬Scalar.lt high.x x = true) :
    c.Divided x (before ++ [low]) (high :: after) := by
  have hsorted := hc.sorted
  rw [hpoints, List.pairwise_append] at hsorted
  obtain ⟨hbefore, hafter, -⟩ := hsorted
  refine ⟨hpoints, fun p hp => ?_, fun p hp => ?_⟩
  · rcases List.mem_append.1 hp with hp | hp
    · exact Ranked.lt_trans ((List.pairwise_append.1 hbefore).2.2 p hp low (by simp)) hlow
    · rw [List.mem_singleton.1 hp]
      exact hlow
  · rw [← Bool.not_eq_true]
    rcases List.mem_cons.1 hp with rfl | hp
    · exact hhigh
    · exact fun hlt => hhigh (Ranked.lt_trans ((List.pairwise_cons.1 hafter).1 p hp) hlt)

/-- Between two neighbours a curve answers with their line. -/
theorem Ascending.valueAt_line {c : Curve α} (hc : c.Ascending) {low high : ControlPoint α}
    (hnext : c.Neighbours low high) {x : α} (hlow : Scalar.lt low.x x = true)
    (hhigh : Scalar.lt x high.x = true) : c.valueAt x = some (between low high x) := by
  obtain ⟨before, after, hpoints⟩ := hnext.exists_append
  have hdiv := hc.divided hpoints hlow (Ranked.not_lt_of_lt hhigh)
  have hx : Scalar.isNaN x = false := ((Ranked.lt_iff low.x x).1 hlow).2.1
  have hanswer := hc.answer x
  generalize c.valueAt x = v at hanswer
  cases hanswer with
  | none hout =>
      exact absurd hout (hc.not_outside hnext.mem.1 hnext.mem.2 hx (Ranked.not_lt_of_lt hlow)
        (Ranked.not_lt_of_lt hhigh))
  | point hdiv' hp =>
      obtain ⟨-, hafter⟩ := hdiv.unique hdiv'
      cases hafter
      exact absurd hp (Ranked.not_eq_of_lt hhigh)
  | line hdiv' _ =>
      obtain ⟨hbefore, hafter⟩ := hdiv.unique hdiv'
      cases hafter
      obtain ⟨-, hlast⟩ := List.append_inj' hbefore rfl
      cases hlast
      rfl

end Macc.Curve
