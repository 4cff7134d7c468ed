import Mathlib.Data.List.Induction
import Macc.Curve.Reading
import Macc.Proofs.Attempts
import Macc.Proofs.CurveColumns
import Macc.Proofs.Double.Order

/-!
# A curve holds what was last said

A curve does not remember how it was built. However many points are added, in
whatever order and however often at the same `x`, what is left is one point for
each `x` that was named, in ascending order, with the value that was given there
last. Only the spelling of an `x` is older: two numbers that are equal but not
the same, as the two zeros are, name one point, and it keeps the name it was
first given.

The argument looks a query up. One addition changes the answer at the `x` that
is added, and at the numbers equal to it, and at no other; so what a whole
sequence of additions leaves is read off the sequence. Two curves with the same
answers are the same point for point, because both ascend.
-/

namespace Macc

namespace Curve

variable {α : Type} [Scalar α]

/-! ## What calls say -/

/-- The spelling under which the first of some calls names `x`. -/
def spelling? (calls : List (α × α)) (x : α) : Option α :=
  (calls.find? fun p => Scalar.eq p.1 x).map (·.1)

/-- The value that the last of some calls gives at `x`. -/
def lastAt? (calls : List (α × α)) (x : α) : Option α :=
  ((calls.filter fun p => Scalar.eq p.1 x).getLast?).map (·.2)

theorem spelling?_concat (calls : List (α × α)) (p : α × α) (x : α) :
    spelling? (calls ++ [p]) x =
      (spelling? calls x).or (if Scalar.eq p.1 x then some p.1 else none) := by
  rw [spelling?, spelling?, List.find?_append, List.find?_singleton]
  cases calls.find? fun p => Scalar.eq p.1 x with
  | some q => rfl
  | none => split <;> rfl

/-- Later calls come first, and where they say nothing the earlier ones count. -/
theorem lastAt?_append (calls more : List (α × α)) (x : α) :
    lastAt? (calls ++ more) x = (lastAt? more x).or (lastAt? calls x) := by
  rw [lastAt?, lastAt?, lastAt?, List.filter_append, List.getLast?_append, Option.map_or]

theorem lastAt?_concat (calls : List (α × α)) (p : α × α) (x : α) :
    lastAt? (calls ++ [p]) x = if Scalar.eq p.1 x then some p.2 else lastAt? calls x := by
  rw [lastAt?_append, lastAt?, List.filter_singleton]
  cases Scalar.eq p.1 x <;> rfl

/-! ## Looking a query up -/

theorem pointAt?_cons {q : α} (hq : Scalar.isNaN q = false) (p : ControlPoint α)
    (rest : List (ControlPoint α)) :
    pointAt? q (p :: rest) =
      if Scalar.lt p.x q then pointAt? q rest
      else if Scalar.eq p.x q then some p
      else none := by
  rw [pointAt?, precedes_eq_lt hq]

variable [Ranked α]

/-- After an addition a query finds the new value where it equals the new `x`, and elsewhere what it
found before. -/
theorem pointAt?_insertPoint {x q : α} (hx : Scalar.isNaN x = false) (hq : Scalar.isNaN q = false)
    (y : α) (points : List (ControlPoint α)) :
    pointAt? q (insertPoint x y points) =
      if Scalar.eq x q then some ⟨((pointAt? x points).map (·.x)).getD x, y⟩
      else pointAt? q points := by
  induction points with
  | nil =>
      rw [insertPoint, pointAt?_cons hq]
      by_cases heq : Scalar.eq x q = true
      · rw [if_neg (Ranked.not_lt_of_eq heq), if_pos heq, if_pos heq]
        rfl
      · rw [if_neg heq, if_neg heq]
        exact ite_self _
  | cons p rest ih =>
      rw [insertPoint, precedes_eq_lt hx, pointAt?_cons hx, pointAt?_cons hq p]
      by_cases hlt : Scalar.lt p.x x = true
      · -- the new point comes later
        rw [if_pos hlt, if_pos hlt, pointAt?_cons hq, ih]
        by_cases heq : Scalar.eq x q = true
        · rw [if_pos heq, if_pos heq, if_pos (by rw [← (Ranked.lt_congr heq p.x).2]; exact hlt)]
        · rw [if_neg heq, if_neg heq]
      · rw [if_neg hlt, if_neg hlt]
        by_cases hpx : Scalar.eq p.x x = true
        · -- the new value replaces that of the first point
          rw [if_pos hpx, if_pos hpx, pointAt?_cons hq, ← (Ranked.eq_congr hpx q).1]
          by_cases heq : Scalar.eq p.x q = true
          · rw [if_neg (Ranked.not_lt_of_eq heq), if_pos heq, if_pos heq]
            rfl
          · rw [if_neg heq, if_neg heq, if_neg heq]
        · -- the new point comes first
          rw [if_neg hpx, if_neg hpx, pointAt?_cons hq, pointAt?_cons hq p]
          by_cases hxq : Scalar.lt x q = true
          · rw [if_pos hxq, if_neg fun heq => Ranked.not_eq_of_lt hxq (Ranked.eq_symm heq)]
          · rw [if_neg hxq]
            by_cases heq : Scalar.eq x q = true
            · rw [if_pos heq, if_pos heq]
              rfl
            · have hqx := Ranked.lt_of_not_lt_of_not_eq hx hq hxq heq
              rw [if_neg heq, if_neg heq, if_neg fun hpq => hlt (Ranked.lt_trans hpq hqx),
                if_neg fun hpq => hlt (by rw [(Ranked.lt_congr hpq x).1]; exact hqx)]

/-- No query finds what is added at no number, nor misses anything for it. -/
theorem pointAt?_insertPoint_of_isNaN {x q : α} (hx : Scalar.isNaN x = true)
    (hq : Scalar.isNaN q = false) (y : α) (points : List (ControlPoint α)) :
    pointAt? q (insertPoint x y points) = pointAt? q points := by
  have hlt := Ranked.not_lt_of_isNaN (b := q) (.inl hx)
  have heq := Ranked.not_eq_of_isNaN (b := q) (.inl hx)
  induction points with
  | nil =>
      rw [insertPoint, pointAt?_cons hq, if_neg hlt, if_neg heq]
      rfl
  | cons p rest ih =>
      rw [insertPoint, if_neg (Ranked.not_eq_of_isNaN (.inr hx))]
      split
      · rw [pointAt?_cons hq, ih, pointAt?_cons hq]
      · next hprecedes =>
          have hp : Scalar.isNaN p.x = true := by
            rw [precedes, hx, Bool.true_and, Bool.or_eq_true, not_or] at hprecedes
            simpa using hprecedes.2
          rw [pointAt?_cons hq, if_neg hlt, if_neg heq, pointAt?_cons hq,
            if_neg (Ranked.not_lt_of_isNaN (.inl hp)), if_neg (Ranked.not_eq_of_isNaN (.inl hp))]

/-! ## What additions leave -/

theorem spelling?_congr {x z : α} (h : Scalar.eq x z = true) (calls : List (α × α)) :
    spelling? calls x = spelling? calls z := by
  have hsame : (fun p : α × α => Scalar.eq p.1 x) = fun p => Scalar.eq p.1 z := by
    funext p
    exact (Ranked.eq_congr h p.1).2
  rw [spelling?, spelling?, hsame]

/-- What a curve finds is what the additions said: the first spelling, and the last value. -/
theorem pointAt?_addAll (calls : List (α × α)) {q : α} (hq : Scalar.isNaN q = false) :
    (pointAt? q (empty.addAll calls).value.points).map (·.x) = spelling? calls q ∧
      (pointAt? q (empty.addAll calls).value.points).map (·.y) = lastAt? calls q := by
  induction calls using List.reverseRecOn generalizing q with
  | nil => exact ⟨rfl, rfl⟩
  | append_singleton calls p ih =>
      have hadd : (empty.addAll (calls ++ [p])).value.points =
          insertPoint p.1 p.2 (empty.addAll calls).value.points := by
        rw [value_addAll, value_addAll, List.foldl_concat, Curve.insert]
      rw [hadd, spelling?_concat, lastAt?_concat]
      by_cases heq : Scalar.eq p.1 q = true
      · have hp := ((Ranked.eq_iff p.1 q).1 heq).1
        rw [pointAt?_insertPoint hp hq, if_pos heq, if_pos heq, if_pos heq, (ih hp).1,
          ← spelling?_congr heq]
        refine ⟨?_, rfl⟩
        cases spelling? calls p.1 with
        | none => rfl
        | some x => rfl
      · have hsame : pointAt? q (insertPoint p.1 p.2 (empty.addAll calls).value.points) =
            pointAt? q (empty.addAll calls).value.points := by
          cases hp : Scalar.isNaN p.1 with
          | true => exact pointAt?_insertPoint_of_isNaN hp hq p.2 _
          | false => rw [pointAt?_insertPoint hp hq, if_neg heq]
        rw [hsame, if_neg heq, if_neg heq, Option.or_none]
        exact ih hq

omit [Ranked α] in
theorem mem_of_pointAt? {q : α} {points : List (ControlPoint α)} {p : ControlPoint α}
    (h : pointAt? q points = some p) : p ∈ points := by
  induction points with
  | nil => cases h
  | cons first rest ih =>
      rw [pointAt?] at h
      split at h
      · exact List.mem_cons_of_mem first (ih h)
      · split at h
        · cases h
          exact List.mem_cons_self
        · cases h

/-- Looked up at its own `x`, a point is found. -/
theorem pointAt?_of_mem {points : List (ControlPoint α)}
    (hn : ∀ p ∈ points, Scalar.isNaN p.x = false)
    (hs : points.Pairwise fun p q => Scalar.lt p.x q.x = true) {p : ControlPoint α}
    (hp : p ∈ points) : pointAt? p.x points = some p := by
  induction points with
  | nil => cases hp
  | cons first rest ih =>
      obtain ⟨hbelow, hrest⟩ := List.pairwise_cons.1 hs
      rw [pointAt?_cons (hn p hp)]
      rcases List.mem_cons.1 hp with rfl | hp
      · have heq := Ranked.eq_refl (hn p (by simp))
        rw [if_neg (Ranked.not_lt_of_eq heq), if_pos heq]
      · rw [if_pos (hbelow p hp)]
        exact ih (fun r hr => hn r (by simp [hr])) hrest hp

/-- The pairs of a curve are the last values under their first spellings. -/
theorem mem_pairs_addAll_iff {calls : List (α × α)}
    (hcalls : ∀ p ∈ calls, Scalar.isNaN p.1 = false) (x y : α) :
    (x, y) ∈ (empty.addAll calls).value.pairs ↔
      spelling? calls x = some x ∧ lastAt? calls x = some y := by
  have hc := ascending_empty.addAll hcalls
  constructor
  · intro h
    obtain ⟨p, hp, heq⟩ := List.mem_map.1 h
    cases heq
    obtain ⟨hx, hy⟩ := pointAt?_addAll calls (hc.numeric p hp)
    rw [← hx, ← hy, pointAt?_of_mem hc.numeric hc.sorted hp]
    exact ⟨rfl, rfl⟩
  · rintro ⟨hx, hy⟩
    have hnum : Scalar.isNaN x = false := by
      obtain ⟨p, hp, -⟩ := Option.map_eq_some_iff.1 hx
      have heq : Scalar.eq p.1 x = true := by simpa using List.find?_some hp
      exact ((Ranked.eq_iff p.1 x).1 heq).2.1
    obtain ⟨hx', hy'⟩ := pointAt?_addAll calls hnum
    rw [hx] at hx'
    rw [hy] at hy'
    obtain ⟨p, hp, rfl⟩ := Option.map_eq_some_iff.1 hx'
    rw [hp, Option.map_some, Option.some_inj] at hy'
    rw [← hy']
    exact List.mem_map.2 ⟨p, mem_of_pointAt? hp, rfl⟩

/-! ## Curves with the same answers -/

/-- Whether two points are equal number by number. -/
def SamePoint (p q : ControlPoint α) : Prop :=
  Scalar.eq p.x q.x = true ∧ Scalar.eq p.y q.y = true

omit [Ranked α] in
theorem same_iff (c d : Curve α) :
    c.same d = true ↔ List.Forall₂ SamePoint c.points d.points := by
  rw [List.forall₂_iff_zip, same, Bool.and_eq_true, beq_iff_eq, List.all_eq_true]
  refine and_congr_right fun _ => ⟨fun h p q hpq => ?_, fun h pq hpq => ?_⟩
  · have hpair := h (p, q) hpq
    rwa [Bool.and_eq_true] at hpair
  · rw [Bool.and_eq_true]
    exact h hpq

/-- Points that are the same find the same values. -/
theorem rel_pointAt?_of_forall₂ {points others : List (ControlPoint α)}
    (h : List.Forall₂ SamePoint points others) {q : α} (hq : Scalar.isNaN q = false) :
    Option.Rel SamePoint (pointAt? q points) (pointAt? q others) := by
  induction h with
  | nil => exact .none
  | @cons p r points others hpr hrest ih =>
      rw [pointAt?_cons hq, pointAt?_cons hq, (Ranked.lt_congr hpr.1 q).1,
        (Ranked.eq_congr hpr.1 q).1]
      split
      · exact ih
      · split
        · exact .some hpr
        · exact .none

/-- A query that a point does not precede finds nothing among the points that it precedes. -/
theorem pointAt?_eq_none {p : ControlPoint α} {rest : List (ControlPoint α)}
    (hbelow : ∀ r ∈ rest, Scalar.lt p.x r.x = true) {q : α} (hq : Scalar.isNaN q = false)
    (h : ¬Scalar.lt p.x q = true) : pointAt? q rest = none := by
  match rest with
  | [] => rfl
  | r :: rest =>
      have hqr : Scalar.lt q r.x = true :=
        Ranked.lt_of_not_lt_of_lt hq h (hbelow r List.mem_cons_self)
      rw [pointAt?_cons hq, if_neg (Ranked.not_lt_of_lt hqr), if_neg (Ranked.not_eq_of_lt hqr)]

/-- Ascending points in which every query finds the same are the same. -/
theorem forall₂_of_rel_pointAt? {points others : List (ControlPoint α)}
    (hn : ∀ p ∈ points, Scalar.isNaN p.x = false)
    (hs : points.Pairwise fun p q => Scalar.lt p.x q.x = true)
    (hn' : ∀ p ∈ others, Scalar.isNaN p.x = false)
    (hs' : others.Pairwise fun p q => Scalar.lt p.x q.x = true)
    (h : ∀ q, Scalar.isNaN q = false →
      Option.Rel (fun p r => Scalar.eq p.y r.y = true) (pointAt? q points) (pointAt? q others)) :
    List.Forall₂ SamePoint points others := by
  induction points generalizing others with
  | nil =>
      match others with
      | [] => exact .nil
      | r :: others =>
          have hr := h r.x (hn' r (by simp))
          rw [pointAt?_of_mem hn' hs' List.mem_cons_self] at hr
          cases hr
  | cons p points ih =>
      have hp : Scalar.isNaN p.x = false := hn p (by simp)
      obtain ⟨hbelow, hs⟩ := List.pairwise_cons.1 hs
      have hfound := h p.x hp
      rw [pointAt?_cons hp, if_neg (Ranked.not_lt_of_eq (Ranked.eq_refl hp)),
        if_pos (Ranked.eq_refl hp)] at hfound
      match others with
      | [] => cases hfound
      | r :: others =>
          have hr : Scalar.isNaN r.x = false := hn' r (by simp)
          have hrp : ¬Scalar.lt r.x p.x = true := by
            intro hlt
            have hfound' := h r.x hr
            rw [pointAt?_of_mem hn' hs' List.mem_cons_self, pointAt?_cons hr,
              if_neg (Ranked.not_lt_of_lt hlt), if_neg (Ranked.not_eq_of_lt hlt)] at hfound'
            cases hfound'
          obtain ⟨hbelow', hs'⟩ := List.pairwise_cons.1 hs'
          rw [pointAt?_cons hp, if_neg hrp] at hfound
          by_cases heq : Scalar.eq r.x p.x = true
          · rw [if_pos heq] at hfound
            have heq := Ranked.eq_symm heq
            refine .cons ⟨heq, by cases hfound; assumption⟩ ?_
            refine ih (fun t ht => hn t (by simp [ht])) hs (fun t ht => hn' t (by simp [ht])) hs' ?_
            intro q hq
            by_cases hlt : Scalar.lt p.x q = true
            · have hrest := h q hq
              rwa [pointAt?_cons hq, pointAt?_cons hq, ← (Ranked.lt_congr heq q).1, if_pos hlt,
                if_pos hlt] at hrest
            · rw [pointAt?_eq_none hbelow hq hlt,
                pointAt?_eq_none hbelow' hq (by rwa [← (Ranked.lt_congr heq q).1])]
              exact .none
          · rw [if_neg heq] at hfound
            cases hfound

/-- Whether two sequences of calls give equal values last, wherever they give one. -/
def SameLast (calls others : List (α × α)) : Prop :=
  ∀ x, Option.Rel (fun y z => Scalar.eq y z = true) (lastAt? calls x) (lastAt? others x)

theorem lastAt?_eq_none_of_isNaN {x : α} (hx : ¬Scalar.isNaN x = false) (calls : List (α × α)) :
    lastAt? calls x = none := by
  have hnone : (calls.filter fun p => Scalar.eq p.1 x) = [] := by
    refine List.filter_eq_nil_iff.2 fun p _ heq => hx ?_
    exact ((Ranked.eq_iff p.1 x).1 heq).2.1
  rw [lastAt?, hnone]
  rfl

omit [Scalar α] [Ranked α] in
theorem rel_map_iff {β : Type} (f : β → α) (r : α → α → Prop) (a b : Option β) :
    Option.Rel r (a.map f) (b.map f) ↔ Option.Rel (fun p q => r (f p) (f q)) a b := by
  constructor
  · intro h
    match a, b, h with
    | none, none, _ => exact .none
    | some p, some q, .some h => exact .some h
  · intro h
    match a, b, h with
    | none, none, _ => exact .none
    | some p, some q, .some h => exact .some h

/-- Two curves are the same exactly if the calls that built them gave the same values last. -/
theorem same_addAll_iff {calls others : List (α × α)}
    (hcalls : ∀ p ∈ calls, Scalar.isNaN p.1 = false)
    (hothers : ∀ p ∈ others, Scalar.isNaN p.1 = false) :
    (empty.addAll calls).value.same (empty.addAll others).value = true ↔
      SameLast calls others := by
  have hc := ascending_empty.addAll hcalls
  have hd := ascending_empty.addAll hothers
  rw [same_iff]
  constructor
  · intro h x
    by_cases hx : Scalar.isNaN x = false
    · rw [← (pointAt?_addAll calls hx).2, ← (pointAt?_addAll others hx).2, rel_map_iff]
      match pointAt? x _, pointAt? x _, rel_pointAt?_of_forall₂ h hx with
      | none, none, _ => exact .none
      | some p, some q, .some hpq => exact .some hpq.2
    · rw [lastAt?_eq_none_of_isNaN hx, lastAt?_eq_none_of_isNaN hx]
      exact .none
  · intro h
    refine forall₂_of_rel_pointAt? hc.numeric hc.sorted hd.numeric hd.sorted fun q hq => ?_
    refine (rel_map_iff ControlPoint.y (fun y z => Scalar.eq y z = true) _ _).1 ?_
    rw [(pointAt?_addAll calls hq).2, (pointAt?_addAll others hq).2]
    exact h q

end Curve

/-! ## Curves of doubles from values -/

/-- A curve that is built from some points and has others added to it afterwards. -/
def Curve.built (points added : List (Value × Value)) : Attempt (Curve Float) := do
  let c ← ofValues points
  added.foldlM (fun c p => c.addValues p.1 p.2) c

/-- Whether a call reads as one with certain coordinates. -/
def ReadsAs (v : Value × Value) (p : Float × Float) : Prop :=
  v.1.toReal = .ok p.1 ∧ v.2.toReal = .ok p.2

/-- Calls that read as calls with numbers. -/
structure Reads (values : List (Value × Value)) (calls : List (Float × Float)) : Prop where
  readsAs : List.Forall₂ ReadsAs values calls
  numeric : ∀ p ∈ calls, Scalar.isNaN p.1 = false ∧ Scalar.isNaN p.2 = false

theorem outcome_addValues {v : Value × Value} {p : Float × Float} (h : ReadsAs v p)
    (c : Curve Float) : (c.addValues v.1 v.2).outcome = .ok (c.insert p.1 p.2) := by
  rw [Curve.addValues, h.1, h.2]
  exact congrArg Except.ok (Curve.value_add c p.1 p.2)

theorem outcome_addAllValues {values : List (Value × Value)} {calls : List (Float × Float)}
    (h : List.Forall₂ ReadsAs values calls) (c : Curve Float) :
    (values.foldlM (fun c p => Curve.addValues c p.1 p.2) c).outcome =
      .ok (c.addAll calls).value := by
  induction h generalizing c with
  | nil => rfl
  | @cons v p values calls hvp _ ih =>
      rw [List.foldlM_cons, Attempt.outcome_bind, outcome_addValues hvp, ok_bind, ih,
        Curve.value_addAll, Curve.value_addAll, List.foldl_cons]

/-- Where all calls read, the curve is built, and no matter how the calls came in. -/
theorem Reads.outcome_built {points added : List (Value × Value)} {calls : List (Float × Float)}
    (h : Reads (points ++ added) calls) :
    (Curve.built points added).outcome = .ok (Curve.empty.addAll calls).value := by
  rw [Curve.built, Curve.ofValues, ← List.foldlM_append]
  exact outcome_addAllValues h.readsAs Curve.empty

/-- However a curve of doubles comes about, its columns stay equally long and ascend, its pairs are
the last value at each `x` under the first spelling of the `x`, and it is the same as every curve
whose calls gave the same values last. -/
theorem built_is_last_values {points added : List (Value × Value)} {calls : List (Float × Float)}
    (h : Reads (points ++ added) calls) :
    ∃ c : Curve Float, (Curve.built points added).outcome = .ok c ∧
      (∀ search, FindsPlaces search →
        let t := calls.foldl (fun t p => t.add search p.1 p.2) Columns.empty
        t.xs.length = t.ys.length ∧ (t.xs.Pairwise fun a b => Scalar.lt a b = true) ∧
          t.xs.zip t.ys = c.pairs) ∧
      (∀ x y, (x, y) ∈ c.pairs ↔
        Curve.spelling? calls x = some x ∧ Curve.lastAt? calls x = some y) ∧
      ∀ {points' added' : List (Value × Value)} {others : List (Float × Float)},
        Reads (points' ++ added') others →
          ∃ d : Curve Float, (Curve.built points' added').outcome = .ok d ∧
            (c.same d = true ↔ Curve.SameLast calls others) := by
  have hcalls : ∀ p ∈ calls, Scalar.isNaN p.1 = false := fun p hp => (h.numeric p hp).1
  have hc := Curve.ascending_empty.addAll hcalls
  refine ⟨_, h.outcome_built, ?_, Curve.mem_pairs_addAll_iff hcalls, ?_⟩
  · intro search hsearch
    rw [← columns_addAll hsearch hcalls, Curve.columns]
    refine ⟨by simp, List.pairwise_map.2 hc.sorted, ?_⟩
    rw [List.zip_map']
    rfl
  · intro points' added' others hothers
    exact ⟨_, hothers.outcome_built,
      Curve.same_addAll_iff hcalls fun p hp => (hothers.numeric p hp).1⟩

/-- Of two zeros the first one stays, with the value that was given last. -/
theorem built_keeps_first_zero :
    ∃ c : Curve Float,
      (Curve.built [(.float (-0.0), .int 1), (.int 100, .float 0.5)]
        [(.bool false, .float 0.25)]).outcome = .ok c ∧
        (-0.0, 0.25) ∈ c.pairs ∧ (0.0, 0.25) ∉ c.pairs := by
  have hreads : Reads
      ([(.float (-0.0), .int 1), (.int 100, .float 0.5)] ++ [(.bool false, .float 0.25)])
      [(-0.0, 1), (100, 0.5), (0, 0.25)] :=
    ⟨.cons ⟨rfl, rfl⟩ (.cons ⟨rfl, rfl⟩ (.cons ⟨rfl, rfl⟩ .nil)), by decide⟩
  obtain ⟨c, hc, -, hpairs, -⟩ := built_is_last_values hreads
  refine ⟨c, hc, (hpairs _ _).2 ⟨rfl, rfl⟩, fun h => ?_⟩
  have hspelling := ((hpairs _ _).1 h).1
  have hbits := congrArg (Option.map Float.toBits) hspelling
  revert hbits
  decide

end Macc
