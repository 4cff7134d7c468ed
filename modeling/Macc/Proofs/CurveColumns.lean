import Macc.Proofs.Attempts
import Macc.Proofs.CurveReading

/-!
# A curve in two columns

The points of a curve can be kept as two columns of numbers and be handled by
their places: search the first column for a number, put a number in at the place
that the search answers, read what stands there and one place before. Nothing
holds such columns together and nothing keeps the places inside them, but the
numbers that are searched for.

They come to the same. Columns that are edited at the places of a search are the
coordinates of the curve that the points are added to. Read at the places of a
search they answer what the curve answers, and no reading goes wrong: not beyond
the last place, not before the first one, where a place counted from the end
would be read instead, and not by a line that has no width.

The search itself is not looked into. What is asked of it is its promise, that
everything before the place it answers is less and nothing from there on is.
-/

namespace Macc

variable {α : Type}

/-- The coordinates of points in two columns. -/
structure Columns (α : Type) where
  xs : List α
  ys : List α

def Curve.columns (c : Curve α) : Columns α :=
  ⟨c.points.map (·.x), c.points.map (·.y)⟩

/-- What goes wrong when columns are read where they have nothing to read. -/
inductive Misread where
  | beyond (place : Nat)
  | beforeFirst
  | noWidth

variable [Scalar α]

/-- Whether a search answers, for a number in ascending numbers, how many of them are less. -/
def FindsPlaces (search : List α → α → Nat) : Prop :=
  ∀ (xs : List α) (x : α), (∀ a ∈ xs, Scalar.isNaN a = false) →
    (xs.Pairwise fun a b => Scalar.lt a b = true) → Scalar.isNaN x = false →
    search xs x ≤ xs.length ∧ (∀ a ∈ xs.take (search xs x), Scalar.lt a x = true) ∧
      ∀ a ∈ xs.drop (search xs x), Scalar.lt a x = false

/-- How many numbers at the start of some numbers are less than one. -/
def countLess (xs : List α) (x : α) : Nat :=
  (xs.takeWhile fun a => Scalar.lt a x).length

namespace Columns

def empty : Columns α := ⟨[], []⟩

def read (column : List α) (place : Nat) : Except Misread α :=
  match column[place]? with
  | some a => .ok a
  | none => .error (.beyond place)

def readBefore (column : List α) : Nat → Except Misread α
  | 0 => .error .beforeFirst
  | place + 1 => read column place

/-- The columns with one more point, put in at the place of its `x`; where this `x` stands already,
only the other column changes. -/
def add (search : List α → α → Nat) (t : Columns α) (x y : α) : Columns α :=
  let place := search t.xs x
  if (t.xs[place]?).any (Scalar.eq · x) then { t with ys := t.ys.set place y }
  else ⟨t.xs.insertIdx place x, t.ys.insertIdx place y⟩

/-- What stands at a place, or what the line that leads there from the place before comes to. -/
def valueAtPlace (t : Columns α) (x : α) (place : Nat) : Except Misread α := do
  let here ← read t.xs place
  if Scalar.eq here x then read t.ys place
  else
    let low : ControlPoint α := ⟨← readBefore t.xs place, ← readBefore t.ys place⟩
    let high : ControlPoint α := ⟨here, ← read t.ys place⟩
    if Scalar.eq (high.x - low.x) Scalar.zero then throw .noWidth
    else return Curve.between low high x

/-- The value at `x`, where it is not beyond the first or the last place. -/
def value (search : List α → α → Nat) (t : Columns α) (x : α) : Except Misread (Option α) := do
  if t.xs.isEmpty then return none
  else
    let first ← read t.xs 0
    let last ← readBefore t.xs t.xs.length
    if Scalar.isNaN x || Scalar.lt x first || Scalar.lt last x then return none
    else some <$> t.valueAtPlace x (search t.xs x)

end Columns

/-! ## The place of a number -/

section

variable {β γ : Type} (f : β → γ) (before after : List β) (c : γ)

theorem getElem?_map_append :
    ((before ++ after).map f)[before.length]? = (after.map f).head? := by
  rw [List.map_append, List.getElem?_append_right (by simp), List.length_map, Nat.sub_self,
    List.head?_eq_getElem?]

theorem set_map_append (b : β) :
    ((before ++ b :: after).map f).set before.length c = before.map f ++ c :: after.map f := by
  rw [List.map_append, List.set_append_right _ _ (by simp), List.length_map, Nat.sub_self,
    List.map_cons, List.set_cons_zero]

theorem insertIdx_map_append :
    ((before ++ after).map f).insertIdx before.length c = before.map f ++ c :: after.map f := by
  induction before with
  | nil => rfl
  | cons b rest ih => exact congrArg (f b :: ·) ih

end

/-- The place that a search answers is where the query divides the points. -/
theorem FindsPlaces.exists_divided {search : List α → α → Nat} (hsearch : FindsPlaces search)
    {c : Curve α} (hc : c.Ascending) {x : α} (hx : Scalar.isNaN x = false) :
    ∃ before after, c.Divided x before after ∧ search c.columns.xs x = before.length := by
  have hnumeric : ∀ a ∈ c.columns.xs, Scalar.isNaN a = false := by
    intro a ha
    obtain ⟨p, hp, rfl⟩ := List.mem_map.1 ha
    exact hc.numeric p hp
  have hsorted : c.columns.xs.Pairwise fun a b => Scalar.lt a b = true :=
    List.pairwise_map.2 hc.sorted
  obtain ⟨hle, hbelow, hnot⟩ := hsearch _ x hnumeric hsorted hx
  generalize search c.columns.xs x = place at hle hbelow hnot ⊢
  rw [Curve.columns, List.length_map] at hle
  rw [Curve.columns, ← List.map_take] at hbelow
  rw [Curve.columns, ← List.map_drop] at hnot
  refine ⟨c.points.take place, c.points.drop place, ⟨(List.take_append_drop place c.points).symm,
    fun p hp => hbelow p.x (List.mem_map_of_mem hp),
    fun p hp => hnot p.x (List.mem_map_of_mem hp)⟩, ?_⟩
  rw [List.length_take, min_eq_left hle]

theorem FindsPlaces.place_eq {search : List α → α → Nat} (hsearch : FindsPlaces search)
    {c : Curve α} (hc : c.Ascending) {x : α} (hx : Scalar.isNaN x = false)
    {before after : List (ControlPoint α)} (hdiv : c.Divided x before after) :
    search c.columns.xs x = before.length := by
  obtain ⟨before', after', hdiv', hplace⟩ := hsearch.exists_divided hc hx
  rw [hplace, hdiv.before_eq, hdiv'.before_eq]

/-- Counting the smaller numbers from the start is such a search. -/
theorem findsPlaces_countLess [Ranked α] : FindsPlaces (countLess : List α → α → Nat) := by
  intro xs x _ hsorted _
  have hparts := @List.takeWhile_append_dropWhile _ (fun a => Scalar.lt a x) xs
  have htake : xs.take (countLess xs x) = xs.takeWhile fun a => Scalar.lt a x := by
    conv_lhs => rw [← hparts, List.take_left' (by rw [hparts, countLess])]
  have hdrop : xs.drop (countLess xs x) = xs.dropWhile fun a => Scalar.lt a x := by
    conv_lhs => rw [← hparts, List.drop_left' (by rw [hparts, countLess])]
  rw [htake, hdrop]
  exact ⟨(List.takeWhile_sublist _).length_le, List.all_eq_true.1 List.all_takeWhile,
    Curve.not_lt_of_mem_dropWhile id hsorted x⟩

/-! ## Putting points in -/

/-- Putting a point into the columns is putting it into the curve. -/
theorem columns_insert {search : List α → α → Nat} (hsearch : FindsPlaces search) {c : Curve α}
    (hc : c.Ascending) {x : α} (hx : Scalar.isNaN x = false) (y : α) :
    (c.insert x y).columns = c.columns.add search x y := by
  obtain ⟨before, after, hdiv, hplace⟩ := hsearch.exists_divided hc hx
  rw [Columns.add, hplace, Curve.insert, Curve.columns, Curve.columns, hdiv.points_eq,
    Curve.insertPoint_append y hdiv.below, List.map_append, List.map_append]
  dsimp only
  rw [getElem?_map_append, insertIdx_map_append, insertIdx_map_append]
  match after, hdiv with
  | [], hdiv =>
      rw [List.map_nil, List.head?_nil, Option.any_none, if_neg Bool.false_ne_true]
      rfl
  | p :: after, hdiv =>
      have hp := hdiv.not_below p (by simp)
      rw [List.map_cons, List.head?_cons, Option.any_some, set_map_append, Curve.insertPoint,
        Curve.precedes_eq_lt hx, hp, if_neg Bool.false_ne_true]
      split
      · rw [List.map_append]
        rfl
      · rfl

/-- Columns that points are put into one after the other stay those of the curve. -/
theorem columns_addAll [Ranked α] {search : List α → α → Nat} (hsearch : FindsPlaces search)
    {calls : List (α × α)} (hcalls : ∀ p ∈ calls, Scalar.isNaN p.1 = false) :
    (Curve.empty.addAll calls).value.columns =
      calls.foldl (fun t p => t.add search p.1 p.2) Columns.empty := by
  have hfold : ∀ c : Curve α, c.Ascending → ((c.addAll calls).value).columns =
      calls.foldl (fun t p => t.add search p.1 p.2) c.columns := by
    induction calls with
    | nil => exact fun _ _ => rfl
    | cons p rest ih =>
        intro c hc
        have hp := hcalls p (by simp)
        have hrest := ih (fun q hq => hcalls q (by simp [hq])) (c.insert p.1 p.2)
          (hc.insert hp p.2)
        rw [Curve.value_addAll] at hrest ⊢
        rw [List.foldl_cons, List.foldl_cons, ← columns_insert hsearch hc hp]
        exact hrest
  exact hfold _ Curve.ascending_empty

/-! ## Reading -/

namespace Columns

omit [Scalar α] in
theorem read_map_append {β : Type} (f : β → α) (before : List β) (b : β) (after : List β) :
    read ((before ++ b :: after).map f) before.length = .ok (f b) := by
  rw [read, getElem?_map_append, List.map_cons, List.head?_cons]

omit [Scalar α] in
theorem readBefore_map_append {β : Type} (f : β → α) (before : List β) (b : β) (after : List β) :
    readBefore ((before ++ b :: after).map f) (before ++ [b]).length = .ok (f b) := by
  rw [List.length_append, List.length_singleton, readBefore, read_map_append]

theorem valueAtPlace_point {c : Curve α} {x : α} {before after : List (ControlPoint α)}
    {p : ControlPoint α} (hdiv : c.Divided x before (p :: after)) (hp : Scalar.eq p.x x = true) :
    c.columns.valueAtPlace x before.length = .ok p.y := by
  rw [valueAtPlace, Curve.columns, hdiv.points_eq]
  dsimp only
  rw [read_map_append, read_map_append, ok_bind, if_pos hp]

theorem valueAtPlace_line {c : Curve α} {x : α} {before after : List (ControlPoint α)}
    {low high : ControlPoint α} (hdiv : c.Divided x (before ++ [low]) (high :: after))
    (hhigh : ¬Scalar.eq high.x x = true)
    (hwidth : Scalar.eq (high.x - low.x) Scalar.zero = false) :
    c.columns.valueAtPlace x (before ++ [low]).length = .ok (Curve.between low high x) := by
  have hpoints : c.points = before ++ low :: high :: after := by
    rw [hdiv.points_eq, List.append_assoc]
    rfl
  have hlow : ∀ f : ControlPoint α → α,
      readBefore (c.points.map f) (before ++ [low]).length = .ok (f low) := by
    intro f
    rw [hpoints, readBefore_map_append]
  have hhere : ∀ f : ControlPoint α → α,
      read (c.points.map f) (before ++ [low]).length = .ok (f high) := by
    intro f
    rw [hdiv.points_eq, read_map_append]
  rw [valueAtPlace, Curve.columns]
  dsimp only
  rw [hhere, ok_bind, if_neg hhigh, hlow, ok_bind, hlow, ok_bind, hhere, ok_bind,
    if_neg (by rw [hwidth]; decide)]
  rfl

theorem value_of_ends {search : List α → α → Nat} {c : Curve α} {first last : ControlPoint α}
    (hfirst : c.points.head? = some first) (hlast : c.points.getLast? = some last) (x : α) :
    c.columns.value search x =
      if Scalar.isNaN x || Scalar.lt x first.x || Scalar.lt last.x x then .ok none
      else some <$> c.columns.valueAtPlace x (search c.columns.xs x) := by
  obtain ⟨init, hinit⟩ := List.getLast?_eq_some_iff.1 hlast
  have hbottom : read c.columns.xs 0 = .ok first.x := by
    rw [read, Curve.columns, List.getElem?_map, ← List.head?_eq_getElem?, hfirst]
    rfl
  have htop : readBefore c.columns.xs c.columns.xs.length = .ok last.x := by
    rw [Curve.columns, hinit, List.length_map, readBefore_map_append]
  have hsome : ¬c.columns.xs.isEmpty = true := by
    rw [Curve.columns, hinit]
    simp
  rw [value, if_neg hsome, hbottom, ok_bind, htop, ok_bind]
  rfl

/-- Read by places, an ascending curve whose segments have a width answers as it does. -/
theorem value_eq [Ranked α] {search : List α → α → Nat} (hsearch : FindsPlaces search)
    {c : Curve α} (hc : c.Ascending)
    (hwidth : ∀ p ∈ c.points, ∀ q ∈ c.points, Scalar.lt p.x q.x = true →
      Scalar.eq (q.x - p.x) Scalar.zero = false) (x : α) :
    c.columns.value search x = .ok (c.valueAt x) := by
  rcases c.eq_nil_or_exists_ends with hnil | ⟨first, last, hfirst, hlast⟩
  · rw [value, Curve.columns, hnil, Curve.valueAt_of_outside (.inl hnil)]
    rfl
  rw [value_of_ends hfirst hlast]
  split
  · next hends =>
      rw [Curve.valueAt_of_outside ((Curve.outside_iff hfirst hlast x).2 hends)]
  · next hends =>
      have hin := mt (Curve.outside_iff hfirst hlast x).1 hends
      have hx : Scalar.isNaN x = false := by
        simp only [Bool.or_eq_true, not_or, Bool.not_eq_true] at hends
        exact hends.1.1
      have hanswer := hc.answer x
      generalize c.valueAt x = v at hanswer
      cases hanswer with
      | none h => exact absurd h hin
      | point h hp =>
          rw [hsearch.place_eq hc hx h, valueAtPlace_point h hp]
          rfl
      | @line before after low high h hhigh =>
          obtain ⟨hnext, hlow⟩ := h.neighbours
          rw [hsearch.place_eq hc hx h, valueAtPlace_line h (Ranked.not_eq_of_lt hhigh)
            (hwidth low hnext.mem.1 high hnext.mem.2 (Ranked.lt_trans hlow hhigh))]
          rfl

end Columns

end Macc
