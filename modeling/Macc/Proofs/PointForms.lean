import Macc.Proofs.FieldReading

/-!
# The ways of writing control points

A control point is written as a pair or as a table, and a field of control points
holds one of them or a list of any number of them. Which it is has to be told
from the value alone, and the one place where it could go wrong are lists of
length two: two numbers are a point, two points are a list. But a point is
compound and a number is not, so the two are never taken for each other.

A field therefore gives the points it was written for, and a list of fields gives
the points of all of them in order. How they were cut into fields is not seen in
the curve, because adding points is a chain, and a chain can be cut anywhere.
-/

namespace Macc

theorem Attempt.ofLogged_bind {α β : Type} (m : Logged α) (f : α → Logged β) :
    ofLogged (m >>= f) = ofLogged m >>= fun a => ofLogged (f a) := by
  have hlog : (m.log ++ (f m.value).log) ++ [] = (m.log ++ []) ++ ((f m.value).log ++ []) := by
    rw [List.append_nil, List.append_nil, List.append_nil]
  exact congrArg (Logged.mk _) hlog

theorem Curve.addAll_append {α : Type} [Scalar α] (c : Curve α) (pairs more : List (α × α)) :
    c.addAll (pairs ++ more) = c.addAll pairs >>= fun d => d.addAll more :=
  List.foldlM_append

namespace ReductionField

/-- Whether a value is a way of writing a control point. -/
inductive WritesPoint (p : Float × Float) : Value → Prop
  | pair {a b : Value} : a.toReal = .ok p.1 → b.toReal = .ok p.2 → WritesPoint p (.list [a, b])
  | table {entries : List (String × Value)} {a b : Value} :
    Entries.get? entries "tax" = some a → a.toReal = .ok p.1 →
    Entries.get? entries "value" = some b → b.toReal = .ok p.2 → WritesPoint p (.table entries)

/-- Whether a value is a way of writing some control points: one, or a list of any number. -/
inductive WritesPoints : List (Float × Float) → Value → Prop
  | one {p : Float × Float} {v : Value} : WritesPoint p v → WritesPoints [p] v
  | many {points : List (Float × Float)} {entries : List Value} :
    List.Forall₂ WritesPoint points entries → WritesPoints points (.list entries)

variable {owner : String} {p : Float × Float} {v : Value} {points : List (Float × Float)}
  {entries : List Value}

theorem not_compound_of_toReal {x : Float} (h : v.toReal = .ok x) : isCompound v = false := by
  cases v with
  | list _ | table _ => cases h
  | null | bool _ | int _ | float _ | text _ | date _ | time _ | moment _ => rfl

theorem WritesPoint.isCompound (h : WritesPoint p v) : isCompound v = true := by
  cases h <;> rfl

theorem isPair_of_toReal {a b : Value} {x y : Float} (ha : a.toReal = .ok x)
    (hb : b.toReal = .ok y) : isPair (.list [a, b]) = true := by
  rw [isPair, not_compound_of_toReal ha, not_compound_of_toReal hb]
  rfl

/-- A point is one entry. -/
theorem WritesPoint.entries? (h : WritesPoint p v) : entries? v = some [v] := by
  cases h with
  | pair ha hb => rw [ReductionField.entries?, if_pos (isPair_of_toReal ha hb)]
  | table => rfl

/-- A list of points is no pair, not even when there are two of them. -/
theorem entries?_of_writesPoint (h : List.Forall₂ WritesPoint points entries) :
    entries? (.list entries) = some entries := by
  have hpair : ¬isPair (.list entries) = true := by
    cases h with
    | nil => exact Bool.false_ne_true
    | cons hfirst hrest =>
        cases hrest with
        | nil => exact Bool.false_ne_true
        | cons hsecond hmore =>
            cases hmore with
            | nil =>
                rw [isPair, hfirst.isCompound]
                exact Bool.false_ne_true
            | cons => exact Bool.false_ne_true
  rw [entries?, if_neg hpair]

theorem WritesPoint.readEntry (h : WritesPoint p v) : readEntry v = .ok p := by
  cases h with
  | pair ha hb => rw [ReductionField.readEntry, if_pos (isPair_of_toReal ha hb), ha, hb]; rfl
  | table htax ha hvalue hb =>
      rw [ReductionField.readEntry, required, htax, ok_bind, ha, ok_bind, required, hvalue, ok_bind,
        hb]
      rfl

theorem readEntries_of_writesPoint (h : List.Forall₂ WritesPoint points entries) :
    readEntries owner entries = pure points := by
  induction h with
  | nil => rfl
  | cons hfirst _ ih => rw [readEntries_of_ok hfirst.readEntry, ih, pure_bind]

theorem WritesPoints.read (h : WritesPoints points v) : read owner v = pure points := by
  cases h with
  | one h =>
      rw [read_of_entries h.entries?, readEntries_of_writesPoint (.cons h .nil)]
  | many h => rw [read_of_entries (entries?_of_writesPoint h), readEntries_of_writesPoint h]

end ReductionField

namespace Strategy

open ReductionField (WritesPoint WritesPoints)

/-- Whether an item is a field of control points that is a way of writing some. -/
def WritesField (points : List (Float × Float)) (item : Value) : Prop :=
  ∃ name v, fieldOf item = .ok (name, v) ∧ Field.namesPoints name = true ∧ WritesPoints points v

variable {points : List (Float × Float)} {item : Value}

theorem writesField_fieldItem {name : String} {v : Value} (hname : Field.namesPoints name = true)
    (h : WritesPoints points v) : WritesField points (fieldItem name v) :=
  ⟨name, v, rfl, hname, h⟩

theorem WritesField.readField (h : WritesField points item) (t : Strategy Float) :
    t.readField item = (do
      let curve ← Attempt.ofLogged (t.curve.addAll points)
      return { t with curve }) := by
  obtain ⟨name, v, hfield, hname, hpoints⟩ := h
  rw [t.readField_of_fieldOf hfield,
    readField_of_reduction (f := (name, v)) t ((Field.canonicalName_eq_reduction _).2 hname),
    hpoints.read, pure_bind]

/-- Fields that write points one after the other add them one after the other. -/
theorem foldlM_of_writesField {chunks : List (List (Float × Float))} {items : List Value}
    (h : List.Forall₂ WritesField chunks items) (t : Strategy Float) :
    items.foldlM Strategy.readField t = (do
      let curve ← Attempt.ofLogged (t.curve.addAll chunks.flatten)
      return { t with curve }) := by
  induction h generalizing t with
  | nil => rfl
  | cons hitem _ ih =>
      rw [List.foldlM_cons, hitem.readField, List.flatten_cons, Curve.addAll_append,
        Attempt.ofLogged_bind, bind_assoc, bind_assoc]
      congr 1
      funext curve
      rw [pure_bind, ih]

theorem outcome_parse_of_writesField (s : Strategy Float) {chunks : List (List (Float × Float))}
    {items : List Value} (h : List.Forall₂ WritesField chunks items) :
    (s.parse items).outcome =
      .ok { s with curve := (Curve.empty.addAll chunks.flatten).value } := by
  rw [parse, foldlM_of_writesField h, Attempt.outcome_bind, Attempt.outcome_ofLogged]
  rfl

/-- Control points are read alike in whatever way they are written: a point is one entry, a list of
points is as many, and fields of points give the curve of all of them in order. -/
theorem parse_reads_points_as_written (s : Strategy Float) :
    (∀ p v, WritesPoint p v → ReductionField.entries? v = some [v]) ∧
      (∀ points entries, List.Forall₂ WritesPoint points entries →
        ReductionField.entries? (.list entries) = some entries) ∧
      ∀ chunks items, List.Forall₂ WritesField chunks items →
        (s.parse items).outcome =
            .ok { s with curve := (Curve.empty.addAll chunks.flatten).value } ∧
          Notice.audible (s.parse items).log = [] := by
  refine ⟨fun p v h => h.entries?, fun points entries h =>
    ReductionField.entries?_of_writesPoint h, fun chunks items h => ?_⟩
  refine ⟨outcome_parse_of_writesField s h, ?_⟩
  rw [parse, foldlM_of_writesField h, Attempt.log_bind (Attempt.outcome_ofLogged _),
    Attempt.log_ofLogged, Notice.audible_append, Curve.audible_addAll]
  rfl

/-- A pair, a list of a pair and a table, a table, and a list of nothing. -/
def mixedFields : List Value :=
  [fieldItem "reduction" (.list [.float 0, .float 0]),
    fieldItem " reduction " (.list [.list [.float 10, .float 0.25],
      .table [("value", .float 0.5), ("tax", .float 20)]]),
    fieldItem "reduction" (.table [("tax", .float 10), ("value", .float 0.375)]),
    fieldItem "reduction" (.list [])]

/-- The three statements on mixed fields: the first value is one entry, the second, of the same
length, is two. -/
theorem parse_reads_mixedFields :
    ReductionField.entries? (.list [.float 0, .float 0]) = some [.list [.float 0, .float 0]] ∧
      ReductionField.entries? (.list [.list [.float 10, .float 0.25],
          .table [("value", .float 0.5), ("tax", .float 20)]]) =
        some [.list [.float 10, .float 0.25], .table [("value", .float 0.5), ("tax", .float 20)]] ∧
      ((fresh threeYears "MAC").parse mixedFields).outcome = .ok { fresh threeYears "MAC" with
        curve := (Curve.empty.addAll [(0, 0), (10, 0.25), (20, 0.5), (10, 0.375)]).value } ∧
      Notice.audible ((fresh threeYears "MAC").parse mixedFields).log = [] := by
  have hpair : WritesPoint (0, 0) (.list [.float 0, .float 0]) := .pair rfl rfl
  have htwo : List.Forall₂ WritesPoint [(10, 0.25), (20, 0.5)]
      [.list [.float 10, .float 0.25], .table [("value", .float 0.5), ("tax", .float 20)]] :=
    .cons (.pair rfl rfl) (.cons (.table rfl rfl rfl rfl) .nil)
  have hname : Field.namesPoints "reduction" = true := by decide +kernel
  have hblanks : Field.namesPoints " reduction " = true := by decide +kernel
  have hfields : List.Forall₂ WritesField [[(0, 0)], [(10, 0.25), (20, 0.5)], [(10, 0.375)], []]
      mixedFields :=
    .cons (writesField_fieldItem hname (.one hpair)) <|
    .cons (writesField_fieldItem hblanks (.many htwo)) <|
    .cons (writesField_fieldItem hname (.one (.table rfl rfl rfl rfl))) <|
    .cons (writesField_fieldItem hname (.many .nil)) .nil
  have hread := parse_reads_points_as_written (fresh threeYears "MAC")
  exact ⟨hread.1 _ _ hpair, hread.2.1 _ _ htwo, hread.2.2 _ _ hfields⟩

end Strategy

end Macc
