import Macc.Proofs.ColumnNames
import Macc.Proofs.ModelYears
import Macc.Proofs.OutputDirectories
import Macc.Proofs.ResolutionFailure

/-!
# Years as they are written

A part of a list of years denotes an integer when it is one: an integer, a flag, a
real without a fraction, a numeral. Such parts are read as what they denote, and a
horizon has the years it was given. Everything else should be refused, and two
kinds of reals are not. An infinite one ends the reading in a way that is not
reported as a fault of the configuration, and of one with a fraction only the
integer in front of it is read.

Neither counts in every list. The reading stops at the first part that is no
integer at all, so an infinite one behind it is never met; and where the integers
do not ascend the list is refused whatever was lost. What is left are the two
exact conditions below.
-/

namespace Macc

/-- A list is refused for its first refused item. -/
theorem mapM_eq_error_iff {ε α β : Type} {f : α → Except ε β} {items : List α} {cause : ε} :
    items.mapM f = .error cause ↔ ∃ before a after, items = before ++ a :: after ∧
      (∀ b ∈ before, ∃ c, f b = .ok c) ∧ f a = .error cause := by
  induction items with
  | nil => simp [pure, Except.pure]
  | cons first rest ih =>
      rw [List.mapM_cons]
      cases hfirst : f first with
      | error failure =>
          rw [error_bind]
          constructor
          · rintro ⟨⟩
            exact ⟨[], first, rest, rfl, fun b hb => absurd hb List.not_mem_nil, hfirst⟩
          · rintro ⟨before, a, after, hitems, hbefore, ha⟩
            cases before with
            | nil =>
                obtain ⟨rfl, -⟩ := List.cons.inj hitems
                obtain rfl := Except.error.inj (hfirst.symm.trans ha)
                rfl
            | cons b more =>
                obtain ⟨rfl, -⟩ := List.cons.inj hitems
                obtain ⟨c, hc⟩ := hbefore _ List.mem_cons_self
                rw [hfirst] at hc
                cases hc
      | ok c =>
          rw [ok_bind]
          have hrest : (rest.mapM f >>= fun values => pure (c :: values)) = .error cause ↔
              rest.mapM f = .error cause := by
            cases rest.mapM f <;> simp [bind, Except.bind, pure, Except.pure]
          rw [hrest, ih]
          constructor
          · rintro ⟨before, a, after, rfl, hbefore, ha⟩
            refine ⟨first :: before, a, after, rfl, ?_, ha⟩
            exact List.forall_mem_cons.2 ⟨⟨c, hfirst⟩, hbefore⟩
          · rintro ⟨before, a, after, hitems, hbefore, ha⟩
            cases before with
            | nil =>
                obtain ⟨rfl, -⟩ := List.cons.inj hitems
                rw [hfirst] at ha
                cases ha
            | cons b more =>
                obtain ⟨rfl, rfl⟩ := List.cons.inj hitems
                exact ⟨more, a, after, rfl, (List.forall_mem_cons.1 hbefore).2, ha⟩

theorem mapM_of_forall₂ {ε α β : Type} {f : α → Except ε β} {items : List α} {values : List β}
    (h : List.Forall₂ (fun a b => f a = .ok b) items values) : items.mapM f = .ok values := by
  induction h with
  | nil => rfl
  | cons ha _ ih =>
      rw [List.mapM_cons, ha, ok_bind, ih]
      rfl

namespace Horizon

/-! ## What a part denotes -/

/-- The integer that a value is, if it is one. -/
inductive Denotes : Value → Int → Prop
  | flag (b : Bool) : Denotes (.bool b) (if b then 1 else 0)
  | int (n : Int) : Denotes (.int n) n
  | real {x : Float} {n : Int} (hwhole : (Binary64.ofFloat x).isInteger = true)
      (hn : (Binary64.ofFloat x).truncate? = some n) : Denotes (.float x) n
  | numeral {s : String} {n : Int} (hs : Decimal.integer s = .number n) : Denotes (.text s) n

theorem toInteger_of_denotes {v : Value} {n : Int} (h : Denotes v n) : v.toInteger = .ok n := by
  cases h with
  | flag b => rfl
  | int n => rfl
  | real hwhole hn => rw [Value.toInteger, truncateFloat, hn]
  | numeral hs => rw [Value.toInteger, hs]

/-- What is read is denoted, apart from reals with a fraction. -/
theorem denotes_of_toInteger {v : Value} {n : Int} (h : v.toInteger = .ok n)
    (hwhole : ∀ x, v = .float x → (Binary64.ofFloat x).isInteger = true) : Denotes v n := by
  cases v with
  | bool b =>
      cases h
      exact .flag b
  | int m =>
      cases h
      exact .int _
  | float x =>
      rw [Value.toInteger, truncateFloat] at h
      split at h
      · next m hm =>
          cases h
          exact .real (hwhole x rfl) hm
      · cases h
  | text s =>
      rw [Value.toInteger] at h
      split at h
      · next m hm =>
          cases h
          exact .numeral hm
      · cases h
      · cases h
  | null | list _ | table _ | date _ | time _ | moment _ => cases h

theorem forall₂_denotes {parts : List Value} {years : List Int}
    (hread : List.Forall₂ (fun v n => v.toInteger = .ok n) parts years)
    (hwhole : ∀ x, .float x ∈ parts → (Binary64.ofFloat x).isInteger = true) :
    List.Forall₂ Denotes parts years := by
  induction hread with
  | nil => exact .nil
  | cons hn _ ih =>
      refine .cons (denotes_of_toInteger hn ?_)
        (ih fun x hx => hwhole x (List.mem_cons_of_mem _ hx))
      rintro x rfl
      exact hwhole x List.mem_cons_self

/-- The years that a value stands for. -/
def YearsOf (v : Value) (years : List Int) : Prop :=
  ∃ parts, v.parts? = some parts ∧ List.Forall₂ Denotes parts years

/-! ## What is read -/

theorem ofValue_eq_ok_iff {v : Value} {h : Horizon} :
    ofValue v = .ok h ↔ ∃ parts, v.parts? = some parts ∧
      parts.mapM Value.toInteger = .ok h.years := by
  rw [ofValue, bind_eq_ok_iff]
  simp only [ofYears_eq_ok_iff]
  rw [readYears]
  cases v.parts? with
  | none => simp
  | some parts =>
      dsimp only
      cases hread : parts.mapM Value.toInteger <;> simp [Except.mapError, hread]

theorem ofValue_of_refused {v : Value} {parts : List Value} {cause : Failure}
    (hparts : v.parts? = some parts) (hread : parts.mapM Value.toInteger = .error cause) :
    ofValue v = .error (yearFailure cause) := by
  rw [ofValue, readYears, hparts]
  dsimp only
  rw [hread]
  rfl

theorem isBadValue_iff {failure : Failure} :
    failure.isBadValue = true ↔ failure.kind = .type ∨ failure.kind = .value := by
  rw [Failure.isBadValue]
  cases failure.kind <;> decide

theorem isBadValue_of_ofYears {years : List Int} {failure : Failure}
    (h : ofYears years = .error failure) : failure.isBadValue = true := by
  rw [ofYears] at h
  split at h
  · cases h
    rfl
  · split at h
    · cases h
    · obtain rfl := Except.error.inj h
      rw [notIncreasing]
      split <;> rfl

/-- Whether a cause is a bad value stays as it is when the years are named as what is bad. -/
theorem isBadValue_yearFailure (cause : Failure) :
    (yearFailure cause).isBadValue = cause.isBadValue := by
  rw [yearFailure]
  split
  · next hkind =>
      rw [Failure.isBadValue, Failure.isBadValue, hkind]
      rfl
  · next hkind =>
      rw [Failure.isBadValue, Failure.isBadValue, hkind]
      rfl
  · rfl

/-- Whether an infinite part is met before any that is no integer at all. -/
def MeetsInfinity (parts : List Value) : Prop :=
  ∃ before v after, parts = before ++ v :: after ∧
    (∀ u ∈ before, ∃ n, u.toInteger = .ok n) ∧ ¬v.IsFinite

/-- Whether parts ascend when their fractions are left away, and some part has one. -/
def LosesFraction (parts : List Value) : Prop :=
  ∃ years x, parts.mapM Value.toInteger = .ok years ∧ years ≠ [] ∧ years.Pairwise (· < ·) ∧
    .float x ∈ parts ∧ (Binary64.ofFloat x).isInteger = false

theorem ofValue_error_of_meetsInfinity {v : Value} {parts : List Value}
    (hparts : v.parts? = some parts) (h : MeetsInfinity parts) :
    ∃ failure, ofValue v = .error failure ∧ failure.isBadValue = false := by
  obtain ⟨before, u, after, hsplit, hbefore, hinfinite⟩ := h
  rw [← Value.toInteger_settles_iff] at hinfinite
  cases hu : u.toInteger with
  | ok n => exact absurd (.inl ⟨n, hu⟩) hinfinite
  | error cause =>
      have hkind : cause.isBadValue = false := by
        rw [Bool.eq_false_iff]
        exact fun hbad => hinfinite (.inr ⟨cause, hu, hbad⟩)
      have hread : parts.mapM Value.toInteger = .error cause :=
        mapM_eq_error_iff.2 ⟨before, u, after, hsplit, hbefore, hu⟩
      exact ⟨_, ofValue_of_refused hparts hread, by rw [isBadValue_yearFailure, hkind]⟩

theorem isBadValue_of_ofValue {v : Value} {failure : Failure}
    (hfinite : ∀ parts, v.parts? = some parts → ¬MeetsInfinity parts)
    (h : ofValue v = .error failure) : failure.isBadValue = true := by
  cases hparts : v.parts? with
  | none =>
      rw [ofValue, readYears, hparts] at h
      cases h
      rfl
  | some parts =>
      cases hread : parts.mapM Value.toInteger with
      | ok years =>
          rw [ofValue, readYears, hparts] at h
          dsimp only at h
          rw [hread] at h
          exact isBadValue_of_ofYears h
      | error cause =>
          obtain rfl := Except.error.inj ((ofValue_of_refused hparts hread).symm.trans h)
          obtain ⟨before, u, after, hsplit, hbefore, hu⟩ := mapM_eq_error_iff.1 hread
          have hsettles : Settles u.toInteger := by
            rw [Value.toInteger_settles_iff]
            by_contra hinfinite
            exact hfinite parts hparts ⟨before, u, after, hsplit, hbefore, hinfinite⟩
          rcases hsettles with ⟨n, hn⟩ | ⟨other, hother, hbad⟩
          · cases hn.symm.trans hu
          · obtain rfl := Except.error.inj (hother.symm.trans hu)
            rw [isBadValue_yearFailure, hbad]

theorem ofValue_of_yearsOf {v : Value} {h : Horizon} (hv : YearsOf v h.years) :
    ofValue v = .ok h := by
  obtain ⟨parts, hparts, hdenotes⟩ := hv
  refine ofValue_eq_ok_iff.2 ⟨parts, hparts, mapM_of_forall₂ ?_⟩
  exact hdenotes.imp fun _ _ => toInteger_of_denotes

theorem yearsOf_of_ofValue {v : Value} {h : Horizon}
    (hkept : ∀ parts, v.parts? = some parts → ¬LosesFraction parts) (hv : ofValue v = .ok h) :
    YearsOf v h.years := by
  obtain ⟨parts, hparts, hread⟩ := ofValue_eq_ok_iff.1 hv
  have hwhole : ∀ x, Value.float x ∈ parts → (Binary64.ofFloat x).isInteger = true := by
    intro x hx
    by_contra hfraction
    exact hkept parts hparts ⟨h.years, x, hread, h.nonempty, isIncreasing_iff.1 h.increasing, hx,
      Bool.not_eq_true _ ▸ hfraction⟩
  exact ⟨parts, hparts, forall₂_denotes (forall₂_of_mapM hread) hwhole⟩

/-! ## Configurations -/

open RunSettings (document describe prepare)

/-- Years that make a horizon as they are written, and are reported as unusable otherwise. -/
structure ReadAsWritten (v : Value) : Prop where
  returns : ∀ h, ofValue v = .ok h ↔ YearsOf v h.years
  refuses : ∀ failure, ofValue v = .error failure → failure.kind = .type ∨ failure.kind = .value
  /-- The settings of a run with such years are refused, and nothing is made for it. -/
  reports : ∀ w options placement path config failure, document w.files path = .ok config →
    Entries.get? config "years" = some v → ofValue v = .error failure →
    ∃ report, (prepare options placement path).result w = (.error report, w) ∧
      report.kind = .value ∧ report.message = "years: " ++ failure.message

theorem result_prepare_of_years {w : World} {path : Path} {config : List (String × Value)}
    {v : Value} {failure : Failure} (options : RunOptions) (placement : Placement)
    (hconfig : document w.files path = .ok config) (hv : Entries.get? config "years" = some v)
    (hfailure : ofValue v = .error failure) (hbad : failure.isBadValue = true) :
    (prepare options placement path).result w = (.error (.years failure), w) := by
  have hyears : RunSettings.horizonOf config = .error (.years failure) := by
    rw [RunSettings.horizonOf, hv]
    dsimp only
    rw [hfailure, Except.mapError, RunSettings.yearsFailure, if_pos hbad]
  have hdescribe : describe w options placement path = .error (.years failure) := by
    rw [describe, hconfig, ok_bind]
    dsimp only
    rw [hyears]
    rfl
  rw [RunSettings.result_prepare, hdescribe]

/-- Years are read as they are written, and refused as a fault of the configuration where they are
none, exactly as long as no infinite part is met and no part loses a fraction. -/
theorem readAsWritten_iff (v : Value) :
    ReadAsWritten v ↔
      ∀ parts, v.parts? = some parts → ¬MeetsInfinity parts ∧ ¬LosesFraction parts := by
  constructor
  · intro hread parts hparts
    constructor
    · intro hinfinite
      obtain ⟨failure, hfailure, hkind⟩ := ofValue_error_of_meetsInfinity hparts hinfinite
      rw [isBadValue_iff.2 (hread.refuses failure hfailure)] at hkind
      cases hkind
    · rintro ⟨years, x, hyears, hsome, hascend, hx, hfraction⟩
      obtain ⟨other, hother, hdenotes⟩ :=
        (hread.returns ⟨years, hsome, isIncreasing_iff.2 hascend⟩).1
          (ofValue_eq_ok_iff.2 ⟨parts, hparts, hyears⟩)
      obtain rfl := Option.some.inj (hparts.symm.trans hother)
      obtain ⟨n, -, hn⟩ := Column.exists_mem_of_forall₂ hdenotes.flip hx
      cases hn with
      | real hwhole _ =>
          rw [hwhole] at hfraction
          cases hfraction
  · intro hsafe
    have hbad : ∀ failure, ofValue v = .error failure → failure.isBadValue = true :=
      fun failure => isBadValue_of_ofValue fun parts hparts => (hsafe parts hparts).1
    constructor
    · intro h
      exact ⟨yearsOf_of_ofValue fun parts hparts => (hsafe parts hparts).2, ofValue_of_yearsOf⟩
    · exact fun failure hfailure => isBadValue_iff.1 (hbad failure hfailure)
    · intro w options placement path config failure hconfig hv hfailure
      exact ⟨.years failure,
        result_prepare_of_years options placement hconfig hv hfailure (hbad failure hfailure),
        rfl, rfl⟩

/-- A half year and an infinite one. -/
def halfYear : Value := .list [.float 2005.5, .int 2010]

def infiniteYear : Value := .list [.float (1 / 0), .int 2010]

/-- A half year is taken for a year that was not written, and an infinite one ends the reading of a
configuration without being reported as a fault of its years. -/
theorem not_readAsWritten_halfYear :
    (∃ h, ofValue halfYear = .ok h ∧ h.years = [2005, 2010] ∧ ¬YearsOf halfYear h.years) ∧
      ofValue infiniteYear = .error .infiniteInteger ∧
      RunSettings.horizonOf [("years", infiniteYear)] = .error .infiniteInteger ∧
      Failure.infiniteInteger.kind = .overflow ∧
      ¬ReadAsWritten halfYear ∧ ¬ReadAsWritten infiniteYear := by
  have hhalf : ofValue halfYear = .ok ⟨[2005, 2010], List.cons_ne_nil _ _, rfl⟩ :=
    ofValue_eq_ok_iff.2 ⟨_, rfl, toOption_eq_some_iff.1 (by decide +kernel)⟩
  have hinfinite : ofValue infiniteYear = .error .infiniteInteger := by
    have htruncate : (Binary64.ofFloat (1 / 0)).truncate? = none := by decide +kernel
    have hnumber : (1 / 0 : Float).isNaN = false := by decide +kernel
    have hread : [Value.float (1 / 0), .int 2010].mapM Value.toInteger =
        .error .infiniteInteger := by
      refine mapM_eq_error_iff.2 ⟨[], .float (1 / 0), [.int 2010], rfl, fun _ h => (by cases h), ?_⟩
      rw [Value.toInteger, truncateFloat, htruncate, hnumber]
      rfl
    exact ofValue_of_refused rfl hread
  have hwritten : ¬YearsOf halfYear [2005, 2010] := by
    rintro ⟨parts, hparts, hdenotes⟩
    cases hparts
    cases hdenotes with
    | cons hfirst _ =>
        cases hfirst with
        | real hwhole _ =>
            have hfraction : (Binary64.ofFloat 2005.5).isInteger = false := by decide +kernel
            rw [hfraction] at hwhole
            cases hwhole
  refine ⟨⟨_, hhalf, rfl, hwritten⟩, hinfinite, ?_, rfl, ?_, ?_⟩
  · rw [RunSettings.horizonOf]
    change (ofValue infiniteYear).mapError RunSettings.yearsFailure = _
    rw [hinfinite]
    rfl
  · exact fun h => hwritten ((h.returns _).1 hhalf)
  · intro h
    rcases h.refuses _ hinfinite with hkind | hkind <;> cases hkind

end Horizon

end Macc
