import Mathlib.Order.Bounds.Basic
import Macc.Horizon.Unconverted

/-!
# Years and the periods they belong to

A year is looked for among the model years by halving, and only neighbours were
compared when the horizon was made. What joins the two is that the model years
ascend as a whole, so that one comparison in the middle decides about all years
on one side of it: those before the middle are before the year as well, or those
behind it are not before it either. The search keeps both sides decided, and when
nothing is left between them it stands at the first year that is not before.

All that is said of periods afterwards follows from that one place, without
another look at the search.

Outside the horizon there is no year. The failure names the period that was asked
for, so it is of another kind when the period has too many digits to be written.

All this is about years that are integers. A horizon that is made of years as they
are given is the same one when they are, and need not keep to it when they are not.
-/

namespace Macc.Horizon

variable {years : List Int} {year : Int}

theorem isIncreasing_iff : isIncreasing years = true ↔ years.Pairwise (· < ·) := by
  induction years with
  | nil => exact iff_of_true rfl .nil
  | cons a rest ih =>
      cases rest with
      | nil => exact iff_of_true rfl (List.pairwise_singleton _ a)
      | cons b rest =>
          rw [isIncreasing, Bool.and_eq_true, decide_eq_true_eq, ih]
          constructor
          · rintro ⟨hab, hrest⟩
            refine .cons ?_ hrest
            intro c hc
            rcases List.mem_cons.1 hc with rfl | hc
            · exact hab
            · exact Int.lt_trans hab (List.rel_of_pairwise_cons hrest hc)
          · intro h
            exact ⟨List.rel_of_pairwise_cons h List.mem_cons_self, h.of_cons⟩

theorem ofYears_eq_ok_iff {h : Horizon} :
    ofYears years = .ok h ↔ h.years = years := by
  constructor
  · intro hread
    rw [ofYears] at hread
    split at hread
    · cases hread
    · split at hread
      · cases hread
        rfl
      · cases hread
  · rintro rfl
    rw [ofYears, dif_neg h.nonempty, dif_pos h.increasing]

/-! ## The search -/

/-- Whether years are before `year` up to a place and from there on are not. -/
structure Parts (years : List Int) (year : Int) (place : Nat) : Prop where
  le_length : place ≤ years.length
  before : ∀ k (hk : k < years.length), k < place → years[k] < year
  notBefore : ∀ k (hk : k < years.length), place ≤ k → year ≤ years[k]

/-- One comparison decides about all years on its side, so both sides stay decided. -/
theorem parts_search (hyears : years.Pairwise (· < ·)) {low high : Nat}
    (inside : high ≤ years.length) (hle : low ≤ high)
    (hbefore : ∀ k (hk : k < years.length), k < low → years[k] < year)
    (hafter : ∀ k (hk : k < years.length), high ≤ k → year ≤ years[k]) :
    Parts years year (search (fun y => decide (y < year)) years low high inside) := by
  have hascend := List.pairwise_iff_getElem.1 hyears
  fun_induction search (fun y => decide (y < year)) years low high inside with
  | case1 low high inside hlt middle hmiddle hcompare ih =>
      rw [decide_eq_true_iff] at hcompare
      refine ih (by omega) ?_ hafter
      intro k hk hkm
      rcases Nat.lt_or_eq_of_le (Nat.le_of_lt_succ hkm) with hkm | rfl
      · exact Int.lt_trans (hascend k middle hk hmiddle hkm) hcompare
      · exact hcompare
  | case2 low high inside hlt middle hmiddle hcompare ih =>
      rw [decide_eq_true_iff] at hcompare
      refine ih (by omega) hbefore ?_
      intro k hk hmk
      have hnot : year ≤ years[middle] := Int.not_lt.1 hcompare
      rcases Nat.lt_or_eq_of_le hmk with hmk | rfl
      · exact Int.le_trans hnot (Int.le_of_lt (hascend middle k hmiddle hk hmk))
      · exact hnot
  | case3 low high inside hdone =>
      obtain rfl : low = high := by omega
      exact ⟨inside, hbefore, hafter⟩

variable (h : Horizon)

theorem parts_place (year : Int) : Parts h.years year (h.place year) := by
  refine parts_search (isIncreasing_iff.1 h.increasing) (Nat.le_refl _) (Nat.zero_le _) ?_ ?_
  · exact fun k _ hk => absurd hk (Nat.not_lt_zero k)
  · exact fun k hk hlast => absurd hk (Nat.not_lt.2 hlast)

theorem place_le_iff {k : Nat} (hk : k < h.years.length) :
    h.place year ≤ k ↔ year ≤ h.years[k] := by
  have hparts := h.parts_place year
  constructor
  · exact hparts.notBefore k hk
  · intro hyear
    by_contra hplace
    exact Int.not_lt.2 hyear (hparts.before k hk (Nat.not_le.1 hplace))

/-! ## Periods -/

theorem periodOf_eq (year : Int) : h.periodOf year = min (h.place year) (h.count - 1) := rfl

theorem count_pos : 0 < h.count :=
  List.length_pos_iff.2 h.nonempty

theorem mem_periods_iff {p : Int} : p ∈ h.periods ↔ 0 ≤ p ∧ p < h.count := by
  rw [periods, List.mem_map]
  constructor
  · rintro ⟨k, hk, rfl⟩
    exact ⟨Int.natCast_nonneg k, Int.ofNat_lt.2 (List.mem_range.1 hk)⟩
  · rintro ⟨hpos, hlt⟩
    exact ⟨p.toNat, List.mem_range.2 (by omega), Int.toNat_of_nonneg hpos⟩

theorem yearOf_natCast {k : Nat} (hk : k < h.years.length) : h.yearOf k = .ok h.years[k] := by
  rw [yearOf, yearAt, if_neg (Int.not_lt.2 (Int.natCast_nonneg k)), Int.toNat_natCast,
    List.getElem?_eq_getElem hk]

theorem yearOf_of_not_mem {p : Int} (hp : p ∉ h.periods) :
    h.yearOf p = .error (outside h.count p) := by
  rw [mem_periods_iff, count] at hp
  rw [yearOf, yearAt]
  split
  · next hyear =>
      split at hyear
      · cases hyear
      · obtain ⟨hk, -⟩ := List.getElem?_eq_some_iff.1 hyear
        omega
  · rfl

variable {p : Int} {count : Nat}

theorem isWritable_iff : (Value.int p).isWritable = true ↔ p.natAbs < Nat.pow 10 4300 := by
  generalize hlimit : 4300 = limit
  obtain rfl : Decimal.integerDigitLimit = limit := hlimit
  exact Value.isWritable_int_iff

/-- The message of the failure names the period, so what is too long to be named fails otherwise. -/
theorem kind_outside_eq_index :
    (outside count p).kind = .index ↔ p.natAbs < Nat.pow 10 4300 := by
  rw [outside, ← isWritable_iff]
  split
  · next hp => exact iff_of_true rfl hp
  · next hp => exact iff_of_false nofun hp

theorem kind_outside_eq_value :
    (outside count p).kind = .value ↔ Nat.pow 10 4300 ≤ p.natAbs := by
  rw [outside, ← Nat.not_lt, ← isWritable_iff]
  split
  · next hp => exact iff_of_false nofun (not_not_intro hp)
  · next hp => exact iff_of_true rfl hp

/-- The year of a period, as the place it has among the model years. -/
theorem yearOf_eq_ok_iff {y : Int} :
    h.yearOf p = .ok y ↔ ∃ k : Nat, ∃ hk : k < h.years.length, p = k ∧ y = h.years[k] := by
  constructor
  · intro hy
    have hp : p ∈ h.periods := by
      by_contra hp
      rw [h.yearOf_of_not_mem hp] at hy
      cases hy
    obtain ⟨hpos, hlt⟩ := h.mem_periods_iff.1 hp
    obtain ⟨k, rfl⟩ := Int.eq_ofNat_of_zero_le hpos
    have hk : k < h.years.length := Int.ofNat_lt.1 hlt
    rw [h.yearOf_natCast hk] at hy
    exact ⟨k, hk, rfl, (Except.ok.inj hy).symm⟩
  · rintro ⟨k, hk, rfl, rfl⟩
    exact h.yearOf_natCast hk

theorem yearOf_fails_iff {kind : FailureKind} :
    (∃ failure, h.yearOf p = .error failure ∧ failure.kind = kind) ↔
      p ∉ h.periods ∧ (outside h.count p).kind = kind := by
  constructor
  · rintro ⟨failure, hfailure, hkind⟩
    have hp : p ∉ h.periods := by
      intro hp
      obtain ⟨hpos, hlt⟩ := h.mem_periods_iff.1 hp
      obtain ⟨k, rfl⟩ := Int.eq_ofNat_of_zero_le hpos
      rw [h.yearOf_natCast (Int.ofNat_lt.1 hlt)] at hfailure
      cases hfailure
    rw [h.yearOf_of_not_mem hp] at hfailure
    rw [Except.error.inj hfailure]
    exact ⟨hp, hkind⟩
  · rintro ⟨hp, hkind⟩
    exact ⟨_, h.yearOf_of_not_mem hp, hkind⟩

theorem place_le_last_iff : h.place year ≤ h.count - 1 ↔ year ≤ h.endYear := by
  rw [endYear, List.getLast_eq_getElem]
  exact h.place_le_iff _

theorem periodOf_lt (year : Int) : h.periodOf year < h.count :=
  Nat.lt_of_le_of_lt (Nat.min_le_right _ _) (Nat.sub_lt h.count_pos Nat.one_pos)

theorem periodOf_of_le (hyear : year ≤ h.endYear) : h.periodOf year = h.place year :=
  Nat.min_eq_left (h.place_le_last_iff.2 hyear)

theorem periodOf_of_lt (hyear : h.endYear < year) : h.periodOf year = h.count - 1 := by
  have hplace : ¬h.place year ≤ h.count - 1 :=
    fun hle => Int.not_le.2 hyear (h.place_le_last_iff.1 hle)
  exact Nat.min_eq_right (Nat.le_of_not_le hplace)

theorem place_le_place {later : Int} (hle : year ≤ later) : h.place year ≤ h.place later := by
  by_contra hplace
  have hk : h.place later < h.years.length :=
    Nat.lt_of_lt_of_le (Nat.not_le.1 hplace) (h.parts_place year).le_length
  have hlater := (h.place_le_iff hk).1 (Nat.le_refl _)
  exact hplace ((h.place_le_iff hk).2 (Int.le_trans hle hlater))

theorem periodOf_le_periodOf {later : Int} (hle : year ≤ later) :
    h.periodOf year ≤ h.periodOf later := by
  have hplace := h.place_le_place hle
  rw [periodOf_eq, periodOf_eq]
  omega

theorem periodOf_getElem {k : Nat} (hk : k < h.years.length) : h.periodOf h.years[k] = k := by
  have hplace : h.place h.years[k] = k := by
    refine Nat.le_antisymm ((h.place_le_iff hk).2 (Int.le_refl _)) (Nat.not_lt.1 fun hlt => ?_)
    have hearlier := (h.place_le_iff (Nat.lt_trans hlt hk)).1 (Nat.le_refl _)
    have hascend := List.pairwise_iff_getElem.1 (isIncreasing_iff.1 h.increasing)
    exact Int.not_lt.2 hearlier (hascend _ k _ hk hlt)
  rw [periodOf_eq, hplace]
  exact Nat.min_eq_left (Nat.le_sub_one_of_lt hk)

/-- Years make a horizon exactly when there are some and they ascend. On a horizon every year has
the first period that is not before it, or the last one when all are; this is a period, it does not
fall when the year rises, and it is the period that a model year belongs to. Outside the periods
there is no year. To ask for one is an index failure, but for a period of more than 4300 digits,
which cannot be named, it is one of a value. -/
theorem periodOf_is_first_not_before :
    (∀ years, (∃ h, ofYears years = .ok h ∧ h.years = years) ↔
      years ≠ [] ∧ years.Pairwise (· < ·)) ∧
    ∀ h : Horizon,
      (∀ year, year ≤ h.endYear →
        IsLeast {p : Int | ∃ y, h.yearOf p = .ok y ∧ year ≤ y} (h.periodOf year)) ∧
      (∀ year, h.endYear < year → (h.periodOf year : Int) = h.count - 1) ∧
      (∀ year, (h.periodOf year : Int) ∈ h.periods) ∧
      (∀ year later, year ≤ later → h.periodOf year ≤ h.periodOf later) ∧
      (∀ p ∈ h.periods, ∃ y, h.yearOf p = .ok y ∧ (h.periodOf y : Int) = p) ∧
      ∀ p,
        ((∃ failure, h.yearOf p = .error failure ∧ failure.kind = .index) ↔
          p ∉ h.periods ∧ p.natAbs < Nat.pow 10 4300) ∧
        ((∃ failure, h.yearOf p = .error failure ∧ failure.kind = .value) ↔
          p ∉ h.periods ∧ Nat.pow 10 4300 ≤ p.natAbs) := by
  refine ⟨fun years => ?_, fun h => ⟨?_, ?_, ?_, fun _ _ => h.periodOf_le_periodOf, ?_, ?_⟩⟩
  · constructor
    · rintro ⟨h, -, rfl⟩
      exact ⟨h.nonempty, isIncreasing_iff.1 h.increasing⟩
    · rintro ⟨hsome, hascend⟩
      exact ⟨⟨years, hsome, isIncreasing_iff.2 hascend⟩, ofYears_eq_ok_iff.2 rfl, rfl⟩
  · intro year hyear
    rw [h.periodOf_of_le hyear]
    constructor
    · have hk : h.place year < h.years.length := by
        rw [← h.periodOf_of_le hyear]
        exact h.periodOf_lt year
      exact ⟨_, h.yearOf_natCast hk, (h.place_le_iff hk).1 (Nat.le_refl _)⟩
    · rintro p ⟨y, hy, hle⟩
      obtain ⟨k, hk, rfl, rfl⟩ := h.yearOf_eq_ok_iff.1 hy
      exact Int.ofNat_le.2 ((h.place_le_iff hk).2 hle)
  · intro year hyear
    have hcount := h.count_pos
    rw [h.periodOf_of_lt hyear]
    omega
  · intro year
    exact h.mem_periods_iff.2 ⟨Int.natCast_nonneg _, Int.ofNat_lt.2 (h.periodOf_lt year)⟩
  · intro p hp
    obtain ⟨hpos, hlt⟩ := h.mem_periods_iff.1 hp
    obtain ⟨k, rfl⟩ := Int.eq_ofNat_of_zero_le hpos
    have hk : k < h.years.length := Int.ofNat_lt.1 hlt
    exact ⟨_, h.yearOf_natCast hk, congrArg _ (h.periodOf_getElem hk)⟩
  · intro p
    rw [yearOf_fails_iff, yearOf_fails_iff, kind_outside_eq_index, kind_outside_eq_value]
    exact ⟨Iff.rfl, Iff.rfl⟩

theorem lt_ten_pow {n k : Nat} (hn : n < 10) (hk : 0 < k) : n < Nat.pow 10 k :=
  Nat.lt_of_lt_of_le hn (Nat.le_pow hk)

def fiveYearSteps : Horizon := ⟨[2010, 2015, 2020], List.cons_ne_nil _ _, rfl⟩

/-- A year between two model years belongs to the later one, and the period after the last has no
year. -/
theorem periodOf_is_first_not_before_between :
    (∃ h, ofYears [2010, 2015, 2020] = .ok h ∧ h.years = [2010, 2015, 2020]) ∧
      (2016 : Int) ≤ fiveYearSteps.endYear ∧
      IsLeast {p : Int | ∃ y, fiveYearSteps.yearOf p = .ok y ∧ 2016 ≤ y} 2 ∧
      fiveYearSteps.endYear < 2021 ∧ (fiveYearSteps.periodOf 2021 : Int) = 2 ∧
      ∃ failure, fiveYearSteps.yearOf 3 = .error failure ∧ failure.kind = .index := by
  obtain ⟨haccepted, hperiods⟩ := periodOf_is_first_not_before
  obtain ⟨hfirst, hlast, -, -, -, houtside⟩ := hperiods fiveYearSteps
  have hwithin : (2016 : Int) ≤ fiveYearSteps.endYear := by decide
  have hbeyond : fiveYearSteps.endYear < 2021 := by decide
  have hplace : (fiveYearSteps.periodOf 2016 : Int) = 2 := by decide +kernel
  have hshort : (3 : Int).natAbs < Nat.pow 10 4300 := by
    apply lt_ten_pow <;> decide
  refine ⟨(haccepted _).2 ⟨List.cons_ne_nil _ _, by decide⟩, hwithin, ?_, hbeyond,
    hlast 2021 hbeyond, (houtside 3).1.2 ⟨by decide, hshort⟩⟩
  rw [← hplace]
  exact hfirst 2016 hwithin

/-! ## Years that were not converted -/

theorem neverFalls_whole (years : List Int) :
    neverFalls (years.map .whole) = isIncreasing years := by
  induction years with
  | nil => rfl
  | cons a rest ih =>
      cases rest with
      | nil => rfl
      | cons b rest =>
          rw [isIncreasing, ← ih]
          change (!decide (b ≤ a) && _) = _
          rw [← decide_not]
          simp only [Int.not_le]
          rfl

theorem search_map {α β : Type} {before : β → Bool} {f : α → β} {items : List α}
    {low high : Nat} (inside : high ≤ items.length) (inside' : high ≤ (items.map f).length) :
    search before (items.map f) low high inside' =
      search (fun a => before (f a)) items low high inside := by
  fun_induction search (fun a => before (f a)) items low high inside with
  | case1 low high inside hlt middle hmiddle hcompare ih =>
      rw [search, dif_pos hlt, if_pos (by rwa [List.getElem_map])]
      exact ih _
  | case2 low high inside hlt middle hmiddle hcompare ih =>
      rw [search, dif_pos hlt, if_neg (by rwa [List.getElem_map])]
      exact ih _
  | case3 low high inside hdone => rw [search, dif_neg hdone]

theorem yearAt_map {α β : Type} (f : α → β) (items : List α) (p : Int) :
    yearAt (items.map f) p = (yearAt items p).map f := by
  rw [yearAt, yearAt, List.getElem?_map, List.length_map]
  by_cases hp : p < 0
  · rw [if_pos hp, if_pos hp]
    rfl
  · rw [if_neg hp, if_neg hp]
    cases items[p.toNat]? <;> rfl

/-- Integers need no conversion: given as they are, they make the same horizon. -/
theorem unconverted_whole (years : List Int) :
    match ofYears years with
    | .ok g => ∃ h, UnconvertedHorizon.ofYears (years.map .whole) = .ok h ∧
        (∀ p, h.yearOf p = (g.yearOf p).map .whole) ∧
        ∀ year, h.periodOf (.int year) = .ok (g.periodOf year)
    | .error failure => UnconvertedHorizon.ofYears (years.map .whole) = .error failure := by
  by_cases hsome : years = []
  · subst hsome
    rfl
  have hgiven : years.map GivenYear.whole ≠ [] := mt List.map_eq_nil_iff.1 hsome
  by_cases hascend : isIncreasing years = true
  · have hread : ofYears years = .ok ⟨years, hsome, hascend⟩ := by
      rw [ofYears, dif_neg hsome, dif_pos hascend]
    have hnever := (neverFalls_whole years).trans hascend
    rw [hread]
    refine ⟨⟨years.map .whole, hgiven, hnever⟩, ?_, yearAt_map GivenYear.whole years, ?_⟩
    · rw [UnconvertedHorizon.ofYears, dif_neg hgiven, dif_pos hnever]
    · intro year
      change Except.ok (min _ ((years.map GivenYear.whole).length - 1)) = _
      simp only [List.length_map, search_map (Nat.le_refl years.length)]
      rfl
  · have hread : ofYears years = .error (notIncreasing (years.map .int)) := by
      rw [ofYears, dif_neg hsome, dif_neg hascend]
    rw [hread, UnconvertedHorizon.ofYears, dif_neg hgiven, dif_neg (by rwa [neverFalls_whole]),
      List.map_map]
    rfl

/-- Two years within one, kept as they were given. -/
def quarterYears : UnconvertedHorizon :=
  ⟨[.real 2005.25, .real 2005.75], List.cons_ne_nil _ _, by decide +kernel⟩

/-- The least period of 4301 digits. -/
def longPeriod : Int := (Nat.pow 10 4300 : Nat)

/-- Years with fractions are accepted, and then a year need not have the period that it is the year
of. The period of 4301 digits is outside, and to ask for its year is no index failure. -/
theorem fractions_and_long_periods_differ :
    UnconvertedHorizon.ofYears [.real 2005.25, .real 2005.75] = .ok quarterYears ∧
    quarterYears.yearOf 1 = .ok (.real 2005.75) ∧
    quarterYears.periodOf (.float 2005.75) = .ok 0 ∧
    longPeriod ∉ fiveYearSteps.periods ∧
    ¬ ∃ failure, fiveYearSteps.yearOf longPeriod = .error failure ∧ failure.kind = .index := by
  have hlong : longPeriod.natAbs = Nat.pow 10 4300 := Int.natAbs_natCast _
  have hcut : (Value.float 2005.75).toInteger = .ok 2005 := by
    have htruncate : (Binary64.ofFloat 2005.75).truncate? = some 2005 := by decide +kernel
    rw [Value.toInteger, truncateFloat, htruncate]
  refine ⟨?_, rfl, ?_, ?_, ?_⟩
  · rw [UnconvertedHorizon.ofYears, dif_neg (List.cons_ne_nil _ _)]
    exact dif_pos quarterYears.ascending
  · have hplace : min (search (GivenYear.isBefore 2005) quarterYears.years 0 2 (Nat.le_refl _)) 1
        = 0 := by decide +kernel
    rw [UnconvertedHorizon.periodOf, hcut]
    exact congrArg Except.ok hplace
  · rw [mem_periods_iff]
    rintro ⟨-, hlt⟩
    have hcount : fiveYearSteps.count < Nat.pow 10 4300 := by
      apply lt_ten_pow <;> decide
    exact Nat.lt_asymm hcount (Int.ofNat_lt.1 hlt)
  · rw [yearOf_fails_iff, kind_outside_eq_index, hlong]
    rintro ⟨-, hlt⟩
    exact Nat.lt_irrefl _ hlt

end Macc.Horizon
