import Mathlib.Data.List.Forall2
import Macc.Table.Column

/-!
# Names in a column

The names of a column are the texts of its cells only when the column is one of
texts, and that is decided by all of its cells together. Where every cell reads
as an integer the names are written anew, so that `01` becomes `1`, and a word for
a missing cell is no name in any column.

One cell that reads as nothing but text makes the whole column one of texts,
because every other way of reading a column must read all of its cells. Then the
names are the texts, up to the words for a missing cell.
-/

namespace Macc.Column

open Decimal (cellNumber? cellSign cellDigits cellExponent? digitsNumber? isCellBlank)

/-- Whether a name is found exactly when it is the text. -/
def Keeps (written : String) (name : Option String) : Prop :=
  ∀ m, m ≠ "" → (name = some m ↔ written = m)

/-- Whether the column that cells make has the trimmed texts of the cells as its names. -/
def KeepsNames (cells : List String) : Prop :=
  List.Forall₂ Keeps (cells.map Text.trim) (ofCells cells).names

/-- Whether a cell reads as nothing but text. -/
def IsWord (cell : String) : Prop :=
  isMissing cell = false ∧ cellNumber? cell = none ∧ flagOf? cell = none

theorem exists_mem_of_forall₂ {α β : Type} {R : α → β → Prop} {xs : List α} {ys : List β}
    (h : List.Forall₂ R xs ys) {b : β} (hb : b ∈ ys) : ∃ a ∈ xs, R a b := by
  induction h with
  | nil => cases hb
  | cons hxy _ ih =>
      rcases List.mem_cons.1 hb with rfl | hb
      · exact ⟨_, List.mem_cons_self, hxy⟩
      · obtain ⟨a, ha, hab⟩ := ih hb
        exact ⟨a, List.mem_cons_of_mem _ ha, hab⟩

/-! ## Cells that read as integers -/

variable {cell : String} {cells : List String}

theorem integerParts_eq {negative alone : Bool} {digits : List Nat}
    (h : integerParts cell = (negative, digits, alone)) :
    ∃ body left, cellSign (cell.toList.dropWhile isCellBlank) = (negative, body) ∧
      cellDigits body = (digits, left) ∧ left.all isCellBlank = alone := by
  rw [integerParts] at h
  rcases hsign : cellSign (cell.toList.dropWhile isCellBlank) with ⟨sign, body⟩
  rw [hsign] at h
  dsimp only at h
  rcases hdigits : cellDigits body with ⟨found, left⟩
  rw [hdigits] at h
  cases h
  exact ⟨body, left, rfl, hdigits, rfl⟩

theorem exists_cellNumber {negative : Bool} {digits : List Nat}
    (h : integerParts cell = (negative, digits, true)) (hdigits : digits.isEmpty = false) :
    ∃ n, cellNumber? cell = some n := by
  obtain ⟨body, left, hsign, hbody, hleft⟩ := integerParts_eq h
  -- what follows is blank, so it has neither a point nor an exponent
  have htail : cellExponent? left = some (none, left) := by
    cases left with
    | nil => rfl
    | cons c rest =>
        rw [cellExponent?, if_neg]
        intro hletter
        have hblank := (List.all_eq_true.1 hleft) c List.mem_cons_self
        rcases Bool.or_eq_true _ _ ▸ hletter with hc | hc
        all_goals
          rw [eq_of_beq hc] at hblank
          exact absurd hblank (by decide)
  have hpoint : ∀ rest, left ≠ '.' :: rest := by
    rintro rest rfl
    exact absurd ((List.all_eq_true.1 hleft) '.' List.mem_cons_self) (by decide)
  have hnumber : ∃ n, digitsNumber? cell.toList = some n := by
    rw [digitsNumber?, hsign]
    dsimp only
    rw [hbody]
    dsimp only
    split
    · next rest => exact absurd rfl (hpoint rest)
    · rw [if_neg (by simp [hdigits]), htail]
      exact ⟨_, if_pos hleft⟩
  obtain ⟨n, hn⟩ := hnumber
  exact ⟨n, by rw [cellNumber?, hn]; rfl⟩

theorem exists_cellNumber_of_signedCell {n : Int} (h : signedCell cell = .int n) :
    ∃ number, cellNumber? cell = some number := by
  rw [signedCell] at h
  rcases hparts : integerParts cell with ⟨negative, digits, alone⟩
  rw [hparts] at h
  dsimp only at h
  generalize (if negative = true then -(Text.numberOf digits 0 : Int) else _) = signed at h
  split at h
  · cases h
  · next hdigits =>
      split at h
      · cases h
      · split at h
        · next halone =>
            subst halone
            exact exists_cellNumber hparts (by simpa using hdigits)
        · cases h

/-- Among unsigned integers a negative cell stands for one, whatever follows its sign. -/
theorem unsignedCell_eq_int {n : Int} (h : unsignedCell cell = .int n) :
    n < 0 ∨ ∃ number, cellNumber? cell = some number := by
  rw [unsignedCell] at h
  rcases hparts : integerParts cell with ⟨negative, digits, alone⟩
  rw [hparts] at h
  dsimp only at h
  split at h
  · cases h
    exact .inl (by decide)
  · split at h
    · cases h
    · next hdigits =>
        split at h
        · cases h
        · split at h
          · next halone =>
              subst halone
              exact .inr (exists_cellNumber hparts (by simpa using hdigits))
          · cases h

/-- Whether a cell of a column of integers stands for what is there. -/
def Stands (read : String → CellInteger) (cell : String) (n : Option Int) : Prop :=
  (isMissing cell = true ∧ n = none) ∨ ∃ k, isMissing cell = false ∧ read cell = .int k ∧ n = some k

theorem forall₂_of_integerCells {read : String → CellInteger} {ns : List (Option Int)}
    (h : integerCells read cells = .ints ns) : List.Forall₂ (Stands read) cells ns := by
  induction cells generalizing ns with
  | nil =>
      cases h
      exact .nil
  | cons first rest ih =>
      rw [integerCells] at h
      cases hfirst : isMissing first with
      | true =>
          rw [hfirst, if_pos rfl] at h
          dsimp only at h
          split at h
          · next more hmore =>
              cases h
              exact .cons (.inl ⟨hfirst, rfl⟩) (ih hmore)
          · next hnone => exact absurd h (hnone ns)
      | false =>
          rw [hfirst, if_neg (by decide)] at h
          split at h
          · cases h
          · cases h
          · next k hk =>
              split at h
              · next more hmore =>
                  cases h
                  exact .cons (.inr ⟨k, hfirst, Option.some.inj hk, rfl⟩) (ih hmore)
              · next hnone => exact absurd h (hnone ns)
          · next hk => cases hk

theorem exists_int_of_integerCells {read : String → CellInteger} {ns : List (Option Int)}
    (h : integerCells read cells = .ints ns) (hcell : cell ∈ cells)
    (hpresent : isMissing cell = false) : ∃ n, read cell = .int n ∧ some n ∈ ns := by
  obtain ⟨n, hmem, ⟨hmissing, -⟩ | ⟨k, -, hk, rfl⟩⟩ :=
    exists_mem_of_forall₂ (forall₂_of_integerCells h).flip hcell
  · rw [hpresent] at hmissing
    cases hmissing
  · exact ⟨k, hk, hmem⟩

/-! ## A word among the cells -/

theorem mapM_eq_none {α β : Type} {f : α → Option β} {items : List α} {a : α} (ha : a ∈ items)
    (hf : f a = none) : items.mapM f = none := by
  induction items with
  | nil => cases ha
  | cons first rest ih =>
      rw [List.mapM_cons]
      rcases List.mem_cons.1 ha with rfl | ha
      · rw [hf]
        rfl
      · rw [ih ha]
        cases f first <;> rfl

theorem ofOtherCells_of_word (hcell : cell ∈ cells) (hword : IsWord cell) :
    ofOtherCells cells = ofTexts cells := by
  obtain ⟨hpresent, hnumber, hflag⟩ := hword
  have hreals : reals? cells = none := by
    rw [reals?, mapM_eq_none hcell]
    · rfl
    · rw [hpresent, hnumber]
      rfl
  have hflags : flags? cells = none := by
    rw [flags?, mapM_eq_none hcell hflag]
    dsimp only
    rw [mapM_eq_none hcell]
    · rfl
    · rw [hpresent, hflag]
      rfl
  rw [ofOtherCells, hreals, hflags]
  rfl

/-- A word makes the column one of texts. Beside integers that are too large the missing cells are
texts, too. -/
theorem ofCells_of_word (hcell : cell ∈ cells) (hword : IsWord cell) :
    ofCells cells = ofTexts cells ∨ ofCells cells = .texts (cells.map some) := by
  have hother := ofOtherCells_of_word hcell hword
  have hnumber : ¬∃ n, cellNumber? cell = some n := by
    rintro ⟨n, hn⟩
    rw [hword.2.1] at hn
    cases hn
  rw [ofCells]
  split
  · next ns hns =>
      obtain ⟨n, hn, -⟩ := exists_int_of_integerCells hns hcell hword.1
      exact absurd (exists_cellNumber_of_signedCell hn) hnumber
  · rw [ofLargeCells]
    split
    · exact .inl hother
    · exact .inl rfl
    · next ns hns =>
        obtain ⟨n, hn, hmem⟩ := exists_int_of_integerCells hns hcell hword.1
        rcases unsignedCell_eq_int hn with hneg | hcell
        · have hnegative : (ns.any fun c => c.any (· < 0)) = true :=
            List.any_eq_true.2 ⟨some n, hmem, by simpa using hneg⟩
          dsimp only
          rw [hnegative]
          split
          · exact .inr rfl
          · exact .inl rfl
        · exact absurd hcell hnumber
  · exact .inl hother

theorem keeps_trim (cell : String) : Keeps (Text.trim cell) (some (Text.trim cell)) :=
  fun _ _ => by rw [Option.some_inj]

/-- A column with a word in it keeps its names, unless one of them is a word for a missing cell. -/
theorem keepsNames_of_word (hcell : cell ∈ cells) (hword : IsWord cell)
    (hmissing : ∀ c ∈ cells, isMissing c = true → c = "") : KeepsNames cells := by
  have hempty : Keeps (Text.trim "") none := by
    intro m hm
    constructor
    · intro h
      cases h
    · intro h
      exact absurd h.symm hm
  rw [KeepsNames, List.forall₂_map_left_iff]
  rcases ofCells_of_word hcell hword with h | h
  · rw [h, ofTexts, names, cellTexts, List.map_map, List.forall₂_map_right_iff,
      List.forall₂_same]
    intro c hc
    rw [Function.comp_apply]
    split
    · next hgone =>
        rw [hmissing c hc hgone]
        exact hempty
    · exact keeps_trim c
  · rw [h, names, cellTexts, List.map_map, List.forall₂_map_right_iff, List.forall₂_same]
    intro c _
    exact keeps_trim c

/-! ## Every cell has its place -/

theorem forall₂_of_mapM_some {α β : Type} {f : α → Option β} {items : List α} {values : List β}
    (h : items.mapM f = some values) : List.Forall₂ (fun a b => f a = some b) items values := by
  induction items generalizing values with
  | nil =>
      cases h
      exact .nil
  | cons first rest ih =>
      rw [List.mapM_cons] at h
      obtain ⟨b, hb, h⟩ := Option.bind_eq_some_iff.1 h
      obtain ⟨more, hmore, h⟩ := Option.bind_eq_some_iff.1 h
      cases h
      exact .cons hb (ih hmore)

theorem length_of_mapM {α β : Type} {f : α → Option β} {items : List α} {values : List β}
    (h : items.mapM f = some values) : values.length = items.length :=
  (forall₂_of_mapM_some h).length_eq.symm

theorem size_ofIntegers (ns : List (Option Int)) : (ofIntegers ns).size = ns.length := by
  rw [ofIntegers]
  split
  · next ints hints => exact length_of_mapM hints
  · exact List.length_map _

theorem size_ofTexts (cells : List String) : (ofTexts cells).size = cells.length :=
  List.length_map _

theorem size_flags {column : Column} (h : flags? cells = some column) :
    column.size = cells.length := by
  rw [flags?] at h
  split at h
  · next bs hbs =>
      cases h
      exact length_of_mapM hbs
  · obtain ⟨values, hvalues, rfl⟩ := Option.map_eq_some_iff.1 h
    exact length_of_mapM hvalues

theorem size_ofOtherCells (cells : List String) : (ofOtherCells cells).size = cells.length := by
  rw [ofOtherCells]
  cases hreals : reals? cells with
  | some column =>
      rw [reals?] at hreals
      obtain ⟨xs, hxs, rfl⟩ := Option.map_eq_some_iff.1 hreals
      exact length_of_mapM hxs
  | none =>
      cases hflags : flags? cells with
      | some column => exact size_flags hflags
      | none => exact size_ofTexts cells

theorem size_ofLargeCells (cells : List String) : (ofLargeCells cells).size = cells.length := by
  rw [ofLargeCells]
  split
  · exact size_ofOtherCells cells
  · exact size_ofTexts cells
  · next ns hns =>
      dsimp only
      split
      · exact List.length_map _
      · split
        · exact size_ofTexts cells
        · rw [size_ofIntegers, (forall₂_of_integerCells hns).length_eq]

theorem size_ofCells (cells : List String) : (ofCells cells).size = cells.length := by
  rw [ofCells]
  split
  · next ns hns => rw [size_ofIntegers, (forall₂_of_integerCells hns).length_eq]
  · exact size_ofLargeCells cells
  · exact size_ofOtherCells cells

theorem length_unified (numbers : List Decimal.CellNumber) :
    (unified numbers).length = numbers.length := by
  rw [unified]
  split
  · next ns hns =>
      split
      · rw [List.length_map, length_of_mapM hns]
      · exact List.length_map _
  · exact List.length_map _

theorem length_numbers (column : Column) : column.numbers.length = column.size := by
  cases column <;> simp only [numbers, size, length_unified, List.length_map]

/-! ## Some of the cells -/

section

variable {α β : Type} {marks : List Bool}

theorem marked_map (f : α → β) (items : List α) :
    marked marks (items.map f) = (marked marks items).map f := by
  rw [marked, marked, List.zip_map_right, List.filter_map, List.map_map, List.map_map]
  rfl

theorem mem_marked_map {f : α → Bool} {items : List α} {a : α}
    (ha : a ∈ marked (items.map f) items) : f a = true := by
  induction items with
  | nil => cases ha
  | cons first rest ih =>
      cases hfirst : f first with
      | false =>
          rw [List.map_cons, hfirst] at ha
          exact ih ha
      | true =>
          rw [List.map_cons, hfirst] at ha
          rcases List.mem_cons.1 ha with rfl | ha
          · exact hfirst
          · exact ih ha

theorem forall₂_marked {R : α → β → Prop} {xs : List α} {ys : List β} (h : List.Forall₂ R xs ys) :
    List.Forall₂ R (marked marks xs) (marked marks ys) := by
  induction h generalizing marks with
  | nil => simp [marked]
  | cons hxy _ ih =>
      cases marks with
      | nil => exact .nil
      | cons mark rest =>
          cases mark
          · exact ih
          · exact .cons hxy ih

theorem length_marked {items : List α} (h : marks.length = items.length) :
    (marked marks items).length = marks.count true := by
  induction marks generalizing items with
  | nil => rfl
  | cons mark rest ih =>
      cases items with
      | nil => cases h
      | cons first more =>
          have hlater := ih (Nat.succ.inj h)
          cases mark
          · exact hlater
          · rw [List.count_cons_self, ← hlater]
            rfl

end

theorem size_select {marks : List Bool} {column : Column} (h : marks.length = column.size) :
    (column.select marks).size = marks.count true := by
  cases column <;> exact length_marked h

theorem names_select (marks : List Bool) (column : Column) :
    (column.select marks).names = marked marks column.names := by
  cases column <;> simp only [names, select, cellTexts, marked_map]

end Macc.Column
