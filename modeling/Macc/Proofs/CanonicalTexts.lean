import Macc.Proofs.ScalarTexts
import Macc.Value.Reading

/-!
# A value can be read off its canonical text

A list or a table ends at its bracket, and what is in it ends where the value
itself says. So two texts that begin with a value each, and have the same signs,
begin with the same value and go on in the same way. The induction needs this
second half, because what stands behind a value in a list is the rest of the
list.

Tables are written with their keys in order, so the table that is read is one
with the same entries, in another order perhaps. In the other direction the order
of the keys has to be settled by the keys alone: each key stands in a table
once.
-/

namespace Macc.Value

/-! ## Values that are the same but for the order of keys -/

/-- Whether two values differ at most in the order of the keys of the tables in them. -/
inductive Rearranged : Value → Value → Prop
  | null : Rearranged .null .null
  | bool (b : Bool) : Rearranged (.bool b) (.bool b)
  | int (n : ℤ) : Rearranged (.int n) (.int n)
  | float (x : Float) : Rearranged (.float x) (.float x)
  | text (s : String) : Rearranged (.text s) (.text s)
  | list {items others : List Value} (each : List.Forall₂ Rearranged items others) :
      Rearranged (.list items) (.list others)
  /-- In some order, the entries of the two tables have the same keys, and such values under them. -/
  | table {entries others arranged arranged' : List (String × Value)}
      (order : entries.Perm arranged) (order' : others.Perm arranged')
      (keys : arranged.map (·.1) = arranged'.map (·.1))
      (values : List.Forall₂ Rearranged (arranged.map (·.2)) (arranged'.map (·.2))) :
      Rearranged (.table entries) (.table others)

/-- A value without dates in it, in which each table has each of its keys once. -/
inductive IsPlain : Value → Prop
  | null : IsPlain .null
  | bool (b : Bool) : IsPlain (.bool b)
  | int (n : ℤ) : IsPlain (.int n)
  | float (x : Float) : IsPlain (.float x)
  | text (s : String) : IsPlain (.text s)
  | list {items : List Value} (each : ∀ v ∈ items, IsPlain v) : IsPlain (.list items)
  | table {entries : List (String × Value)} (keys : (entries.map (·.1)).Nodup)
      (each : ∀ e ∈ entries, IsPlain e.2) : IsPlain (.table entries)

attribute [simp] IsPlain.null IsPlain.bool IsPlain.int IsPlain.float IsPlain.text

@[simp]
theorem isPlain_list_iff {items : List Value} :
    IsPlain (.list items) ↔ ∀ v ∈ items, IsPlain v := by
  constructor
  · rintro ⟨⟩
    assumption
  · exact .list

@[simp]
theorem isPlain_table_iff {entries : List (String × Value)} :
    IsPlain (.table entries) ↔ (entries.map (·.1)).Nodup ∧ ∀ e ∈ entries, IsPlain e.2 := by
  constructor
  · rintro ⟨⟩
    exact ⟨‹_›, ‹_›⟩
  · rintro ⟨keys, each⟩
    exact .table keys each

/-! ## Lists and tables -/

/-- The signs of an entry of a table. -/
def entryChars (e : String × Value) : List Char :=
  (Text.canonical e.1).toList ++ ':' :: e.2.canonical.toList

/-- Entries with their keys in order. -/
def sorted (entries : List (String × Value)) : List (String × Value) :=
  entries.mergeSort fun e f => e.1 ≤ f.1

theorem perm_sorted (entries : List (String × Value)) : entries.Perm (sorted entries) :=
  (List.mergeSort_perm entries _).symm

theorem canonicalItems_eq_map (items : List Value) : canonicalItems items = items.map canonical := by
  induction items with
  | nil => rfl
  | cons v rest ih => rw [canonicalItems, ih, List.map_cons]

theorem canonicalPairs_eq_map (entries : List (String × Value)) :
    canonicalPairs entries = entries.map fun e => (e.1, e.2.canonical) := by
  induction entries with
  | nil => rfl
  | cons e rest ih =>
      obtain ⟨key, v⟩ := e
      rw [canonicalPairs, ih, List.map_cons]

theorem toList_canonical_list (items : List Value) :
    (canonical (.list items)).toList =
      '[' :: ([','].intercalate (items.map fun v => v.canonical.toList) ++ [']']) := by
  rw [canonical, canonicalItems_eq_map, String.toList_append, String.toList_append,
    String.toList_intercalate, List.map_map]
  rfl

theorem toList_canonical_table (entries : List (String × Value)) :
    (canonical (.table entries)).toList =
      '\x7b' :: ([','].intercalate ((sorted entries).map entryChars) ++ ['\x7d']) := by
  have hsorted : (canonicalPairs entries).mergeSort (fun a b => a.1 ≤ b.1) =
      (sorted entries).map fun e => (e.1, e.2.canonical) := by
    rw [canonicalPairs_eq_map, sorted]
    exact (List.map_mergeSort (r := fun e f : String × Value => e.1 ≤ f.1)
      (s := fun a b : String × String => a.1 ≤ b.1)
      (f := fun e : String × Value => (e.1, e.2.canonical)) fun _ _ _ _ => rfl).symm
  have hentry : (String.toList ∘ fun e : String × String => Text.canonical e.1 ++ ":" ++ e.2) ∘
      (fun e : String × Value => (e.1, e.2.canonical)) = entryChars := by
    funext e
    simp [entryChars]
  rw [canonical, canonicalEntries, hsorted, String.toList_append, String.toList_append,
    String.toList_intercalate, List.map_map, List.map_map, hentry]
  rfl

section

variable {α : Type} {enc : α → List Char} {R : α → α → Prop} {close : Char} {x y : List Char}

theorem intercalate_map_cons (enc : α → List Char) (a : α) (rest : List α) :
    [','].intercalate ((a :: rest).map enc) = enc a ++ rest.flatMap fun b => ',' :: enc b := by
  induction rest generalizing a with
  | nil => simp
  | cons b rest ih =>
      rw [List.map_cons, List.map_cons, List.intercalate_cons_cons, ← List.map_cons, ih,
        List.flatMap_cons, List.append_assoc]
      rfl

theorem stops_rest (hclose : close ∈ [']', '\x7d']) (rest : List α) :
    Stops (rest.flatMap (fun b => ',' :: enc b) ++ close :: x) := by
  intro c hc
  cases rest with
  | nil =>
      cases hc
      exact List.mem_cons_of_mem _ hclose
  | cons b rest =>
      cases hc
      exact List.mem_cons_self

/-- What comes behind the first item of a list is read item by item. -/
theorem rest_append_inj (hclose : close ∈ [']', '\x7d']) {as bs : List α}
    (heach : ∀ a ∈ as, ∀ b ∈ bs, ∀ x y, Stops x → Stops y → enc a ++ x = enc b ++ y →
      R a b ∧ x = y)
    (h : as.flatMap (fun b => ',' :: enc b) ++ close :: x =
      bs.flatMap (fun b => ',' :: enc b) ++ close :: y) : List.Forall₂ R as bs ∧ x = y := by
  have hcomma : ',' ≠ close := by
    rintro rfl
    exact absurd hclose (by decide)
  induction as generalizing bs with
  | nil =>
      cases bs with
      | nil => exact ⟨.nil, (List.cons_inj_right _).1 h⟩
      | cons b bs => exact absurd (List.cons.inj h).1.symm hcomma
  | cons a as ih =>
      cases bs with
      | nil => exact absurd (List.cons.inj h).1 hcomma
      | cons b bs =>
          rw [List.flatMap_cons, List.flatMap_cons, List.cons_append, List.cons_append,
            List.cons_append, List.cons_append, List.append_assoc, List.append_assoc] at h
          obtain ⟨hab, hrest⟩ := heach a List.mem_cons_self b List.mem_cons_self _ _
            (stops_rest hclose as) (stops_rest hclose bs) (List.cons.inj h).2
          obtain ⟨hall, hxy⟩ := ih (fun a ha b hb => heach a (List.mem_cons_of_mem _ ha) b
            (List.mem_cons_of_mem _ hb)) hrest
          exact ⟨.cons hab hall, hxy⟩

/-- A list is read item by item up to its bracket, if no item begins with one. -/
theorem intercalate_append_inj (hclose : close ∈ [']', '\x7d']) {as bs : List α}
    (heach : ∀ a ∈ as, ∀ b ∈ bs, ∀ x y, Stops x → Stops y → enc a ++ x = enc b ++ y →
      R a b ∧ x = y)
    (hfirst : ∀ a, ∀ rest rest', enc a ++ rest ≠ close :: rest')
    (h : [','].intercalate (as.map enc) ++ close :: x =
      [','].intercalate (bs.map enc) ++ close :: y) : List.Forall₂ R as bs ∧ x = y := by
  cases as with
  | nil =>
      cases bs with
      | nil => exact ⟨.nil, (List.cons_inj_right _).1 h⟩
      | cons b bs =>
          rw [intercalate_map_cons, List.append_assoc] at h
          exact absurd h.symm (hfirst b _ _)
  | cons a as =>
      cases bs with
      | nil =>
          rw [intercalate_map_cons, List.append_assoc] at h
          exact absurd h (hfirst a _ _)
      | cons b bs =>
          rw [intercalate_map_cons, intercalate_map_cons, List.append_assoc,
            List.append_assoc] at h
          obtain ⟨hab, hrest⟩ := heach a List.mem_cons_self b List.mem_cons_self _ _
            (stops_rest hclose as) (stops_rest hclose bs) h
          obtain ⟨hall, hxy⟩ := rest_append_inj hclose (fun a ha b hb =>
            heach a (List.mem_cons_of_mem _ ha) b (List.mem_cons_of_mem _ hb)) hrest
          exact ⟨.cons hab hall, hxy⟩

end

/-! ## Where a value begins -/

/-- The sign that a value begins with, and a letter for all of those that are words. -/
def opening : Value → Char
  | .list _ => '['
  | .table _ => '\x7b'
  | .null | .bool _ | .int _ | .float _ => 'w'
  | _ => '"'

/-- What the first sign of a text says about the value. -/
def openingOf (c : Char) : Char :=
  if isWordSign c then 'w' else c

theorem Word.exists_opening {v : Value} {t : List Char} (h : Word v t) :
    ∃ c rest, v.canonical.toList = c :: rest ∧ openingOf c = 'w' := by
  obtain ⟨hne, hsigns⟩ := h.signs
  obtain ⟨c, rest, rfl⟩ := List.exists_cons_of_ne_nil hne
  exact ⟨c, rest, h.toList_canonical, if_pos (hsigns c List.mem_cons_self)⟩

theorem exists_opening (v : Value) :
    ∃ c rest, v.canonical.toList = c :: rest ∧ openingOf c = opening v := by
  have hquoted : ∀ s : String, ∃ c rest, (Text.canonical s).toList = c :: rest ∧
      openingOf c = '"' :=
    fun s => ⟨'"', _, Text.toList_canonical s, rfl⟩
  cases v with
  | null => exact Word.null.exists_opening
  | bool b =>
      cases b with
      | true => exact Word.yes.exists_opening
      | false => exact Word.no.exists_opening
  | int n => exact (Word.int n).exists_opening
  | float x => exact (Word.float x).exists_opening
  | text s => exact hquoted s
  | list items => exact ⟨'[', _, toList_canonical_list items, rfl⟩
  | table entries => exact ⟨'\x7b', _, toList_canonical_table entries, rfl⟩
  | date d => exact hquoted d.text
  | time t => exact hquoted t.text
  | moment m => exact hquoted m.text

/-- Texts that begin alike begin with values of one kind. -/
theorem opening_eq {v w : Value} {x y : List Char}
    (h : v.canonical.toList ++ x = w.canonical.toList ++ y) : opening v = opening w := by
  obtain ⟨c, rest, hv, hc⟩ := exists_opening v
  obtain ⟨d, rest', hw, hd⟩ := exists_opening w
  rw [hv, hw] at h
  rw [← hc, ← hd, (List.cons.inj h).1]

/-- No value begins with a closing bracket. -/
theorem canonical_ne_close (v : Value) (rest rest' : List Char) :
    v.canonical.toList ++ rest ≠ ']' :: rest' := by
  intro h
  obtain ⟨c, signs, hv, hc⟩ := exists_opening v
  rw [hv] at h
  have hnot : opening v ≠ ']' := by
    cases v <;> simp [opening]
  rw [(List.cons.inj h).1] at hc
  exact hnot hc.symm

theorem entryChars_ne_close (e : String × Value) (rest rest' : List Char) :
    entryChars e ++ rest ≠ '\x7d' :: rest' := by
  rw [entryChars, Text.toList_canonical]
  intro h
  exact absurd (List.cons.inj h).1 (by decide)

/-! ## Reading a value -/

/-- A word is read as the value it stands for. -/
theorem Word.canonical_append_inj {v w : Value} {t x y : List Char} (h : Word v t)
    (hword : opening v = 'w') (hx : Stops x) (hy : Stops y)
    (htext : v.canonical.toList ++ x = w.canonical.toList ++ y) : v = w ∧ x = y := by
  have hopening := opening_eq htext
  rw [hword] at hopening
  rw [h.toList_canonical] at htext
  cases w with
  | null => exact h.append_inj .null hx hy htext
  | bool b =>
      cases b with
      | true => exact h.append_inj .yes hx hy htext
      | false => exact h.append_inj .no hx hy htext
  | int n => exact h.append_inj (.int n) hx hy htext
  | float z => exact h.append_inj (.float z) hx hy htext
  | text s => cases hopening
  | list items => cases hopening
  | table entries => cases hopening
  | date d => cases hopening
  | time t => cases hopening
  | moment m => cases hopening

/-- An entry is read as its key and its value. -/
theorem entryChars_append_inj {e f : String × Value} {x y : List Char}
    (h : entryChars e ++ x = entryChars f ++ y) :
    e.1 = f.1 ∧ e.2.canonical.toList ++ x = f.2.canonical.toList ++ y := by
  rw [entryChars, entryChars, List.append_assoc, List.append_assoc] at h
  obtain ⟨hkey, hvalue⟩ := Text.canonical_append_inj h
  exact ⟨hkey, (List.cons.inj hvalue).2⟩

theorem Rearranged.of_sorted {entries others : List (String × Value)}
    (h : List.Forall₂ (fun e f => e.1 = f.1 ∧ Rearranged e.2 f.2) (sorted entries)
      (sorted others)) : Rearranged (.table entries) (.table others) := by
  refine .table (perm_sorted entries) (perm_sorted others) ?_ ?_
  · rw [← List.forall₂_eq_eq_eq, List.forall₂_map_left_iff, List.forall₂_map_right_iff]
    exact h.imp fun _ _ hef => hef.1
  · rw [List.forall₂_map_left_iff, List.forall₂_map_right_iff]
    exact h.imp fun _ _ hef => hef.2

/-- Texts that begin with plain values and are the same begin with values that differ at most in the
order of keys, and go on in the same way. -/
theorem canonical_append_inj {v w : Value} (hv : IsPlain v) (hw : IsPlain w) {x y : List Char}
    (hx : Stops x) (hy : Stops y) (h : v.canonical.toList ++ x = w.canonical.toList ++ y) :
    Rearranged v w ∧ x = y := by
  induction hv generalizing w x y with
  | null =>
      obtain ⟨rfl, hxy⟩ := Word.null.canonical_append_inj rfl hx hy h
      exact ⟨.null, hxy⟩
  | bool b =>
      obtain ⟨t, hword⟩ : ∃ t, Word (.bool b) t := by
        cases b
        · exact ⟨_, .no⟩
        · exact ⟨_, .yes⟩
      obtain ⟨rfl, hxy⟩ := hword.canonical_append_inj rfl hx hy h
      exact ⟨.bool b, hxy⟩
  | int n =>
      obtain ⟨rfl, hxy⟩ := (Word.int n).canonical_append_inj rfl hx hy h
      exact ⟨.int n, hxy⟩
  | float z =>
      obtain ⟨rfl, hxy⟩ := (Word.float z).canonical_append_inj rfl hx hy h
      exact ⟨.float z, hxy⟩
  | text s =>
      have hopening := opening_eq h
      cases hw with
      | text s' =>
          obtain ⟨rfl, hxy⟩ := Text.canonical_append_inj h
          exact ⟨.text s, hxy⟩
      | _ => cases hopening
  | @list items each ih =>
      have hopening := opening_eq h
      cases hw with
      | @list others each' =>
          rw [toList_canonical_list, toList_canonical_list, List.cons_append, List.cons_append,
            List.append_assoc, List.append_assoc] at h
          obtain ⟨hall, hxy⟩ := intercalate_append_inj (by decide)
            (fun a ha b hb x y hx hy hab => ih a ha (each' b hb) hx hy hab) canonical_ne_close
            (List.cons.inj h).2
          exact ⟨.list hall, hxy⟩
      | _ => cases hopening
  | @table entries keys each ih =>
      have hopening := opening_eq h
      cases hw with
      | @table others keys' each' =>
          rw [toList_canonical_table, toList_canonical_table, List.cons_append, List.cons_append,
            List.append_assoc, List.append_assoc] at h
          have hentry : ∀ e ∈ sorted entries, ∀ f ∈ sorted others, ∀ x y, Stops x → Stops y →
              entryChars e ++ x = entryChars f ++ y →
                (e.1 = f.1 ∧ Rearranged e.2 f.2) ∧ x = y := by
            intro e he f hf x y hx hy hef
            obtain ⟨hkey, hvalue⟩ := entryChars_append_inj hef
            obtain ⟨hsame, hxy⟩ := ih e ((perm_sorted entries).mem_iff.2 he)
              (each' f ((perm_sorted others).mem_iff.2 hf)) hx hy hvalue
            exact ⟨⟨hkey, hsame⟩, hxy⟩
          obtain ⟨hall, hxy⟩ := intercalate_append_inj (by decide) hentry entryChars_ne_close
            (List.cons.inj h).2
          exact ⟨.of_sorted hall, hxy⟩
      | _ => cases hopening

/-! ## Writing a rearranged value -/

theorem map_eq_of_rearranged {β : Type} {g : Value → β} {items others : List Value}
    (heach : ∀ v ∈ items, ∀ w, Rearranged v w → g v = g w)
    (h : List.Forall₂ Rearranged items others) : items.map g = others.map g := by
  induction h with
  | nil => rfl
  | @cons v w items others hvw _ ih =>
      rw [List.map_cons, List.map_cons, heach v List.mem_cons_self w hvw,
        ih fun v hv => heach v (List.mem_cons_of_mem _ hv)]

/-- What is made of the keys and the values of a table, up to the order, is the same for tables that
are rearranged. -/
theorem perm_pairs_of_rearranged {β : Type} {g : Value → β} {entries others : List (String × Value)}
    (heach : ∀ e ∈ entries, ∀ w, Rearranged e.2 w → g e.2 = g w)
    (h : Rearranged (.table entries) (.table others)) :
    (entries.map fun e => (e.1, g e.2)).Perm (others.map fun e => (e.1, g e.2)) := by
  cases h with
  | @table _ _ arranged arranged' order order' keys values =>
      have hvalues : (arranged.map (·.2)).map g = (arranged'.map (·.2)).map g := by
        refine map_eq_of_rearranged (fun v hv w hvw => ?_) values
        obtain ⟨e, he, rfl⟩ := List.mem_map.1 hv
        exact heach e (order.mem_iff.2 he) w hvw
      have hpairs : (arranged.map fun e => (e.1, g e.2)) = arranged'.map fun e => (e.1, g e.2) := by
        rw [List.map_map, List.map_map] at hvalues
        rw [← List.zip_map', ← List.zip_map', keys]
        exact congrArg _ hvalues
      exact (order.map _).trans (hpairs ▸ (order'.map _).symm)

/-- The order of the keys settles the order of the entries, if each key is there once. -/
theorem mergeSort_eq_of_perm {as bs : List (String × String)} (h : as.Perm bs)
    (hkeys : (as.map (·.1)).Nodup) :
    (as.mergeSort fun a b => a.1 ≤ b.1) = bs.mergeSort fun a b => a.1 ≤ b.1 := by
  have htrans : ∀ a b c : String × String, decide (a.1 ≤ b.1) = true → decide (b.1 ≤ c.1) = true →
      decide (a.1 ≤ c.1) = true := by
    intro a b c hab hbc
    rw [decide_eq_true_iff] at hab hbc ⊢
    exact String.le_trans hab hbc
  have htotal : ∀ a b : String × String, (decide (a.1 ≤ b.1) || decide (b.1 ≤ a.1)) = true := by
    intro a b
    rw [Bool.or_eq_true, decide_eq_true_iff, decide_eq_true_iff]
    exact String.le_total a.1 b.1
  refine List.Perm.eq_of_pairwise (fun a b ha hb hab hba => ?_)
    (List.pairwise_mergeSort htrans htotal as) (List.pairwise_mergeSort htrans htotal bs)
    ((List.mergeSort_perm as _).trans (h.trans (List.mergeSort_perm bs _).symm))
  rw [decide_eq_true_iff] at hab hba
  exact List.inj_on_of_nodup_map hkeys ((List.mergeSort_perm as _).mem_iff.1 ha)
    (h.mem_iff.2 ((List.mergeSort_perm bs _).mem_iff.1 hb)) (String.le_antisymm hab hba)

/-- Plain values that differ at most in the order of keys have one text. -/
theorem canonical_eq_of_rearranged {v w : Value} (hv : IsPlain v) (h : Rearranged v w) :
    v.canonical = w.canonical := by
  induction hv generalizing w with
  | @list items each ih =>
      cases h with
      | list hall =>
          rw [canonical, canonical, canonicalItems_eq_map, canonicalItems_eq_map,
            map_eq_of_rearranged (fun v hv w hvw => ih v hv hvw) hall]
  | @table entries keys each ih =>
      have hkeys : ((entries.map fun e => (e.1, e.2.canonical)).map (·.1)).Nodup := by
        rw [List.map_map]
        exact keys
      cases w with
      | table others =>
          have hpairs := perm_pairs_of_rearranged (fun e he w hvw => ih e he hvw) h
          rw [canonical, canonical, canonicalEntries, canonicalEntries, canonicalPairs_eq_map,
            canonicalPairs_eq_map, mergeSort_eq_of_perm hpairs hkeys]
      | _ => cases h
  | _ =>
      cases h
      rfl

/-- The canonical texts of plain values are the same exactly if the values differ at most in the order
of the keys in them. -/
theorem canonical_eq_iff {v w : Value} (hv : IsPlain v) (hw : IsPlain w) :
    v.canonical = w.canonical ↔ Rearranged v w := by
  refine ⟨fun h => ?_, canonical_eq_of_rearranged hv⟩
  have hnothing : Stops [] := fun c hc => by cases hc
  exact (canonical_append_inj hv hw hnothing hnothing (by rw [h])).1

theorem Rearranged.refl {v : Value} (hv : IsPlain v) : Rearranged v v :=
  (canonical_eq_iff hv hv).1 rfl

theorem Rearranged.kind {v w : Value} (h : Rearranged v w) : v.kind = w.kind := by
  cases h <;> rfl

theorem areWritable_eq_all (items : List Value) : areWritable items = items.all isWritable := by
  induction items with
  | nil => rfl
  | cons v rest ih => rw [areWritable, ih, List.all_cons]

theorem entriesWritable_eq_all (entries : List (String × Value)) :
    entriesWritable entries = entries.all fun e => e.2.isWritable := by
  induction entries with
  | nil => rfl
  | cons e rest ih =>
      obtain ⟨key, v⟩ := e
      rw [entriesWritable, ih, List.all_cons]

/-- Rearranging does not change whether a value can be written. -/
theorem isWritable_eq_of_rearranged {v w : Value} (hv : IsPlain v) (h : Rearranged v w) :
    v.isWritable = w.isWritable := by
  induction hv generalizing w with
  | @list items each ih =>
      cases h with
      | @list _ others hall =>
          have hmap := map_eq_of_rearranged (fun v hv w hvw => ih v hv hvw) hall
          have hwritable := congrArg (List.all · id) hmap
          rw [List.all_map, List.all_map] at hwritable
          rw [isWritable, isWritable, areWritable_eq_all, areWritable_eq_all]
          exact hwritable
  | @table entries keys each ih =>
      cases w with
      | table others =>
          have hpairs := perm_pairs_of_rearranged (fun e he w hvw => ih e he hvw) h
          have hwritable := hpairs.all_eq (f := fun e => e.2)
          rw [List.all_map, List.all_map] at hwritable
          rw [isWritable, isWritable, entriesWritable_eq_all, entriesWritable_eq_all]
          exact hwritable
      | _ => cases h
  | _ =>
      cases h
      rfl

end Macc.Value
