import Macc.Proofs.CanonicalTexts
import Macc.Run.Settings

/-!
# What a fingerprint depends on

A fingerprint is made of the canonical text of a configuration without the key
that would name the run, so all that is said about such texts is said about what
is digested: two configurations have the same text exactly if they differ at
most in that key and in the order of keys, at any depth. An integer is not a
flag, a number with a point is not one without, and the two zeros differ.

Not every configuration has a text. An integer with too many digits has none,
although a document may hold one, and then there is no fingerprint and no
directory either. Depth is no obstacle here: lists and tables are written however
deeply they are nested.
-/

namespace Macc.Fingerprint

open Value (IsPlain Rearranged)

theorem isPlain_relevant {config : List (String × Value)} (h : IsPlain (.table config)) :
    IsPlain (.table (relevant config)) := by
  rw [Value.isPlain_table_iff] at h ⊢
  exact ⟨h.1.sublist (List.filter_sublist.map _), fun e he => h.2 e (List.mem_of_mem_filter he)⟩

/-- A configuration that has a text has its canonical one. -/
theorem text_eq_ok_iff {config : List (String × Value)} {t : String} :
    text config = .ok t ↔
      (Value.table (relevant config)).isWritable = true ∧
        (Value.table (relevant config)).canonical = t := by
  rw [text]
  split
  · next h => simp [h]
  · next h => simp [h]

/-- Rearranged configurations have the same text, or both have none. -/
theorem text_eq_of_rearranged {a b : List (String × Value)} (ha : IsPlain (.table a))
    (h : Rearranged (.table (relevant a)) (.table (relevant b))) : text a = text b := by
  have hplain := isPlain_relevant ha
  rw [text, text, Value.isWritable_eq_of_rearranged hplain h, Value.canonical_eq_of_rearranged hplain h]

/-- Neither the start of a run nor its configuration names its directory. -/
structure Unnamed (options : RunOptions) (config : List (String × Value)) : Prop where
  options : RunSettings.isGiven options.outputName = false
  config : RunSettings.isGiven ((Entries.get? config nameKey).getD .null) = false

/-- The directory of such a run is named after the fingerprint. -/
theorem folderOf_unnamed {options : RunOptions} {config : List (String × Value)}
    (h : Unnamed options config) :
    RunSettings.folderOf options config = (return "mac_" ++ (← ofEntries config)) := by
  rw [RunSettings.folderOf, h.options, if_neg Bool.false_ne_true, h.config,
    if_neg Bool.false_ne_true]

/-- A plain configuration has a text exactly if all its integers can be written, and the texts of two
are the same exactly if they differ at most in the name of the run and in the order of keys. If they do
not differ in more, runs without a name get directories of one name. -/
theorem text_eq_iff_rearranged {a b : List (String × Value)} (ha : IsPlain (.table a))
    (hb : IsPlain (.table b)) :
    ((∃ t, text a = .ok t) ↔ (Value.table (relevant a)).isWritable = true) ∧
      (∀ t u, text a = .ok t → text b = .ok u →
        (t = u ↔ Rearranged (.table (relevant a)) (.table (relevant b)))) ∧
      (Rearranged (.table (relevant a)) (.table (relevant b)) → ∀ options options',
        Unnamed options a → Unnamed options' b →
          RunSettings.folderOf options a = RunSettings.folderOf options' b) := by
  refine ⟨⟨?_, ?_⟩, fun t u ht hu => ?_, fun h options options' hunnamed hunnamed' => ?_⟩
  · rintro ⟨t, ht⟩
    exact (text_eq_ok_iff.1 ht).1
  · exact fun h => ⟨_, text_eq_ok_iff.2 ⟨h, rfl⟩⟩
  · rw [← (text_eq_ok_iff.1 ht).2, ← (text_eq_ok_iff.1 hu).2]
    exact Value.canonical_eq_iff (isPlain_relevant ha) (isPlain_relevant hb)
  · rw [folderOf_unnamed hunnamed, folderOf_unnamed hunnamed', ofEntries, ofEntries,
      text_eq_of_rearranged ha h]

/-- A configuration with an empty name. -/
def shown : List (String × Value) :=
  [("limits", .table [("low", .int 1), ("high", .int 5)]), ("strict", .bool false),
    ("output_name", .text "")]

/-- The same with its keys in another order, and those of the table in it too. -/
def reordered : List (String × Value) :=
  [("strict", .bool false), ("limits", .table [("high", .int 5), ("low", .int 1)])]

/-- The same with an integer for the flag. -/
def numbered : List (String × Value) :=
  [("strict", .int 0), ("limits", .table [("high", .int 5), ("low", .int 1)])]

theorem relevant_shown : relevant shown =
    [("limits", .table [("low", .int 1), ("high", .int 5)]), ("strict", .bool false)] := by
  simp [relevant, shown, nameKey]

theorem relevant_reordered : relevant reordered = reordered := by
  simp [relevant, reordered, nameKey]

theorem relevant_numbered : relevant numbered = numbered := by
  simp [relevant, numbered, nameKey]

theorem isPlain_shown : IsPlain (.table shown) := by
  simp [shown]

theorem isPlain_reordered : IsPlain (.table reordered) := by
  simp [reordered]

theorem isPlain_numbered : IsPlain (.table numbered) := by
  simp [numbered]

theorem rearranged_shown :
    Rearranged (.table (relevant shown)) (.table (relevant reordered)) := by
  rw [relevant_shown, relevant_reordered]
  have hlimits : Rearranged (.table [("low", .int 1), ("high", .int 5)])
      (.table [("high", .int 5), ("low", .int 1)]) :=
    .table (.refl _) (.swap _ _ _) rfl (.cons (.int 1) (.cons (.int 5) .nil))
  exact .table (.refl _) (.swap _ _ _) rfl (.cons hlimits (.cons (.bool false) .nil))

theorem not_rearranged_numbered :
    ¬ Rearranged (.table (relevant shown)) (.table (relevant numbered)) := by
  intro h
  have hkinds := Value.perm_pairs_of_rearranged (fun e he w hw => hw.kind) h
  rw [relevant_shown, relevant_numbered] at hkinds
  exact absurd hkinds (by decide)

/-- The order of keys makes no difference, the flag does. -/
theorem text_eq_iff_rearranged_shown :
    (∃ t, text shown = .ok t) ∧
      (∀ t u, text shown = .ok t → text reordered = .ok u → t = u) ∧
      (∀ t u, text shown = .ok t → text numbered = .ok u → t ≠ u) ∧
      RunSettings.folderOf ⟨false, .null⟩ shown = RunSettings.folderOf ⟨true, .null⟩ reordered := by
  obtain ⟨hwritten, hsame, hfolder⟩ := text_eq_iff_rearranged isPlain_shown isPlain_reordered
  obtain ⟨-, hother, -⟩ := text_eq_iff_rearranged isPlain_shown isPlain_numbered
  exact ⟨hwritten.2 (by decide +kernel), fun t u ht hu => (hsame t u ht hu).2 rearranged_shown,
    fun t u ht hu htu => not_rearranged_numbered ((hother t u ht hu).1 htu),
    hfolder rearranged_shown _ _ ⟨rfl, by decide +kernel⟩ ⟨rfl, by decide +kernel⟩⟩

/-- An integer with too many digits leaves a configuration without a text. -/
theorem text_eq_error_of_mem {config : List (String × Value)} {key : String} {n : ℤ}
    (hmem : (key, .int n) ∈ relevant config)
    (h : Nat.pow 10 Decimal.integerDigitLimit ≤ n.natAbs) :
    text config = .error .unwritableInteger := by
  rw [text, if_neg]
  rw [Value.isWritable, Value.entriesWritable_eq_all, List.all_eq_true]
  intro hall
  have hwritable := hall _ hmem
  rw [Value.isWritable, decide_eq_true_iff] at hwritable
  exact absurd h (Nat.not_le.2 hwritable)

/-- A configuration with an integer in it. -/
def withInteger (n : ℤ) : List (String × Value) :=
  [("years", .list [.int 2005]), ("big", .int n)]

theorem isPlain_withInteger (n : ℤ) : IsPlain (.table (withInteger n)) := by
  simp [withInteger]

theorem mem_relevant_withInteger (n : ℤ) : ("big", .int n) ∈ relevant (withInteger n) := by
  simp [relevant, withInteger, nameKey]

/-- The least natural with one digit too many. -/
def tooLong : Nat := Nat.pow 10 Decimal.integerDigitLimit

/-- With one digit too many a configuration is the same as itself, but it has no text. -/
theorem text_unwritable :
    IsPlain (.table (withInteger tooLong)) ∧
      Rearranged (.table (relevant (withInteger tooLong)))
        (.table (relevant (withInteger tooLong))) ∧
      ¬ ∃ t, text (withInteger tooLong) = .ok t := by
  have hplain := isPlain_withInteger tooLong
  have hlong : Nat.pow 10 Decimal.integerDigitLimit ≤ (tooLong : ℤ).natAbs := by
    rw [Int.natAbs_natCast]
    unfold tooLong
    exact Nat.le_refl _
  have hnone := text_eq_error_of_mem (mem_relevant_withInteger tooLong) hlong
  refine ⟨hplain, .refl (isPlain_relevant hplain), ?_⟩
  rintro ⟨t, ht⟩
  rw [hnone] at ht
  cases ht

end Macc.Fingerprint
