import Mathlib.Data.List.DropRight
import Macc.Text.Blank

/-!
# What trimming leaves

Trimming takes characters off both ends of a text and nothing else, so that what
is left stands in the text as it is, and it goes on until there is nothing more
to take. The two ends do not interfere: cutting the back leaves the first
character where it is, unless nothing is left at all. A text whose ends are clean
is its own result, and that every result is such a text is all that trimming
twice has to know.
-/

namespace Macc

namespace Text

variable {p : Char → Bool} {cs : List Char} {c : Char}

theorem dropWhile_of_head? (h : ∀ c ∈ cs.head?, p c = false) : cs.dropWhile p = cs := by
  cases cs with
  | nil => rfl
  | cons c rest =>
      rw [List.dropWhile_cons_of_neg]
      exact ne_true_of_eq_false (h c rfl)

theorem rdropWhile_of_getLast? (h : ∀ c ∈ cs.getLast?, p c = false) : cs.rdropWhile p = cs :=
  List.rdropWhile_eq_self_iff.2 fun hne =>
    ne_true_of_eq_false (h _ (List.getLast_mem_getLast? hne))

theorem trimBy_eq (p : Char → Bool) (cs : List Char) :
    trimBy p cs = (cs.dropWhile p).rdropWhile p :=
  rfl

/-- Only characters with `p` are taken off. -/
theorem exists_trimBy (p : Char → Bool) (cs : List Char) :
    ∃ before after, cs = before ++ (trimBy p cs ++ after) ∧
      (∀ c ∈ before, p c = true) ∧ ∀ c ∈ after, p c = true := by
  refine ⟨cs.takeWhile p, (cs.dropWhile p).rtakeWhile p, ?_, fun c => List.mem_takeWhile_imp,
    fun c => List.mem_rtakeWhile_imp⟩
  rw [trimBy_eq, List.rdropWhile_append_rtakeWhile, List.takeWhile_append_dropWhile]

theorem mem_of_mem_trimBy (h : c ∈ trimBy p cs) : c ∈ cs := by
  obtain ⟨before, after, hcs, -, -⟩ := exists_trimBy p cs
  rw [hcs]
  exact List.mem_append_right before (List.mem_append_left after h)

theorem of_mem_getLast?_trimBy (h : c ∈ (trimBy p cs).getLast?) : p c = false := by
  obtain ⟨hne, rfl⟩ := List.mem_getLast?_eq_getLast h
  exact eq_false_of_ne_true (List.rdropWhile_last_not p (cs.dropWhile p) hne)

theorem of_mem_head?_trimBy (h : c ∈ (trimBy p cs).head?) : p c = false := by
  obtain ⟨rest, hrest⟩ := List.rdropWhile_prefix p (cs.dropWhile p)
  have hhead : (cs.dropWhile p).head? = some c := by
    rw [← hrest, List.head?_append, ← trimBy_eq, h]
    rfl
  have hnot := List.head?_dropWhile_not p cs
  rw [hhead] at hnot
  exact hnot

theorem trimBy_trimBy (p : Char → Bool) (cs : List Char) :
    trimBy p (trimBy p cs) = trimBy p cs := by
  rw [trimBy_eq p (trimBy p cs), dropWhile_of_head? fun _ => of_mem_head?_trimBy,
    rdropWhile_of_getLast? fun _ => of_mem_getLast?_trimBy]

@[simp]
theorem trim_trim (s : String) : trim (trim s) = trim s := by
  rw [trim, trim, String.toList_ofList, trimBy_trimBy]

end Text

end Macc
