import Mathlib.Data.List.Chain
import Macc.Proofs.Trimming
import Macc.Run.OutputName

/-!
# What a given name becomes

A given name is rewritten in steps, each of which sees only what the one before
has left: blanks are cut off, what may not stand in a directory name is replaced,
fillers that have come to stand together are joined, and the ends are cut. What
comes out can be said without any of them. It is made of the longest runs of
characters that are taken over, in their order, with one filler between two.

No step touches a character that is taken over, and none brings two runs
together, since a gap between them leaves at least one filler. So every step
keeps the runs. Where the steps end there is no choice left for what stands
between them, and a text that is in order is given back from its runs alone.
That it is also left as it is by all steps is the same fact once more.
-/

namespace Macc

namespace OutputName

/-! ## Runs -/

/-- The runs of characters with `p` in a text, in order and each as long as it can be: nothing with
`p` stands in the gap before a run, nor next behind it. -/
inductive AreRuns (p : Char → Bool) : List Char → List (List Char) → Prop
  | none {gap : List Char} (hgap : ∀ c ∈ gap, p c = false) : AreRuns p gap []
  | next {gap run rest : List Char} {runs : List (List Char)} (hgap : ∀ c ∈ gap, p c = false)
      (hrun : run ≠ []) (hall : ∀ c ∈ run, p c = true) (hstop : ∀ c ∈ rest.head?, p c = false)
      (hrest : AreRuns p rest runs) : AreRuns p (gap ++ (run ++ rest)) (run :: runs)

/-- The runs of characters with `p`: each such character begins a run or joins the one behind it. -/
def runs (p : Char → Bool) : List Char → List (List Char)
  | [] => []
  | c :: rest =>
    if p c then
      if rest.head?.any p then (runs p rest).modifyHead (c :: ·) else [c] :: runs p rest
    else runs p rest

variable {p : Char → Bool}

theorem runs_cons_of_not {c : Char} (h : p c = false) (rest : List Char) :
    runs p (c :: rest) = runs p rest := by
  rw [runs, h]
  rfl

theorem runs_cons_of_stop {c : Char} (h : p c = true) {rest : List Char}
    (hstop : rest.head?.any p = false) : runs p (c :: rest) = [c] :: runs p rest := by
  rw [runs, h, hstop]
  rfl

theorem runs_cons_of_more {c : Char} (h : p c = true) {rest : List Char}
    (hmore : rest.head?.any p = true) :
    runs p (c :: rest) = (runs p rest).modifyHead (c :: ·) := by
  rw [runs, h, hmore]
  rfl

theorem runs_gap_append {gap : List Char} (h : ∀ c ∈ gap, p c = false) (rest : List Char) :
    runs p (gap ++ rest) = runs p rest := by
  induction gap with
  | nil => rfl
  | cons c gap ih =>
      obtain ⟨hc, hgap⟩ := List.forall_mem_cons.1 h
      rw [List.cons_append, runs_cons_of_not hc, ih hgap]

theorem runs_of_gap {gap : List Char} (h : ∀ c ∈ gap, p c = false) : runs p gap = [] := by
  have happend := runs_gap_append h []
  rwa [List.append_nil] at happend

theorem any_head?_eq_false {cs : List Char} (h : ∀ c ∈ cs.head?, p c = false) :
    cs.head?.any p = false := by
  cases cs with
  | nil => rfl
  | cons c rest => exact h c rfl

theorem runs_append_gap (cs : List Char) {gap : List Char} (h : ∀ c ∈ gap, p c = false) :
    runs p (cs ++ gap) = runs p cs := by
  have hgap : gap.head?.any p = false :=
    any_head?_eq_false fun c hc => h c (List.mem_of_mem_head? hc)
  induction cs with
  | nil => exact runs_of_gap h
  | cons c rest ih =>
      have hhead : (rest ++ gap).head?.any p = rest.head?.any p := by
        cases rest with
        | nil => exact hgap
        | cons d rest => rfl
      rw [List.cons_append, runs, runs, hhead, ih]

theorem runs_run_append {run rest : List Char} (hrun : run ≠ []) (hall : ∀ c ∈ run, p c = true)
    (hstop : ∀ c ∈ rest.head?, p c = false) : runs p (run ++ rest) = run :: runs p rest := by
  induction run with
  | nil => exact absurd rfl hrun
  | cons c run ih =>
      obtain ⟨hc, hmore⟩ := List.forall_mem_cons.1 hall
      cases run with
      | nil => exact runs_cons_of_stop hc (any_head?_eq_false hstop)
      | cons d run =>
          have hd : ((d :: run ++ rest).head?.any p) = true := hmore d List.mem_cons_self
          rw [List.cons_append, runs_cons_of_more hc hd, ih (List.cons_ne_nil d run) hmore]
          rfl

namespace AreRuns

variable {c : Char} {rest : List Char} {pieces : List (List Char)}

/-- A character without `p` in front of a text belongs to the gap there. -/
theorem cons_of_not (hc : p c = false) (h : AreRuns p rest pieces) :
    AreRuns p (c :: rest) pieces := by
  cases h with
  | none hgap => exact .none (List.forall_mem_cons.2 ⟨hc, hgap⟩)
  | next hgap hrun hall hstop hrest =>
      exact .next (List.forall_mem_cons.2 ⟨hc, hgap⟩) hrun hall hstop hrest

/-- A character with `p` in front of a gap is a run of its own. -/
theorem cons_of_stop (hc : p c = true) (hstop : rest.head?.any p = false)
    (h : AreRuns p rest pieces) : AreRuns p (c :: rest) ([c] :: pieces) := by
  refine .next (fun d hd => absurd hd List.not_mem_nil) (List.cons_ne_nil c [])
    (List.forall_mem_singleton.2 hc) (fun d hd => ?_) h
  rw [hd] at hstop
  exact hstop

/-- A character with `p` in front of a run belongs to it. -/
theorem cons_of_more (hc : p c = true) (hmore : rest.head?.any p = true)
    (h : AreRuns p rest pieces) : AreRuns p (c :: rest) (pieces.modifyHead (c :: ·)) := by
  obtain ⟨d, hhead, hd⟩ := (Option.any_eq_true _ _).1 hmore
  cases h with
  | none hgap => exact absurd hd (by rw [hgap d (List.mem_of_mem_head? hhead)]; decide)
  | @next gap run later pieces hgap hrun hall hstop hrest =>
      cases gap with
      | nil =>
          exact .next hgap (List.cons_ne_nil c run) (List.forall_mem_cons.2 ⟨hc, hall⟩) hstop hrest
      | cons e gap =>
          obtain rfl : e = d := Option.some.inj hhead
          rw [hgap e List.mem_cons_self] at hd
          cases hd

end AreRuns

theorem areRuns_runs (cs : List Char) : AreRuns p cs (runs p cs) := by
  induction cs with
  | nil => exact .none fun c hc => absurd hc List.not_mem_nil
  | cons c rest ih =>
      cases hc : p c with
      | false =>
          rw [runs_cons_of_not hc]
          exact ih.cons_of_not hc
      | true =>
          cases hmore : rest.head?.any p with
          | false =>
              rw [runs_cons_of_stop hc hmore]
              exact ih.cons_of_stop hc hmore
          | true =>
              rw [runs_cons_of_more hc hmore]
              exact ih.cons_of_more hc hmore

/-- A text has runs, and no others. -/
theorem areRuns_iff {cs : List Char} {pieces : List (List Char)} :
    AreRuns p cs pieces ↔ runs p cs = pieces := by
  constructor
  · intro h
    induction h with
    | none hgap => exact runs_of_gap hgap
    | next hgap hrun hall hstop _ ih =>
        rw [runs_gap_append hgap, runs_run_append hrun hall hstop, ih]
  · rintro rfl
    exact areRuns_runs cs

/-! ## The steps keep the runs -/

section

variable {q : Char → Bool}

theorem head?_squeeze (cs : List Char) :
    (squeeze q cs).head? = cs.head?.map fun c => if q c then filler else c := by
  induction cs with
  | nil => rfl
  | cons c rest ih =>
      rw [squeeze]
      split
      · next hc =>
          split
          · next hmore =>
              obtain ⟨d, hhead, hd⟩ := (Option.any_eq_true _ _).1 hmore
              rw [ih, hhead]
              simp [hc, hd]
          · simp [hc]
      · next hc => simp [hc]

/-- Squeezing what is not in any run keeps the runs. -/
theorem runs_squeeze (hfiller : p filler = false) (hq : ∀ c, q c = true → p c = false)
    (cs : List Char) : runs p (squeeze q cs) = runs p cs := by
  induction cs with
  | nil => rfl
  | cons c rest ih =>
      have hhead : (squeeze q rest).head?.any p = rest.head?.any p := by
        rw [head?_squeeze]
        cases rest.head? with
        | none => rfl
        | some d =>
            by_cases hd : q d = true
            · simp [hd, hfiller, hq d hd]
            · simp [hd]
      rw [squeeze]
      split
      · next hc =>
          rw [runs_cons_of_not (hq c hc)]
          split
          · exact ih
          · rw [runs_cons_of_not hfiller, ih]
      · rw [runs, runs, hhead, ih]

theorem runs_trimBy (hq : ∀ c, q c = true → p c = false) (cs : List Char) :
    runs p (Text.trimBy q cs) = runs p cs := by
  obtain ⟨before, after, hcs, hbefore, hafter⟩ := Text.exists_trimBy q cs
  conv_rhs => rw [hcs]
  rw [runs_gap_append fun c hc => hq c (hbefore c hc),
    runs_append_gap _ fun c hc => hq c (hafter c hc)]

end

/-! ## Texts in order -/

/-- A letter or digit of ASCII, a point or a hyphen. -/
def isNameChar (c : Char) : Bool :=
  ('A' ≤ c && c ≤ 'Z') || ('a' ≤ c && c ≤ 'z') || ('0' ≤ c && c ≤ '9') || c == '.' || c == '-'

theorem isKept_eq : isKept = isNameChar := by
  funext c
  have hpoint : c = '.' ↔ c.toNat = 46 := Char.toNat_inj.symm
  have hhyphen : c = '-' ↔ c.toNat = 45 := Char.toNat_inj.symm
  rw [Bool.eq_iff_iff]
  simp only [isKept, isNameChar, Char.le_def, UInt32.le_iff_toNat_le, Char.toNat_val,
    Char.reduceToNat, Bool.or_eq_true, Bool.and_eq_true, decide_eq_true_eq, beq_iff_eq, hpoint,
    hhyphen]
  omega

/-- A text of name characters and underscores, of which no two stand together and none at an end. -/
structure IsTidy (cs : List Char) : Prop where
  allowed : ∀ c ∈ cs, isNameChar c = true ∨ c = '_'
  single : cs.IsChain fun c d => c ≠ '_' ∨ d ≠ '_'
  first : cs.head? ≠ some '_'
  last : cs.getLast? ≠ some '_'

theorem dropWhile_of_head? {cs : List Char} (h : cs.head? ≠ some '_') :
    cs.dropWhile (· == '_') = cs := by
  refine Text.dropWhile_of_head? fun c hc => ?_
  rw [beq_eq_false_iff_ne]
  rintro rfl
  exact h hc

theorem head?_ne_of_isNameChar {c : Char} (h : isNameChar c = true) (rest : List Char) :
    (c :: rest).head? ≠ some '_' := by
  rintro ⟨⟩
  cases h

theorem intercalate_modifyHead (c : Char) {pieces : List (List Char)} (h : pieces ≠ []) :
    ['_'].intercalate (pieces.modifyHead (c :: ·)) = c :: ['_'].intercalate pieces := by
  match pieces with
  | [piece] => rfl
  | piece :: next :: more => rfl

theorem ne_nil_of_intercalate {c : Char} {cs : List Char} {pieces : List (List Char)}
    (h : ['_'].intercalate pieces = c :: cs) : pieces ≠ [] := by
  rintro rfl
  cases h

theorem intercalate_cons (piece : List Char) {pieces : List (List Char)} (h : pieces ≠ []) :
    ['_'].intercalate (piece :: pieces) = piece ++ '_' :: ['_'].intercalate pieces := by
  match pieces with
  | next :: more => rw [List.intercalate_cons_cons, List.append_assoc]; rfl

/-- Underscores that stand alone come back with the runs, except for one in front. -/
theorem intercalate_runs {cs : List Char} (hallowed : ∀ c ∈ cs, isNameChar c = true ∨ c = '_')
    (hsingle : cs.IsChain fun c d => c ≠ '_' ∨ d ≠ '_') (hlast : cs.getLast? ≠ some '_') :
    ['_'].intercalate (runs isNameChar cs) = cs.dropWhile (· == '_') := by
  induction cs with
  | nil => rfl
  | cons c rest ih =>
      obtain ⟨hc, hrest⟩ := List.forall_mem_cons.1 hallowed
      obtain ⟨hnext, hchain⟩ := List.isChain_cons.1 hsingle
      have hend : rest.getLast? ≠ some '_' := by
        cases rest with
        | nil => exact nofun
        | cons d rest => rwa [List.getLast?_cons_cons] at hlast
      have ih := ih hrest hchain hend
      rcases hc with hc | rfl
      · rw [dropWhile_of_head? (head?_ne_of_isNameChar hc rest)]
        cases rest with
        | nil =>
            rw [runs_cons_of_stop hc rfl]
            rfl
        | cons d rest =>
            rcases hrest d List.mem_cons_self with hd | rfl
            · have hmore : (d :: rest).head?.any isNameChar = true := hd
              rw [dropWhile_of_head? (head?_ne_of_isNameChar hd rest)] at ih
              rw [runs_cons_of_more hc hmore,
                intercalate_modifyHead c (ne_nil_of_intercalate ih), ih]
            · -- the underscore behind `c` is neither the last character nor followed by another
              have hlater : rest ≠ [] := by
                rintro rfl
                exact hend rfl
              have hhead : rest.head? ≠ some '_' := fun hd =>
                ((List.isChain_cons.1 hchain).1 '_' hd).elim (absurd rfl) (absurd rfl)
              rw [List.dropWhile_cons_of_pos rfl, dropWhile_of_head? hhead] at ih
              obtain ⟨e, more, rfl⟩ := List.exists_cons_of_ne_nil hlater
              rw [runs_cons_of_stop hc rfl, intercalate_cons _ (ne_nil_of_intercalate ih), ih]
              rfl
      · rw [runs_cons_of_not rfl, ih]
        rfl

/-- A text in order is made of its runs, with one underscore between two. -/
theorem IsTidy.intercalate_runs {cs : List Char} (h : IsTidy cs) :
    ['_'].intercalate (runs isNameChar cs) = cs := by
  rw [OutputName.intercalate_runs h.allowed h.single h.last, dropWhile_of_head? h.first]

/-! ## What the steps lead to -/

theorem mem_squeeze {q : Char → Bool} {cs : List Char} {c : Char} (h : c ∈ squeeze q cs) :
    c = filler ∨ c ∈ cs ∧ q c = false := by
  induction cs with
  | nil => cases h
  | cons d rest ih =>
      have hlater : c ∈ squeeze q rest → c = filler ∨ c ∈ d :: rest ∧ q c = false := fun hc =>
        (ih hc).imp_right fun hmem => ⟨List.mem_cons_of_mem d hmem.1, hmem.2⟩
      rw [squeeze] at h
      split at h
      · split at h
        · exact hlater h
        · exact (List.mem_cons.1 h).elim .inl hlater
      · next hd =>
          rcases List.mem_cons.1 h with rfl | hc
          · exact .inr ⟨List.mem_cons_self, eq_false_of_ne_true hd⟩
          · exact hlater hc

/-- Joined fillers stand alone. -/
theorem isChain_collapse (cs : List Char) :
    (collapse cs).IsChain fun c d => c ≠ '_' ∨ d ≠ '_' := by
  rw [collapse]
  induction cs with
  | nil => exact .nil
  | cons c rest ih =>
      rw [squeeze]
      split
      · split
        · exact ih
        · next hstop =>
            refine ih.cons fun d hd => .inr ?_
            rintro rfl
            rw [head?_squeeze, Option.mem_def, Option.map_eq_some_iff] at hd
            obtain ⟨e, hhead, he⟩ := hd
            rw [hhead] at hstop
            split at he
            · next hsame => exact hstop hsame
            · exact hstop (beq_iff_eq.2 he)
      · next hc => exact ih.cons fun d _ => .inl fun hfiller => hc (beq_iff_eq.2 hfiller)

/-- The last two steps bring a text into order in which nothing is left to be replaced. -/
theorem isTidy_trimmed {cs : List Char} (h : ∀ c ∈ cs, isNameChar c = true ∨ c = '_') :
    IsTidy (trimmed (collapse cs)) where
  allowed c hc := by
    rcases mem_squeeze (Text.mem_of_mem_trimBy hc) with hfiller | ⟨hmem, -⟩
    · exact .inr hfiller
    · exact h c hmem
  single := by
    obtain ⟨before, after, hcs, -, -⟩ := Text.exists_trimBy (· == filler) (collapse cs)
    have hchain := isChain_collapse cs
    rw [hcs] at hchain
    exact hchain.right_of_append.left_of_append
  first hfirst := absurd (Text.of_mem_head?_trimBy hfirst) (by decide)
  last hlast := absurd (Text.of_mem_getLast?_trimBy hlast) (by decide)

theorem isTidy_reduce (cs : List Char) : IsTidy (reduce cs) := by
  refine isTidy_trimmed fun c hc => ?_
  rcases mem_squeeze hc with hfiller | ⟨-, hallowed⟩
  · exact .inr hfiller
  · rw [Bool.not_eq_false', isAllowed, Bool.or_eq_true, isKept_eq, beq_iff_eq] at hallowed
    exact hallowed

theorem isNameChar_of_isBlank {c : Char} (h : Text.isBlank c = true) : isNameChar c = false := by
  rw [← isKept_eq, ← Bool.not_eq_true]
  simp only [Text.isBlank, isKept, Bool.or_eq_true, Bool.and_eq_true, decide_eq_true_eq,
    beq_iff_eq] at h ⊢
  omega

theorem isNameChar_of_not_isAllowed {c : Char} (h : (!isAllowed c) = true) :
    isNameChar c = false := by
  rw [isAllowed, Bool.not_eq_true', Bool.or_eq_false_iff, isKept_eq] at h
  exact h.1

theorem runs_reduce (cs : List Char) : runs isNameChar (reduce cs) = runs isNameChar cs := by
  have hfiller : isNameChar filler = false := rfl
  have hown : ∀ c, (c == filler) = true → isNameChar c = false := by
    intro c hc
    rw [beq_iff_eq.1 hc, hfiller]
  rw [reduce, trimmed, runs_trimBy hown, collapse, runs_squeeze hfiller hown,
    runs_squeeze hfiller fun _ => isNameChar_of_not_isAllowed,
    runs_trimBy fun _ => isNameChar_of_isBlank]

theorem reduce_eq (cs : List Char) : reduce cs = ['_'].intercalate (runs isNameChar cs) := by
  rw [← runs_reduce, (isTidy_reduce cs).intercalate_runs]

theorem reduce_eq_nil_iff {cs : List Char} : reduce cs = [] ↔ runs isNameChar cs = [] := by
  rw [← runs_reduce cs]
  constructor
  · intro h
    rw [h]
    rfl
  · intro h
    rw [← (isTidy_reduce cs).intercalate_runs, h]
    rfl

theorem sanitize_eq_error_iff {given : String} {failure : Failure} :
    sanitize given = .error failure ↔
      failure = .outputNameEmpty ∧ runs isNameChar given.toList = [] := by
  rw [← reduce_eq_nil_iff, sanitize]
  split
  · next hnil =>
      rw [Except.error.injEq, eq_comm]
      exact (and_iff_left hnil).symm
  · next hne => exact ⟨nofun, fun h => absurd h.2 hne⟩

theorem sanitize_eq_ok_iff {given name : String} :
    sanitize given = .ok name ↔ name ≠ "" ∧ reduce given.toList = name.toList := by
  rw [sanitize]
  split
  · next hnil =>
      rw [hnil]
      exact ⟨nofun, fun h => absurd (String.toList_eq_nil_iff.1 h.2.symm) h.1⟩
  · next hne =>
      rw [Except.ok.injEq]
      constructor
      · rintro rfl
        rw [String.toList_ofList]
        exact ⟨fun hempty => hne (by simpa using hempty), rfl⟩
      · rintro ⟨-, hname⟩
        rw [hname, String.ofList_toList]

/-- A name that a given one becomes is made of its runs. -/
theorem sanitize_eq_ok_iff_runs {given name : String} :
    sanitize given = .ok name ↔ runs isNameChar given.toList ≠ [] ∧
      name.toList = ['_'].intercalate (runs isNameChar given.toList) := by
  rw [sanitize_eq_ok_iff, ← reduce_eq, ne_eq, ne_eq, ← reduce_eq_nil_iff,
    ← String.toList_eq_nil_iff, eq_comm (a := reduce given.toList) (b := name.toList)]
  exact and_congr_left fun hname => by rw [hname]

/-- A name in order is left as it is. -/
theorem sanitize_of_isTidy {name : String} (hname : name ≠ "") (h : IsTidy name.toList) :
    sanitize name = .ok name := by
  rw [sanitize_eq_ok_iff, reduce_eq, h.intercalate_runs]
  exact ⟨hname, rfl⟩

/-- A given name is refused exactly where it has no run of name characters. Otherwise it becomes its
longest runs of them in order, with one underscore between two; that name is in order, and is left
as it is when it is given again. -/
theorem sanitize_joins_runs (given : String) :
    (∀ failure, sanitize given = .error failure ↔
      failure = .outputNameEmpty ∧ AreRuns isNameChar given.toList []) ∧
    ∀ name,
      (sanitize given = .ok name ↔ ∃ pieces, pieces ≠ [] ∧
        AreRuns isNameChar given.toList pieces ∧ name.toList = ['_'].intercalate pieces) ∧
      (sanitize given = .ok name → name ≠ "" ∧ IsTidy name.toList ∧ sanitize name = .ok name) := by
  refine ⟨fun failure => ?_, fun name => ⟨?_, fun hok => ?_⟩⟩
  · rw [areRuns_iff, sanitize_eq_error_iff]
  · rw [sanitize_eq_ok_iff_runs]
    constructor
    · rintro ⟨hne, hname⟩
      exact ⟨_, hne, areRuns_runs _, hname⟩
    · rintro ⟨pieces, hne, hruns, hname⟩
      rw [areRuns_iff.1 hruns]
      exact ⟨hne, hname⟩
  · obtain ⟨hne, hreduce⟩ := sanitize_eq_ok_iff.1 hok
    have htidy : IsTidy name.toList := hreduce ▸ isTidy_reduce given.toList
    exact ⟨hne, htidy, sanitize_of_isTidy hne htidy⟩

example : sanitize " __My run:\t#1 - é.é_ " = .ok "My_run_1_-_." := by rfl

example : sanitize " _?_ " = .error .outputNameEmpty := by rfl

end OutputName

end Macc
