import Macc.Proofs.AcceptedRuns

/-!
# Runs one after the other

Each run looks for its directory in the files that the runs before it have left.
Directories are only ever added, so a directory that a run was given is still
there when a later one looks, and the later one is given a place at which
nothing stood. That is all it takes for the directories of any two runs to
differ, whatever their names are: no argument about names is needed, and a name
that looks like another one with a number behind it does no harm.

A name may be short enough for itself and too long for a number. Then a second
run under it fails, although no number is taken.

The files are a tree of directories and files that the runs may add to. A symbolic
link that leads nowhere would count as free and could not be made a directory, and
neither could a path that is too long as a whole; neither occurs in such a tree.
-/

namespace Macc

namespace RunSettings

variable {w : World} {options : RunOptions} {path dir : Path} {folder : String}

/-! ## A sequence of runs -/

/-- A run that is started with its options and its configuration. -/
structure Launch where
  options : RunOptions
  path : Path

/-- What comes of a run, and the world that it leaves. -/
def Launch.result (run : Launch) (w : World) : Except Failure RunSettings × World :=
  (prepare run.options .fresh run.path).result w

/-- The world that runs leave which are started one after the other. -/
def worldAfter (w : World) (runs : List Launch) : World :=
  runs.foldl (fun w run => (run.result w).2) w

theorem worldAfter_append (w : World) (runs more : List Launch) :
    worldAfter w (runs ++ more) = worldAfter (worldAfter w runs) more :=
  List.foldl_append

/-- All that a run does to the world is to make directories. -/
theorem world_result (w : World) (run : Launch) :
    (run.result w).2 = w ∨ ∃ bound made,
      (run.result w).2 = { w with files := (w.files.makeDirectories bound made).1 } := by
  rw [Launch.result, result_prepare]
  cases describe w run.options .fresh run.path with
  | error failure => exact .inl rfl
  | ok s =>
      dsimp only
      cases hthere : w.files.surelyExists s.output with
      | true =>
          rw [OutputDirectory.ensure, Work.result_bind_ok (Work.result_world w), if_pos hthere]
          exact .inl rfl
      | false =>
          rw [OutputDirectory.result_ensure hthere]
          exact .inr ⟨_, _, rfl⟩

/-- A run only adds to the files. -/
theorem grows_result (hfiles : w.files.WellFormed) (run : Launch) :
    (run.result w).2.files.WellFormed ∧ w.files.Grows (run.result w).2.files := by
  rcases world_result w run with hkept | ⟨bound, made, hmade⟩
  · rw [hkept]
    exact ⟨hfiles, .refl _⟩
  · rw [hmade]
    exact hfiles.of_makeDirectories bound made

/-- So do any number of runs. -/
theorem grows_worldAfter (hfiles : w.files.WellFormed) (runs : List Launch) :
    (worldAfter w runs).files.WellFormed ∧ w.files.Grows (worldAfter w runs).files := by
  induction runs generalizing w with
  | nil => exact ⟨hfiles, .refl _⟩
  | cons run rest ih =>
      obtain ⟨hnext, hgrows⟩ := grows_result hfiles run
      obtain ⟨hlast, hmore⟩ := ih hnext
      exact ⟨hlast, hgrows.trans hmore⟩

theorem home_result (w : World) (run : Launch) : (run.result w).2.home = w.home := by
  rcases world_result w run with hkept | ⟨bound, made, hmade⟩
  · rw [hkept]
  · rw [hmade]
    rfl

theorem home_worldAfter (w : World) (runs : List Launch) : (worldAfter w runs).home = w.home := by
  induction runs generalizing w with
  | nil => rfl
  | cons run rest ih => exact (ih _).trans (home_result w run)

/-- A configuration that is accepted stays so whatever runs come first. -/
theorem Accepts.after_runs (h : Accepts w options path dir folder) (hfiles : w.files.WellFormed)
    (earlier : List Launch) : Accepts (worldAfter w earlier) options path dir folder :=
  h.of_grows (grows_worldAfter hfiles earlier).2 (home_worldAfter w earlier)

/-- A run that succeeds leaves a directory at a place that nothing was at, and it is that of its
output. -/
theorem exists_place_of_result (hfiles : w.files.WellFormed) {run : Launch} {s : RunSettings}
    (h : (run.result w).1 = .ok s) :
    ∃ place, w.files.at? place = none ∧ (run.result w).2.files.locate s.output = .directory place := by
  rw [Launch.result, result_prepare] at h ⊢
  cases hdescribe : describe w run.options .fresh run.path with
  | error failure =>
      rw [hdescribe] at h
      cases h
  | ok found =>
      obtain ⟨dir, folder, config, -, -, hselect⟩ := describe_eq_ok hdescribe
      obtain ⟨-, hfree, -⟩ := OutputDirectory.select_eq_ok hselect
      have hnew : w.files.surelyExists found.output = false := by
        rw [FileTree.surelyExists, hfree]
        rfl
      rw [hdescribe] at h
      dsimp only at h ⊢
      rw [OutputDirectory.result_ensure hnew] at h ⊢
      rcases hmake : w.files.makeDirectories (found.output.parts.length + 1) found.output with
        ⟨files, failure | _⟩
      · rw [hmake] at h
        cases h
      · rw [hmake] at h
        cases h
        obtain ⟨v, -, hgrows, hmade⟩ := hfiles.of_makeDirectories_ok hmake
        obtain ⟨place, hplace, rfl⟩ := FileTree.makeDirectory_eq_ok hmade
        obtain ⟨-, -, -, -, -, -, -, hnone⟩ := FileTree.exists_above_of_absent hplace
        exact ⟨place, hgrows.at?_eq_none hnone, FileTree.locate_put_directory hplace⟩

/-- Two runs of a sequence that are given directories are given different ones, and both are there
when the later one has been made. -/
theorem apart_outputs (hfiles : w.files.WellFormed) (earlier between : List Launch)
    {run next : Launch} {s s' : RunSettings} (h : (run.result (worldAfter w earlier)).1 = .ok s)
    (h' : (next.result (worldAfter w (earlier ++ run :: between))).1 = .ok s') :
    (next.result (worldAfter w (earlier ++ run :: between))).2.files.Apart s.output s'.output := by
  obtain ⟨hbefore, -⟩ := grows_worldAfter hfiles earlier
  obtain ⟨hafter, -⟩ := grows_result hbefore run
  obtain ⟨place, -, hplace⟩ := exists_place_of_result hbefore h
  have hworld : worldAfter w (earlier ++ run :: between) =
      worldAfter (run.result (worldAfter w earlier)).2 between := worldAfter_append w _ _
  rw [hworld] at h' ⊢
  obtain ⟨hnext, hkept⟩ := grows_worldAfter hafter between
  obtain ⟨-, hgrows⟩ := grows_result hnext next
  obtain ⟨place', hnone, hplace'⟩ := exists_place_of_result hnext h'
  have hthere := hkept.locate_directory hplace
  refine ⟨place, place', ?_, hgrows.locate_directory hthere, hplace'⟩
  rintro rfl
  rw [hnext.at?_of_locate hthere] at hnone
  cases hnone

open OutputDirectory in
/-- Of runs in one directory, each one that is accepted is given the directory of its name with the
least number that is free, unless it comes to a name that is too long before; it fails for want of a
directory exactly if all are taken, and leaves the files alone whenever it fails. No two are given
the same directory, and the names that one run tries are all different. -/
theorem runs_take_least_free {w : World} (hfiles : w.files.WellFormed) {dir : Path}
    (hdir : w.files.isDirectory dir = true) (earlier : List Launch) (run : Launch)
    {folder : String}
    (haccepts : Accepts (worldAfter w earlier) run.options run.path dir folder)
    (hpoint : folder ≠ ".") (hup : folder ≠ "..") :
    Placed (worldAfter w earlier).files dir folder (run.result (worldAfter w earlier)).1
        (run.result (worldAfter w earlier)).2.files ∧
      ((run.result (worldAfter w earlier)).1 = .error (.noFreeDirectory folder attempts) ↔
        ∀ k < attempts, Taken (worldAfter w earlier).files dir folder k) ∧
      (∀ (between : List Launch) (next : Launch) (s s' : RunSettings),
        (run.result (worldAfter w earlier)).1 = .ok s →
        (next.result (worldAfter w (earlier ++ run :: between))).1 = .ok s' →
        (next.result (worldAfter w (earlier ++ run :: between))).2.files.Apart s.output
          s'.output) ∧
      Function.Injective (numbered folder) := by
  obtain ⟨hbefore, hgrows⟩ := grows_worldAfter hfiles earlier
  have hdir' := hgrows.isDirectory hdir
  exact ⟨placed_of_accepts hbefore hdir' haccepts hpoint hup,
    full_iff hbefore hdir' haccepts hpoint hup,
    fun between next s s' => apart_outputs hfiles earlier between, numbered_injective folder⟩

theorem grows_outWorld (made : List Place) :
    (outWorld "x" []).files.Grows (outWorld "x" made).files := by
  refine ⟨rfl, fun place node hnode => ?_⟩
  rw [FileTree.at?] at hnode ⊢
  split at hnode
  · next hroot => rw [if_pos hroot, hnode]
  · next hroot =>
      rw [if_neg hroot]
      simp only [outWorld, outFiles, World.ofFiles, List.map_nil, Entries.get?] at hnode ⊢
      split at hnode
      · next hhere => rw [if_pos hhere, hnode]
      · cases hnode

theorem destination_outWorld : destination (outWorld "x" []) ⟨false, .null⟩
    ⟨.single, ["run.toml"]⟩ = .ok (⟨.single, ["out"]⟩, "x") := by
  rw [← toOption_eq_some_iff]
  decide +kernel

/-- A run of the configuration, under a name of its own if it is given one. -/
def launch (name : Value) : Launch :=
  ⟨⟨false, name⟩, ⟨.single, ["run.toml"]⟩⟩

/-- Such a run is accepted whatever directories there are and other runs have made. -/
theorem accepts_launch (made : List Place) (earlier : List Launch) {name : Value} {folder : String}
    (hfiles : (outWorld "x" made).files.WellFormed)
    (hfolder : destination (outWorld "x" []) ⟨false, name⟩ ⟨.single, ["run.toml"]⟩ =
      .ok (⟨.single, ["out"]⟩, folder)) :
    Accepts (worldAfter (outWorld "x" made) earlier) ⟨false, name⟩ ⟨.single, ["run.toml"]⟩
      ⟨.single, ["out"]⟩ folder := by
  have hread : ∀ {α : Type} (read : List (String × Value) → Except Failure α),
      (document (outWorld "x" []).files ⟨.single, ["run.toml"]⟩ >>= read).isOk = true →
      ∀ config, document (outWorld "x" []).files ⟨.single, ["run.toml"]⟩ = .ok config →
        ∃ a, read config = .ok a := by
    intro α read hok config hconfig
    rw [hconfig, ok_bind] at hok
    exact exists_ok_of_isOk hok
  have hbare : Accepts (outWorld "x" []) ⟨false, name⟩ ⟨.single, ["run.toml"]⟩ ⟨.single, ["out"]⟩
      folder := by
    refine ⟨hfolder, hread horizonOf (by decide +kernel), hread regionsOf (by decide +kernel), ?_⟩
    intro config hconfig key hkey
    have hfile : ∀ key ∈ ["mac_file", "price_file"],
        (document (outWorld "x" []).files ⟨.single, ["run.toml"]⟩ >>= fun config =>
          pathOf (outWorld "x" []).home (Path.parent ⟨.single, ["run.toml"]⟩)
            ((Entries.get? config key).getD .null)).isOk = true := by
      decide +kernel
    exact hread _ (hfile key hkey) config hconfig
  exact (hbare.of_grows (grows_outWorld made) rfl).after_runs hfiles earlier

open OutputDirectory in
/-- The name and its first number are taken, the number by the run before. The second is free, and
the run is given it. -/
theorem runs_take_least_free_third :
    takenWorld.files.WellFormed ∧ takenWorld.files.isDirectory ⟨.single, ["out"]⟩ = true ∧
      Accepts (worldAfter takenWorld [launch (.text "x_01")]) ⟨false, .null⟩
        ⟨.single, ["run.toml"]⟩ ⟨.single, ["out"]⟩ "x" ∧
      Placed (worldAfter takenWorld [launch (.text "x_01")]).files ⟨.single, ["out"]⟩ "x"
        ((launch .null).result (worldAfter takenWorld [launch (.text "x_01")])).1
        ((launch .null).result (worldAfter takenWorld [launch (.text "x_01")])).2.files ∧
      (∃ s after,
        (launch .null).result (worldAfter takenWorld [launch (.text "x_01")]) = (.ok s, after) ∧
        s.output = ⟨.single, ["out", "x_02"]⟩ ∧ after.files.isDirectory s.output = true) ∧
      Function.Injective (numbered "x") := by
  have hfiles : takenWorld.files.WellFormed :=
    FileTree.wellFormed_of_nodes (by decide +kernel) (by decide +kernel)
  have hdir : takenWorld.files.isDirectory ⟨.single, ["out"]⟩ = true := by decide +kernel
  have haccepts := accepts_launch [["out"], ["out", "x"]] [launch (.text "x_01")] hfiles
    destination_outWorld
  obtain ⟨hplaced, -, -, hnames⟩ := runs_take_least_free hfiles hdir [launch (.text "x_01")]
    (launch .null) haccepts (by decide) (by decide)
  refine ⟨hfiles, hdir, haccepts, hplaced, ?_, hnames⟩
  have hgiven : (match (launch .null).result (worldAfter takenWorld [launch (.text "x_01")]) with
      | (.ok s, after) =>
        decide (s.output = ⟨.single, ["out", "x_02"]⟩) && after.files.isDirectory s.output
      | (.error _, _) => false) = true := by
    decide +kernel
  rcases hresult : (launch .null).result (worldAfter takenWorld [launch (.text "x_01")]) with
    ⟨failure | s, after⟩
  · rw [hresult] at hgiven
    cases hgiven
  · rw [hresult] at hgiven
    obtain ⟨houtput, hmade⟩ := Bool.and_eq_true_iff.1 hgiven
    exact ⟨s, after, rfl, of_decide_eq_true houtput, hmade⟩

/-! ## Names that leave no room for a number -/

/-- A name of one letter, so many times. -/
def lettered : Nat → String
  | 0 => ""
  | count + 1 => (lettered count).push 'a'

theorem utf8ByteSize_lettered (count : Nat) : (lettered count).utf8ByteSize = count := by
  induction count with
  | zero => rfl
  | succ count ih =>
      rw [lettered, String.utf8ByteSize_push, ih]
      rfl

theorem eq_of_mem_lettered {count : Nat} {c : Char} (h : c ∈ (lettered count).toList) :
    c = 'a' := by
  induction count with
  | zero => cases h
  | succ count ih =>
      rw [lettered, String.toList_push, List.mem_append] at h
      rcases h with hfront | hlast
      · exact ih hfront
      · exact List.mem_singleton.1 hlast

/-- A run under a name of letters goes to a directory of that name. -/
theorem folderOf_lettered (config : List (String × Value)) (count : Nat) :
    folderOf ⟨false, .text (lettered (count + 1))⟩ config = .ok (lettered (count + 1)) := by
  have hname : lettered (count + 1) ≠ "" := by
    simp [lettered]
  have hgiven : isGiven (.text (lettered (count + 1))) = true := by
    simp [isGiven, hname]
  rw [folderOf]
  dsimp only
  have htext : (Value.text (lettered (count + 1))).toText = .ok (lettered (count + 1)) := rfl
  rw [if_pos hgiven, if_pos hgiven, htext, ok_bind]
  refine OutputName.sanitize_of_kept hname fun c hc => ?_
  rw [eq_of_mem_lettered hc]
  decide

/-- A world with nothing in the output directory. -/
def bareWorld : World :=
  outWorld "x" [["out"]]

theorem wellFormed_bareWorld : bareWorld.files.WellFormed :=
  FileTree.wellFormed_of_nodes (by decide +kernel) (by decide +kernel)

theorem isDirectory_bareWorld : bareWorld.files.isDirectory ⟨.single, ["out"]⟩ = true := by
  decide +kernel

variable {count : Nat}

theorem isClean_lettered (count : Nat) : OutputName.IsClean (lettered count) := by
  intro c hc
  rw [eq_of_mem_lettered hc]
  exact .inl (by decide)

theorem lettered_ne_dots (count : Nat) : lettered count ≠ "." ∧ lettered count ≠ ".." := by
  constructor
  all_goals
    intro h
    have hpoint : '.' ∈ (lettered count).toList := by
      rw [h]
      decide
    exact absurd (eq_of_mem_lettered hpoint) (by decide)

theorem accepts_lettered (earlier : List Launch) :
    Accepts (worldAfter bareWorld earlier) ⟨false, .text (lettered (count + 1))⟩
      ⟨.single, ["run.toml"]⟩ ⟨.single, ["out"]⟩ (lettered (count + 1)) := by
  refine accepts_launch [["out"]] earlier wellFormed_bareWorld ?_
  obtain ⟨config, hconfig, habove, -⟩ := exists_folderOf destination_outWorld
  rw [RunSettings.destination, hconfig, ok_bind, habove, ok_bind, folderOf_lettered, ok_bind]
  rfl

theorem utf8ByteSize_first_number (count : Nat) :
    (OutputDirectory.numbered (lettered count) 1).utf8ByteSize = count + 3 := by
  have hsuffix : String.utf8ByteSize ("_" ++ String.ofList (Text.padded 2 1)) = 3 := by
    decide +kernel
  rw [OutputDirectory.numbered, if_neg (by decide), String.append_assoc,
    String.utf8ByteSize_append, hsuffix, utf8ByteSize_lettered]

open OutputDirectory in
/-- Whether its first number is there has no answer. -/
theorem pathExists_first_number (hlong : FileTree.longestName < count + 3) {files : FileTree}
    (hdir : files.isDirectory ⟨.single, ["out"]⟩ = true) :
    ∃ failure, files.pathExists (tried ⟨.single, ["out"]⟩ (lettered count) 1) =
      .error failure := by
  obtain ⟨place, hplace⟩ := FileTree.exists_place_of_isDirectory hdir
  rw [tried, FileTree.pathExists_below hplace (isClean_numbered (isClean_lettered count) 1)
    (numbered_ne_up (lettered_ne_dots count).2 1), utf8ByteSize_first_number, if_pos hlong]
  exact ⟨_, rfl⟩

open OutputDirectory in
theorem not_taken_bareWorld (hfits : count + 1 ≤ FileTree.longestName) :
    ¬ Taken bareWorld.files ⟨.single, ["out"]⟩ (lettered (count + 1)) 0 := by
  have hplace : bareWorld.files.locate ⟨.single, ["out"]⟩ = .directory ["out"] := by
    rfl
  rw [Taken, tried, FileTree.pathExists_below hplace (isClean_numbered (isClean_lettered _) 0)
    (numbered_ne_up (lettered_ne_dots _).2 0), numbered, if_pos rfl, utf8ByteSize_lettered,
    if_neg (Nat.not_lt.2 hfits)]
  have hnone : bareWorld.files.at? (["out"] ++ [lettered (count + 1)]) = none := by
    simp [bareWorld, outWorld, World.ofFiles, outFiles, FileTree.at?, Entries.get?]
  rw [hnone]
  exact fun h => by cases h

open OutputDirectory in
/-- A run under it leaves a directory of that name. -/
theorem taken_after_lettered (hfits : count + 1 ≤ FileTree.longestName) :
    Taken (worldAfter bareWorld [launch (.text (lettered (count + 1)))]).files ⟨.single, ["out"]⟩
      (lettered (count + 1)) 0 := by
  have haccepts : Accepts bareWorld ⟨false, .text (lettered (count + 1))⟩ ⟨.single, ["run.toml"]⟩
      ⟨.single, ["out"]⟩ (lettered (count + 1)) := accepts_lettered []
  have hplaced := placed_of_accepts wellFormed_bareWorld isDirectory_bareWorld haccepts
    (lettered_ne_dots (count + 1)).1 (lettered_ne_dots (count + 1)).2
  have hworld : (worldAfter bareWorld [launch (.text (lettered (count + 1)))]) =
      ((prepare ⟨false, .text (lettered (count + 1))⟩ .fresh ⟨.single, ["run.toml"]⟩).result
        bareWorld).2 := rfl
  rw [hworld]
  have hfree := not_taken_bareWorld hfits
  have hfirst : ∀ {k : Nat}, (∀ j < k, Taken bareWorld.files ⟨.single, ["out"]⟩
      (lettered (count + 1)) j) → k = 0 := by
    intro k least
    by_contra hlater
    exact hfree (least 0 (Nat.pos_of_ne_zero hlater))
  generalize (prepare ⟨false, .text (lettered (count + 1))⟩ .fresh
    ⟨.single, ["run.toml"]⟩).result bareWorld = outcome at hplaced ⊢
  obtain ⟨outcome, after⟩ := outcome
  dsimp only at hplaced ⊢
  generalize hfiles : after.files = files at hplaced ⊢
  cases hplaced with
  | made hk least output made =>
      obtain rfl := hfirst least
      obtain ⟨place, -, hplace, -⟩ := made.made
      rw [Taken, tried, FileTree.pathExists, hplace]
  | full all => exact absurd (all 0 (by decide)) hfree
  | tooLong hk least long =>
      obtain rfl := hfirst least
      rw [numbered, if_pos rfl, utf8ByteSize_lettered] at long
      exact absurd hfits (Nat.not_le.2 long)

open OutputDirectory in
/-- A second run under it fails, and not for want of a directory. -/
theorem fails_at_first_number (hfits : count + 1 ≤ FileTree.longestName)
    (hlong : FileTree.longestName < count + 1 + 3) :
    ¬ Taken (worldAfter bareWorld [launch (.text (lettered (count + 1)))]).files
        ⟨.single, ["out"]⟩ (lettered (count + 1)) 1 ∧
      ∃ failure, ((launch (.text (lettered (count + 1)))).result
          (worldAfter bareWorld [launch (.text (lettered (count + 1)))])).1 = .error failure ∧
        failure ≠ .noFreeDirectory (lettered (count + 1)) attempts := by
  obtain ⟨hfiles, hgrows⟩ := grows_worldAfter wellFormed_bareWorld
    [launch (.text (lettered (count + 1)))]
  have hdir := hgrows.isDirectory isDirectory_bareWorld
  obtain ⟨unknown, hunknown⟩ := pathExists_first_number hlong hdir
  have hplaced := placed_of_accepts hfiles hdir
    (accepts_lettered [launch (.text (lettered (count + 1)))])
    (lettered_ne_dots (count + 1)).1 (lettered_ne_dots (count + 1)).2
  have htaken := taken_after_lettered hfits
  have hrun : (launch (.text (lettered (count + 1)))).result
      (worldAfter bareWorld [launch (.text (lettered (count + 1)))]) =
      (prepare ⟨false, .text (lettered (count + 1))⟩ .fresh ⟨.single, ["run.toml"]⟩).result
        (worldAfter bareWorld [launch (.text (lettered (count + 1)))]) := rfl
  rw [hrun]
  generalize worldAfter bareWorld [launch (.text (lettered (count + 1)))] = w
    at hplaced hunknown htaken ⊢
  have hnot : ¬ Taken w.files ⟨.single, ["out"]⟩ (lettered (count + 1)) 1 := by
    rw [Taken, hunknown]
    exact fun h => by cases h
  refine ⟨hnot, ?_⟩
  generalize (prepare ⟨false, .text (lettered (count + 1))⟩ .fresh
    ⟨.single, ["run.toml"]⟩).result w = outcome at hplaced ⊢
  obtain ⟨outcome, after⟩ := outcome
  dsimp only at hplaced ⊢
  generalize after.files = files at hplaced
  cases hplaced with
  | @made k s after hk least output made =>
      have hthere := made.not_there
      obtain rfl | rfl | hlater : k = 0 ∨ k = 1 ∨ 1 < k := by omega
      · rw [Taken, tried, hthere] at htaken
        cases htaken
      · rw [tried, hthere] at hunknown
        cases hunknown
      · exact absurd (least 1 hlater) hnot
  | full all => exact absurd (all 1 (by decide)) hnot
  | tooLong hk least long => exact ⟨_, rfl, fun h => by cases h⟩

open OutputDirectory in
/-- Of two runs under a name of 253 letters the second fails at its first number, at which nothing
is known to stand. -/
theorem long_name_is_given_no_number :
    bareWorld.files.WellFormed ∧ bareWorld.files.isDirectory ⟨.single, ["out"]⟩ = true ∧
      Accepts (worldAfter bareWorld [launch (.text (lettered 253))])
        ⟨false, .text (lettered 253)⟩ ⟨.single, ["run.toml"]⟩ ⟨.single, ["out"]⟩ (lettered 253) ∧
      ¬ Taken (worldAfter bareWorld [launch (.text (lettered 253))]).files ⟨.single, ["out"]⟩
        (lettered 253) 1 ∧
      ∃ failure, ((launch (.text (lettered 253))).result
          (worldAfter bareWorld [launch (.text (lettered 253))])).1 = .error failure ∧
        failure ≠ .noFreeDirectory (lettered 253) attempts :=
  ⟨wellFormed_bareWorld, isDirectory_bareWorld, accepts_lettered _,
    fails_at_first_number (by decide) (by decide)⟩

end RunSettings

end Macc