import Mathlib.Data.List.Basic
import Macc.Proofs.Attempts
import Macc.Proofs.NewDirectories
import Macc.Proofs.OutputNames
import Macc.Proofs.Work
import Macc.Run.Settings

/-!
# A new directory below the output directory

A run is given a directory of its own: one that nothing stood at, in the
directory that the configuration names. Names cannot lead anywhere else, because
what is taken over of a given name holds no slash, and neither does a fingerprint
or a number behind a name. A single point is the one exception: it is kept as a
name, and a path drops it.

A run that fails to get its directory leaves no other one behind, when the
directory that the configuration names is there or can be made. The conditions
are on names again, and only on those of directories that are missing.
-/

namespace Macc

/-! ## Names of one part -/

/-- A text that a path takes as one part. -/
structure IsPart (name : String) : Prop where
  no_slash : '/' ∉ name.toList
  not_empty : name ≠ ""
  not_point : name ≠ "."

theorem Path.splitSlashes_of_not_mem {cs : List Char} (h : '/' ∉ cs) : splitSlashes cs = [cs] := by
  induction cs with
  | nil => rfl
  | cons c rest ih =>
      rw [List.mem_cons, not_or] at h
      rw [splitSlashes, if_neg (by simpa using Ne.symm h.1), ih h.2]

theorem Path.parse_of_isPart {name : String} (h : IsPart name) : parse name = ⟨.here, [name]⟩ := by
  have hparts : partsOf name.toList = [name] := by
    have hempty : name.toList ≠ [] := by simpa using h.not_empty
    have hpoint : name.toList ≠ ['.'] := by
      intro hpoint
      exact h.not_point (String.toList_inj.1 hpoint)
    rw [partsOf, splitSlashes_of_not_mem h.no_slash]
    simp [hempty, hpoint]
  have hroot : name.toList.takeWhile (· == '/') = [] := by
    cases hcs : name.toList with
    | nil => rfl
    | cons c rest =>
        have hc : c ≠ '/' := by
          rintro rfl
          exact h.no_slash (by rw [hcs]; exact List.mem_cons_self)
        simp [hc]
  rw [parse, hroot, hparts]

/-- A name of one part is the name of a child. -/
theorem Path.child_of_isPart (p : Path) {name : String} (h : IsPart name) :
    p.child name = ⟨p.root, p.parts ++ [name]⟩ := by
  rw [child, parse_of_isPart h]
  rfl

theorem slash_not_mem_toDigits {base : Nat} (hbase : 1 < base) (n : Nat) :
    '/' ∉ Nat.toDigits base n := by
  have hdigit : ∀ d, '/' ∉ [Nat.digitChar d] := by simp
  induction n using Nat.strongRecOn with
  | ind n ih =>
      rw [Nat.toDigits_eq_if hbase]
      split
      · exact hdigit n
      · next hlarge =>
          have hless : n / base < n := Nat.div_lt_self (by omega) hbase
          rw [List.mem_append, not_or]
          exact ⟨ih _ hless, hdigit _⟩

theorem slash_not_mem_zeros (count : Nat) : '/' ∉ List.replicate count '0' := by
  intro h
  exact absurd (List.eq_of_mem_replicate h) (by decide)

/-! ## The names of output directories -/

namespace OutputName

/-- A directory name consists of characters that are taken over, and of fillers. -/
theorem mem_reduce {cs : List Char} {c : Char} (h : c ∈ reduce cs) :
    isKept c = true ∨ c = filler := by
  rw [isKept_eq]
  exact (isTidy_reduce cs).allowed c h

/-- What is taken over of a given name holds no slash. -/
theorem slash_not_mem_reduce (cs : List Char) : '/' ∉ reduce cs :=
  fun h => absurd (mem_reduce h) (by decide)

theorem sanitize_eq_ok {given name : String} (h : sanitize given = .ok name) :
    '/' ∉ name.toList ∧ name ≠ "" := by
  obtain ⟨hne, hname⟩ := sanitize_eq_ok_iff.1 h
  rw [← hname]
  exact ⟨slash_not_mem_reduce _, hne⟩

end OutputName

theorem slash_not_mem_fingerprint {config : List (String × Value)} {fingerprint : String}
    (hok : Fingerprint.ofEntries config = .ok fingerprint) : '/' ∉ fingerprint.toList := by
  obtain ⟨text, -, hdigits⟩ := bind_eq_ok_iff.1 hok
  cases hdigits
  rw [String.toList_ofList]
  intro h
  obtain ⟨w, -, hw⟩ := List.mem_flatMap.1 (List.mem_of_mem_take h)
  rcases List.mem_append.1 hw with hzero | hdigit
  · exact slash_not_mem_zeros _ hzero
  · exact slash_not_mem_toDigits (by decide) _ hdigit

/-- The name of an output directory is one part of a path, unless it is a single point. -/
theorem RunSettings.isPart_of_folderOf {options : RunOptions} {config : List (String × Value)}
    {folder : String} (h : folderOf options config = .ok folder) (hpoint : folder ≠ ".") :
    IsPart folder := by
  rw [folderOf] at h
  generalize (if isGiven options.outputName = true then options.outputName
    else (Entries.get? config Fingerprint.nameKey).getD .null) = name at h
  split at h
  · obtain ⟨text, -, hname⟩ := bind_eq_ok_iff.1 h
    obtain ⟨hslash, hempty⟩ := OutputName.sanitize_eq_ok hname
    exact ⟨hslash, hempty, hpoint⟩
  · obtain ⟨fingerprint, hfingerprint, hname⟩ := bind_eq_ok_iff.1 h
    cases hname
    refine ⟨?_, by simp, hpoint⟩
    rw [String.toList_append, List.mem_append, not_or]
    exact ⟨by decide, slash_not_mem_fingerprint hfingerprint⟩

/-! ## The directory that is selected -/

namespace OutputDirectory

/-- The name that is tried after `k` others. -/
def numbered (folder : String) (k : Nat) : String :=
  if k = 0 then folder else folder ++ "_" ++ String.ofList (Text.padded 2 k)

theorem isPart_numbered {folder : String} (h : IsPart folder) (k : Nat) :
    IsPart (numbered folder k) := by
  rw [numbered]
  split
  · exact h
  · have hnumber : '/' ∉ Text.padded 2 k := by
      rw [Text.padded, List.mem_append, not_or]
      exact ⟨slash_not_mem_zeros _, slash_not_mem_toDigits (by decide) k⟩
    refine ⟨?_, by simp, fun hpoint => ?_⟩
    · simp [h.no_slash, hnumber]
    · have hmem : '_' ∈ ".".toList := by
        rw [← hpoint]
        simp
      exact absurd hmem (by decide)

/-- The directories that are tried stand beside each other. -/
theorem alternative_child (dir : Path) {folder : String} (h : IsPart folder) (k : Nat) :
    alternative (dir.child folder) k = ⟨dir.root, dir.parts ++ [numbered folder k]⟩ := by
  have hname : Path.name ⟨dir.root, dir.parts ++ [folder]⟩ = folder := by
    simp [Path.name]
  rw [alternative, numbered, Path.child_of_isPart dir h, hname, Path.parent_concat]
  split
  · rfl
  · next hpos =>
      have hk := isPart_numbered h k
      rw [numbered, if_neg hpos] at hk
      exact Path.child_of_isPart dir hk

theorem firstFree_eq_some {files : FileTree} {paths : List Path} {p : Path}
    (h : firstFree files paths = .ok (some p)) :
    p ∈ paths ∧ files.pathExists p = .ok false ∧
      ∀ first ∈ paths.head?, first = p ∨ files.pathExists first = .ok true := by
  induction paths with
  | nil => cases h
  | cons q rest ih =>
      rw [firstFree] at h
      obtain ⟨there, hthere, h⟩ := bind_eq_ok_iff.1 h
      cases there with
      | true =>
          obtain ⟨hmem, hfree, -⟩ := ih h
          refine ⟨List.mem_cons_of_mem _ hmem, hfree, fun first hfirst => ?_⟩
          cases hfirst
          exact .inr hthere
      | false =>
          cases h
          refine ⟨List.mem_cons_self, hthere, fun first hfirst => ?_⟩
          cases hfirst
          exact .inl rfl

/-- Nothing stands at the path that is selected, and it is another one than the first choice only if
something stands there. -/
theorem select_eq_ok {files : FileTree} {choice p : Path} (h : select files choice = .ok p) :
    (∃ k < attempts, p = alternative choice k) ∧ files.pathExists p = .ok false ∧
      (p = choice ∨ files.pathExists choice = .ok true) := by
  rw [select] at h
  obtain ⟨found, hfound, h⟩ := bind_eq_ok_iff.1 h
  cases found with
  | none => cases h
  | some q =>
      cases h
      obtain ⟨hmem, hfree, hfirst⟩ := firstFree_eq_some hfound
      obtain ⟨k, hk, hp⟩ := List.mem_map.1 hmem
      refine ⟨⟨k, List.mem_range.1 hk, hp.symm⟩, hfree, ?_⟩
      have hchoice : ((List.range attempts).map (alternative choice)).head? = some choice := by
        rw [List.head?_map, List.head?_range]
        rfl
      exact (hfirst choice hchoice).imp_left Eq.symm

theorem result_ensure {w : World} {p : Path} (h : w.files.surelyExists p = false) :
    (ensure p).result w =
      ((w.files.makeDirectories (p.parts.length + 1) p).2,
        { w with files := (w.files.makeDirectories (p.parts.length + 1) p).1 }) := by
  rw [ensure, Work.result_bind_ok (Work.result_world w), h]
  rfl

end OutputDirectory

/-! ## The directory of a run -/

/-- A directory was made, under a name that nothing had before, in the directory that a path leads
to. -/
structure MadeIn (before after : FileTree) (dir : Path) (name : String) : Prop where
  not_there : before.pathExists ⟨dir.root, dir.parts ++ [name]⟩ = .ok false
  made : ∃ place, after.locate dir = .directory place ∧
    after.locate ⟨dir.root, dir.parts ++ [name]⟩ = .directory (place ++ [name]) ∧
    before.at? (place ++ [name]) = none

theorem FileTree.WellFormed.madeIn {t u : FileTree} (ht : t.WellFormed) {dir : Path} {name : String}
    {bound : Nat} (hfree : t.pathExists ⟨dir.root, dir.parts ++ [name]⟩ = .ok false)
    (h : t.makeDirectories bound ⟨dir.root, dir.parts ++ [name]⟩ = (u, .ok ())) :
    MadeIn t u dir name := by
  obtain ⟨v, hv, hgrows, hmade⟩ := ht.of_makeDirectories_ok h
  obtain ⟨place, hplace, rfl⟩ := FileTree.makeDirectory_eq_ok hmade
  obtain ⟨parts, last, above, hparts, -, habove, rfl, hnone⟩ :=
    FileTree.exists_above_of_absent hplace
  obtain ⟨rfl, hlast⟩ := List.append_inj' hparts rfl
  obtain rfl : name = last := by simpa using hlast
  exact ⟨hfree, above, (FileTree.Grows.put .directory hnone).locate_directory habove,
    FileTree.locate_put_directory hplace, hgrows.at?_eq_none hnone⟩

namespace RunSettings

/-- The directory that a run's own directory is to stand in, and the name that it is to have. -/
def destination (w : World) (options : RunOptions) (path : Path) :
    Except Failure (Path × String) := do
  let config ← document w.files path
  let above ← pathOf w.home path.parent ((Entries.get? config "output_dir").getD (.text "output"))
  let folder ← folderOf options config
  match above with
  | none => throw .noOutputBase
  | some dir => return (dir, folder)

/-- Whether the directory of a run can be made where it is to stand: its name is not a single point,
and the directory above is there or all that is missing of the path can be made. -/
def CanPlace (w : World) (options : RunOptions) (path : Path) : Prop :=
  ∀ dir folder, destination w options path = .ok (dir, folder) →
    folder ≠ "." ∧
      (w.files.surelyExists dir = true ∨ w.files.CanMake ⟨dir.root, dir.parts ++ [folder]⟩)

theorem describe_eq_ok {w : World} {options : RunOptions} {path : Path} {s : RunSettings}
    (h : describe w options .fresh path = .ok s) :
    ∃ dir folder config, destination w options path = .ok (dir, folder) ∧
      folderOf options config = .ok folder ∧
      OutputDirectory.select w.files (dir.child folder) = .ok s.output := by
  rw [describe] at h
  obtain ⟨config, hconfig, h⟩ := bind_eq_ok_iff.1 h
  obtain ⟨horizon, -, h⟩ := bind_eq_ok_iff.1 h
  obtain ⟨regions, -, h⟩ := bind_eq_ok_iff.1 h
  obtain ⟨catalogueFile, -, h⟩ := bind_eq_ok_iff.1 h
  obtain ⟨priceFile, -, h⟩ := bind_eq_ok_iff.1 h
  obtain ⟨output, houtput, h⟩ := bind_eq_ok_iff.1 h
  cases h
  rw [outputOf] at houtput
  obtain ⟨above, habove, houtput⟩ := bind_eq_ok_iff.1 houtput
  obtain ⟨folder, hfolder, houtput⟩ := bind_eq_ok_iff.1 houtput
  cases above with
  | none => cases houtput
  | some dir =>
      refine ⟨dir, folder, config, ?_, hfolder, houtput⟩
      rw [destination, hconfig, ok_bind, habove, ok_bind, hfolder, ok_bind]
      rfl

theorem result_prepare (w : World) (options : RunOptions) (placement : Placement) (path : Path) :
    (prepare options placement path).result w =
      match describe w options placement path with
      | .error failure => (.error failure, w)
      | .ok s => (((OutputDirectory.ensure s.output).result w).1.map fun _ => s,
          ((OutputDirectory.ensure s.output).result w).2) := by
  rw [prepare, Work.result_bind_ok (Work.result_world w)]
  cases describe w options placement path with
  | error failure => rfl
  | ok s =>
      rw [Work.result_bind_ok (Work.result_ofExcept _ w), Work.result_bind]
      dsimp only
      generalize (OutputDirectory.ensure s.output).result w = left
      rcases left with ⟨_ | _, after⟩ <;> rfl

/-- A run is given a directory of its own in the one that its configuration names, or fails and
leaves the files as they were. -/
theorem prepare_makes_child_or_nothing (w : World) (hfiles : w.files.WellFormed)
    (options : RunOptions) (path : Path) (hplace : CanPlace w options path) :
    (∀ s after, (prepare options .fresh path).result w = (.ok s, after) →
      ∃ dir folder k, destination w options path = .ok (dir, folder) ∧
        k < OutputDirectory.attempts ∧
        s.output = ⟨dir.root, dir.parts ++ [OutputDirectory.numbered folder k]⟩ ∧
        MadeIn w.files after.files dir (OutputDirectory.numbered folder k)) ∧
    ∀ failure after, (prepare options .fresh path).result w = (.error failure, after) →
      after.files = w.files := by
  rw [result_prepare]
  cases hdescribe : describe w options .fresh path with
  | error failure =>
      constructor
      · intro s after h
        cases h
      · intro cause after h
        cases h
        rfl
  | ok s =>
      obtain ⟨dir, folder, config, hdestination, hfolder, hselect⟩ := describe_eq_ok hdescribe
      obtain ⟨hpoint, hcan⟩ := hplace dir folder hdestination
      have hpart := isPart_of_folderOf hfolder hpoint
      obtain ⟨⟨k, hk, houtput⟩, hfree, hchoice⟩ := OutputDirectory.select_eq_ok hselect
      rw [OutputDirectory.alternative_child dir hpart] at houtput
      rw [Path.child_of_isPart dir hpart] at hchoice
      have hnew : w.files.surelyExists s.output = false := by
        rw [FileTree.surelyExists, hfree]
        rfl
      dsimp only
      rw [OutputDirectory.result_ensure hnew]
      rcases hmake : w.files.makeDirectories (s.output.parts.length + 1) s.output with
        ⟨files, failure | _⟩
      · have hkept : files = w.files := by
          refine hfiles.eq_of_makeDirectories_error (Nat.lt_succ_self _) hnew ?_ hmake
          rw [houtput, Path.parent_concat]
          rcases hcan with hthere | hcan
          · exact .inl hthere
          · rcases hchoice with hchoice | hchoice
            · rw [← houtput, hchoice]
              exact .inr hcan
            · -- where another choice was made, something stands at the first one, and so above it
              have hfirst : w.files.surelyExists ⟨dir.root, dir.parts ++ [folder]⟩ = true := by
                rw [FileTree.surelyExists, hchoice]
                rfl
              have habove := FileTree.surelyExists_parent hfirst
              rw [Path.parent_concat] at habove
              exact .inl habove
        constructor
        · intro s after h
          cases h
        · intro cause after h
          cases h
          exact hkept
      · rw [houtput] at hfree hmake
        constructor
        · intro s' after h
          cases h
          exact ⟨dir, folder, k, hdestination, hk, houtput, hfiles.madeIn hfree hmake⟩
        · intro cause after h
          cases h

/-! Runs whose output goes to one directory, under different names. -/

/-- A run configuration, and directories. -/
def outFiles (name : String) (made : List Place) : FileTree where
  nodes :=
    (["run.toml"], .file ("years = [2005]\noutput_dir = \"out\"\noutput_name = \"" ++ name ++
      "\"\n").toUTF8) :: made.map fun place => (place, .directory)
  here := []

def outWorld (name : String) (made : List Place) : World :=
  .ofFiles (outFiles name made)

/-- What comes of a run that is started in such a world. -/
def placed (name : String) (made : List Place) : Except Failure RunSettings × World :=
  (prepare ⟨false, .null⟩ .fresh ⟨.single, ["run.toml"]⟩).result (outWorld name made)

/-- A world in which the name of a run is taken. -/
def takenWorld : World :=
  outWorld "x" [["out"], ["out", "x"]]

theorem canPlace_second : CanPlace takenWorld ⟨false, .null⟩ ⟨.single, ["run.toml"]⟩ := by
  have hdestination : destination takenWorld ⟨false, .null⟩ ⟨.single, ["run.toml"]⟩ =
      .ok (⟨.single, ["out"]⟩, "x") := by
    rw [← toOption_eq_some_iff]
    decide +kernel
  intro dir folder h
  rw [hdestination] at h
  cases h
  exact ⟨by decide, .inl (by decide +kernel)⟩

theorem prepare_makes_child_second :
    takenWorld.files.WellFormed ∧
      CanPlace takenWorld ⟨false, .null⟩ ⟨.single, ["run.toml"]⟩ ∧
      ∃ s after dir folder k,
        (prepare ⟨false, .null⟩ .fresh ⟨.single, ["run.toml"]⟩).result takenWorld =
          (.ok s, after) ∧
        destination takenWorld ⟨false, .null⟩ ⟨.single, ["run.toml"]⟩ = .ok (dir, folder) ∧
        k < OutputDirectory.attempts ∧
        s.output = ⟨dir.root, dir.parts ++ [OutputDirectory.numbered folder k]⟩ ∧
        MadeIn takenWorld.files after.files dir (OutputDirectory.numbered folder k) := by
  have hfiles : takenWorld.files.WellFormed :=
    FileTree.wellFormed_of_nodes (by decide +kernel) (by decide +kernel)
  have hchild := prepare_makes_child_or_nothing takenWorld hfiles ⟨false, .null⟩
    ⟨.single, ["run.toml"]⟩ canPlace_second
  have hok : ((prepare ⟨false, .null⟩ .fresh ⟨.single, ["run.toml"]⟩).result
      takenWorld).1.isOk = true := by
    decide +kernel
  refine ⟨hfiles, canPlace_second, ?_⟩
  rcases hresult : (prepare ⟨false, .null⟩ .fresh ⟨.single, ["run.toml"]⟩).result takenWorld with
    ⟨failure | s, after⟩
  · rw [hresult] at hok
    cases hok
  · obtain ⟨dir, folder, k, hmade⟩ := hchild.1 s after hresult
    exact ⟨s, after, dir, folder, k, rfl, hmade⟩

/-- A run named by a single point is given the output directory itself, and one named by two points
fails after it has made it. -/
theorem prepare_makes_no_child :
    (∃ s after, placed "." [] = (.ok s, after) ∧ s.output = ⟨.single, ["out"]⟩) ∧
      ∃ failure after, placed ".." [] = (.error failure, after) ∧
        (outWorld ".." []).files.isDirectory ⟨.single, ["out"]⟩ = false ∧
        after.files.isDirectory ⟨.single, ["out"]⟩ = true := by
  constructor
  · have hruns : (placed "." []).1.toOption.map (·.output) = some ⟨.single, ["out"]⟩ := by
      decide +kernel
    rcases hplaced : placed "." [] with ⟨failure | s, after⟩
    · rw [hplaced] at hruns
      cases hruns
    · rw [hplaced] at hruns
      exact ⟨s, after, rfl, Option.some.inj hruns⟩
  · have hfails : (placed ".." []).1.isOk = false := by
      decide +kernel
    have hmade : (placed ".." []).2.files.isDirectory ⟨.single, ["out"]⟩ = true := by
      decide +kernel
    rcases hplaced : placed ".." [] with ⟨failure | s, after⟩
    · rw [hplaced] at hmade
      exact ⟨failure, after, rfl, by decide +kernel, hmade⟩
    · rw [hplaced] at hfails
      cases hfails

end RunSettings

end Macc
