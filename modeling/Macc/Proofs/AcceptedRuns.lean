import Macc.Proofs.DirectoryNames

/-!
# What comes of one run

A configuration that is accepted leaves only one thing open, which directory the
run is given. In an output directory that is there, a name can be made unless it
is too long, and whether it is there has an answer unless it is too long. So a
run is given the least number that is free, or comes to a name that is too long,
or finds everything taken.

A configuration that is accepted stays so when files are added, since they do not
change what its document says.
-/

namespace Macc

/-! ## Inside a directory that is there -/

namespace FileTree

variable {t : FileTree} {dir : Path} {place : Place} {name : String}

theorem exists_place_of_isDirectory (h : t.isDirectory dir = true) :
    ∃ place, t.locate dir = .directory place := by
  rw [isDirectory] at h
  split at h
  · next place hplace => exact ⟨place, hplace⟩
  · cases h

/-- In a directory that is there, whether a name is there has no answer if the name is too long, and
is told by the tree if it is not. -/
theorem pathExists_below (hdir : t.locate dir = .directory place)
    (hclean : OutputName.IsClean name) (hup : name ≠ "..") :
    t.pathExists ⟨dir.root, dir.parts ++ [name]⟩ =
      if longestName < name.utf8ByteSize then
        .error (.nameTooLong (Path.text ⟨dir.root, dir.parts ++ [name]⟩))
      else .ok (t.at? (place ++ [name])).isSome := by
  have hnull := hclean.no_null
  have hlocate := locate_concat t dir.root dir.parts hnull
  rw [hdir, further] at hlocate
  split
  · next hlong =>
      rw [walk, if_neg (by simpa using hup), if_pos hlong] at hlocate
      rw [pathExists, hlocate]
  · next hfits =>
      rw [walk_name t place ⟨hup, Nat.not_lt.1 hfits, hnull⟩] at hlocate
      rw [pathExists, hlocate]
      cases t.at? (place ++ [name]) with
      | none => rfl
      | some node => cases node <;> rfl

/-- Two paths that lead to different directories. -/
def Apart (t : FileTree) (p q : Path) : Prop :=
  ∃ place place', place ≠ place' ∧ t.locate p = .directory place ∧ t.locate q = .directory place'

/-- In a directory that is there, one of a free name can be made. -/
theorem makeDirectories_below (hdir : t.locate dir = .directory place)
    (hclean : OutputName.IsClean name) (hup : name ≠ "..")
    (hfree : t.pathExists ⟨dir.root, dir.parts ++ [name]⟩ = .ok false) (bound : Nat) :
    ∃ made, t.makeDirectories (bound + 1) ⟨dir.root, dir.parts ++ [name]⟩ = (made, .ok ()) := by
  rw [pathExists_below hdir hclean hup] at hfree
  split at hfree
  · cases hfree
  next hfits =>
  have hname := OutputDirectory.makeable_of_isClean hclean hup (Nat.not_lt.1 hfits)
  have hnone : t.at? (place ++ [name]) = none := by
    simpa using hfree
  have hthere : t.surelyExists dir = true := by
    rw [surelyExists, pathExists, hdir]
    rfl
  have habove : madeAbove bound t ⟨dir.root, dir.parts ++ [name]⟩ = (t, .ok ()) := by
    rw [madeAbove, Path.parent_concat, if_neg]
    rw [show (⟨dir.root, dir.parts⟩ : Path) = dir from rfl, hthere]
    simp
  have hlast : Path.name ⟨dir.root, dir.parts ++ [name]⟩ = name := by
    simp [Path.name]
  obtain ⟨made, hmade⟩ := makeDirectory_below (p := ⟨dir.root, dir.parts ++ [name]⟩)
    (by rw [Path.parent_concat]; exact hdir) (by simp) (by rw [hlast]; exact hname)
    (by rw [hlast]; exact hnone)
  refine ⟨made, ?_⟩
  rw [makeDirectories_succ, habove, hmade]
  rfl

/-- A directory that is there stays so when the tree grows. -/
theorem Grows.isDirectory {u : FileTree} (h : t.Grows u) (hdir : t.isDirectory dir = true) :
    u.isDirectory dir = true := by
  obtain ⟨place, hplace⟩ := exists_place_of_isDirectory hdir
  rw [FileTree.isDirectory, h.locate_directory hplace]

end FileTree

/-! ## One run -/

namespace RunSettings

/-- A configuration that is read without a failure up to the search for a directory, and where that
search begins. -/
structure Accepts (w : World) (options : RunOptions) (path : Path) (dir : Path) (folder : String) :
    Prop where
  destination : destination w options path = .ok (dir, folder)
  years : ∀ config, document w.files path = .ok config → ∃ h, horizonOf config = .ok h
  regions : ∀ config, document w.files path = .ok config → ∃ names, regionsOf config = .ok names
  inputs : ∀ config, document w.files path = .ok config → ∀ key ∈ ["mac_file", "price_file"],
    ∃ file, pathOf w.home path.parent ((Entries.get? config key).getD .null) = .ok file

variable {w : World} {options : RunOptions} {path dir : Path} {folder : String}

theorem exists_folderOf (h : destination w options path = .ok (dir, folder)) :
    ∃ config, document w.files path = .ok config ∧
      pathOf w.home path.parent ((Entries.get? config "output_dir").getD (.text "output")) =
        .ok (some dir) ∧ folderOf options config = .ok folder := by
  obtain ⟨config, hconfig, h⟩ := bind_eq_ok_iff.1 h
  obtain ⟨above, habove, h⟩ := bind_eq_ok_iff.1 h
  obtain ⟨name, hname, h⟩ := bind_eq_ok_iff.1 h
  cases above with
  | none => cases h
  | some d =>
      cases h
      exact ⟨config, hconfig, habove, hname⟩

/-- Only the directory of an accepted run is still open. -/
theorem describe_of_accepts (h : Accepts w options path dir folder) :
    ∃ s : RunSettings, describe w options .fresh path =
      (OutputDirectory.select w.files (dir.child folder)).map fun output => { s with output } := by
  obtain ⟨config, hconfig, habove, hfolder⟩ := exists_folderOf h.destination
  obtain ⟨horizon, hhorizon⟩ := h.years config hconfig
  obtain ⟨regions, hregions⟩ := h.regions config hconfig
  obtain ⟨catalogueFile, hcatalogue⟩ := h.inputs config hconfig "mac_file" (by simp)
  obtain ⟨priceFile, hprices⟩ := h.inputs config hconfig "price_file" (by simp)
  refine ⟨⟨options, path, horizon, regions, catalogueFile, priceFile,
    constantsTable (.table config), dir⟩, ?_⟩
  rw [describe, hconfig, ok_bind]
  dsimp only
  rw [hhorizon, ok_bind, hregions, ok_bind, hcatalogue, ok_bind, hprices, ok_bind, outputOf,
    habove, ok_bind, hfolder, ok_bind]
  dsimp only
  generalize OutputDirectory.select w.files (dir.child folder) = found
  cases found <;> rfl

/-- A document that is read is read alike when files are added. -/
theorem document_of_grows {t u : FileTree} (hgrows : t.Grows u) {config : List (String × Value)}
    (h : document t path = .ok config) : document u path = .ok config := by
  obtain ⟨there, hthere, hload⟩ := bind_eq_ok_iff.1 h
  cases there with
  | false => cases hload
  | true =>
      rw [if_pos rfl] at hload
      obtain ⟨bytes, hread, hparse⟩ := bind_eq_ok_iff.1 hload
      have hfile : ∃ place, t.locate path = .file place bytes := by
        rw [FileTree.read] at hread
        split at hread <;> cases hread
        exact ⟨_, ‹_›⟩
      obtain ⟨place, hplace⟩ := hfile
      have hplace' := hgrows.locate_file hplace
      rw [document, FileTree.pathExists, hplace', ok_bind, if_pos rfl, Toml.load, FileTree.read,
        hplace', ok_bind]
      exact hparse

/-- What other runs add to the files does not make a configuration unacceptable. -/
theorem Accepts.of_grows {v : World} (h : Accepts w options path dir folder)
    (hgrows : w.files.Grows v.files) (hhome : v.home = w.home) :
    Accepts v options path dir folder := by
  obtain ⟨config, hconfig, habove, hfolder⟩ := exists_folderOf h.destination
  have hconfig' := document_of_grows hgrows hconfig
  have hsame : ∀ other, document v.files path = .ok other → config = other := by
    intro other hother
    rw [hconfig'] at hother
    exact Except.ok.inj hother
  refine ⟨?_, fun other hother => ?_, fun other hother => ?_, fun other hother => ?_⟩
  · rw [RunSettings.destination, hconfig', ok_bind, hhome, habove, ok_bind, hfolder, ok_bind]
    rfl
  · exact hsame other hother ▸ h.years config hconfig
  · exact hsame other hother ▸ h.regions config hconfig
  · rw [hhome]
    exact hsame other hother ▸ h.inputs config hconfig

open OutputDirectory in
/-- What comes of an accepted run, and the files after it. -/
inductive Placed (before : FileTree) (dir : Path) (folder : String) :
    Except Failure RunSettings → FileTree → Prop where
  /-- It is given the directory with the least number that is free. -/
  | made {k : Nat} {s : RunSettings} {after : FileTree} (hk : k < attempts)
      (least : ∀ j < k, Taken before dir folder j) (output : s.output = tried dir folder k)
      (made : MadeIn before after dir (numbered folder k)) : Placed before dir folder (.ok s) after
  /-- Everything that it may try is taken. -/
  | full (all : ∀ k < attempts, Taken before dir folder k) :
      Placed before dir folder (.error (.noFreeDirectory folder attempts)) before
  /-- It comes to a name that no directory can have. -/
  | tooLong {k : Nat} (hk : k < attempts) (least : ∀ j < k, Taken before dir folder j)
      (long : FileTree.longestName < (numbered folder k).utf8ByteSize) :
      Placed before dir folder (.error (.nameTooLong (tried dir folder k).text)) before

open OutputDirectory in
/-- What comes of a run that is accepted in a directory that is there. -/
theorem placed_of_accepts (hfiles : w.files.WellFormed) (hdir : w.files.isDirectory dir = true)
    (h : Accepts w options path dir folder) (hpoint : folder ≠ ".") (hup : folder ≠ "..") :
    Placed w.files dir folder ((prepare options .fresh path).result w).1
      ((prepare options .fresh path).result w).2.files := by
  obtain ⟨config, -, -, hfolder⟩ := exists_folderOf h.destination
  have hpart := isPart_of_folderOf hfolder hpoint
  have hclean := OutputName.isClean_of_folderOf hfolder
  obtain ⟨place, hplace⟩ := FileTree.exists_place_of_isDirectory hdir
  obtain ⟨s, hdescribe⟩ := describe_of_accepts h
  rw [result_prepare, hdescribe]
  rcases select_cases w.files dir hpart with
    ⟨k, hk, hleast, ⟨hfree, hselect⟩ | ⟨failure, hfails, hselect⟩⟩ | ⟨hall, hselect⟩
  · have hnew : w.files.surelyExists (tried dir folder k) = false := by
      rw [FileTree.surelyExists, hfree]
      rfl
    obtain ⟨made, hmade⟩ := FileTree.makeDirectories_below hplace (isClean_numbered hclean k)
      (numbered_ne_up hup k) hfree (tried dir folder k).parts.length
    rw [hselect]
    dsimp only [Except.map]
    rw [result_ensure hnew]
    rw [tried] at hmade ⊢
    rw [hmade]
    exact .made hk hleast rfl (hfiles.madeIn hfree hmade)
  · rw [tried, FileTree.pathExists_below hplace (isClean_numbered hclean k)
      (numbered_ne_up hup k)] at hfails
    split at hfails
    · next hlong =>
        cases hfails
        rw [hselect]
        exact .tooLong hk hleast hlong
    · cases hfails
  · rw [hselect]
    exact .full hall

open OutputDirectory in
/-- It fails for want of a directory exactly if all that it may try are taken. -/
theorem full_iff (hfiles : w.files.WellFormed) (hdir : w.files.isDirectory dir = true)
    (h : Accepts w options path dir folder) (hpoint : folder ≠ ".") (hup : folder ≠ "..") :
    ((prepare options .fresh path).result w).1 = .error (.noFreeDirectory folder attempts) ↔
      ∀ k < attempts, Taken w.files dir folder k := by
  have hplaced := placed_of_accepts hfiles hdir h hpoint hup
  generalize ((prepare options .fresh path).result w).1 = outcome at hplaced ⊢
  generalize ((prepare options .fresh path).result w).2.files = after at hplaced
  cases hplaced with
  | @made k s after hk least output made =>
      refine iff_of_false (fun hfails => by cases hfails) fun hall => ?_
      have htaken := hall k hk
      rw [Taken, tried, made.not_there] at htaken
      cases htaken
  | full all => exact iff_of_true rfl all
  | @tooLong k hk least long =>
      refine iff_of_false (fun hfails => by cases hfails) fun hall => ?_
      obtain ⟨config, -, -, hfolder⟩ := exists_folderOf h.destination
      obtain ⟨place, hplace⟩ := FileTree.exists_place_of_isDirectory hdir
      have htaken := hall k hk
      rw [Taken, tried, FileTree.pathExists_below hplace
        (isClean_numbered (OutputName.isClean_of_folderOf hfolder) k) (numbered_ne_up hup k),
        if_pos long] at htaken
      cases htaken

end RunSettings

end Macc
