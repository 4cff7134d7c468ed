import Macc.Proofs.Files

/-!
# New directories

A directory is made with those above it that are not there yet, from the top
down, and what was made stays when a later one cannot be made. So the question
is when that happens, and the answer is in the names alone. Where a directory was
just made nothing stands in it, hence the next one below can be made unless its
name is no name: two points, too many bytes, a null character. A path whose
missing parts are all names is therefore made completely or not at all.

This needs trees in which nothing stands outside a directory; making directories
keeps them so.
-/

namespace Macc

theorem Entries.mem_of_get? {κ β : Type} [BEq κ] [LawfulBEq κ] {entries : Entries κ β} {key : κ}
    {value : β} (h : get? entries key = some value) : (key, value) ∈ entries := by
  induction entries with
  | nil => cases h
  | cons e rest ih =>
      obtain ⟨k, v⟩ := e
      rw [get?] at h
      split at h
      · next hkey =>
          cases h
          rw [eq_of_beq hkey]
          exact List.mem_cons_self
      · exact List.mem_cons_of_mem _ (ih h)

theorem Path.parent_concat (root : Path.Root) (parts : List String) (name : String) :
    Path.parent ⟨root, parts ++ [name]⟩ = ⟨root, parts⟩ := by
  rw [Path.parent, List.dropLast_concat]

theorem Path.parent_concat_name (p : Path) (h : p.parts ≠ []) :
    (⟨p.root, p.parent.parts ++ [p.name]⟩ : Path) = p := by
  obtain ⟨root, parts⟩ := p
  simp only [Path.parent, Path.name, List.getLast?_eq_some_getLast h, Option.getD_some,
    List.dropLast_concat_getLast h]

namespace FileTree

/-- All that stands in a tree stands in a directory of it. -/
structure WellFormed (t : FileTree) : Prop where
  here : t.at? t.here = some .directory
  above : ∀ place name node, t.at? (place ++ [name]) = some node → t.at? place = some .directory

/-- Whether a directory stands at a place. -/
def isDirectoryAt (t : FileTree) (place : Place) : Bool :=
  match t.at? place with
  | some .directory => true
  | _ => false

theorem isDirectoryAt_iff {t : FileTree} {place : Place} :
    t.isDirectoryAt place = true ↔ t.at? place = some .directory := by
  rw [isDirectoryAt]
  split
  · next h => simp [h]
  · next h => simpa using h

/-- One look at every node tells whether a tree is well-formed. -/
theorem wellFormed_of_nodes {t : FileTree} (hhere : t.isDirectoryAt t.here = true)
    (hnodes : (t.nodes.all fun e => t.isDirectoryAt e.1.dropLast) = true) : t.WellFormed := by
  refine ⟨isDirectoryAt_iff.1 hhere, fun place name node hnode => ?_⟩
  rw [at?, if_neg (by simp)] at hnode
  have habove := List.all_eq_true.1 hnodes _ (Entries.mem_of_get? hnode)
  rw [List.dropLast_concat] at habove
  exact isDirectoryAt_iff.1 habove

/-- A tree that has all that another one has. -/
structure Grows (t u : FileTree) : Prop where
  here : u.here = t.here
  kept : ∀ place node, t.at? place = some node → u.at? place = some node

theorem Grows.refl (t : FileTree) : t.Grows t := ⟨rfl, fun _ _ h => h⟩

theorem Grows.trans {t u v : FileTree} (h : t.Grows u) (h' : u.Grows v) : t.Grows v :=
  ⟨h'.here.trans h.here, fun place node hnode => h'.kept place node (h.kept place node hnode)⟩

theorem Grows.at?_eq_none {t u : FileTree} (h : t.Grows u) {place : Place}
    (hnone : u.at? place = none) : t.at? place = none := by
  cases hnode : t.at? place with
  | none => rfl
  | some node =>
      rw [h.kept place node hnode] at hnone
      cases hnone

theorem WellFormed.below_absent {t : FileTree} (ht : t.WellFormed) {place : Place}
    (hnone : t.at? place = none) (name : String) : t.at? (place ++ [name]) = none := by
  cases hnode : t.at? (place ++ [name]) with
  | none => rfl
  | some node =>
      rw [ht.above place name node hnode] at hnone
      cases hnone

theorem WellFormed.dropLast {t : FileTree} (ht : t.WellFormed) {place : Place}
    (h : t.at? place = some .directory) : t.at? place.dropLast = some .directory := by
  rcases List.eq_nil_or_concat place with rfl | ⟨above, name, rfl⟩
  · rfl
  · rw [List.concat_eq_append] at h ⊢
    rw [List.dropLast_concat]
    exact ht.above above name _ h

/-! ## One more part of a path -/

/-- Whether a directory may have a name. -/
structure Makeable (name : String) : Prop where
  not_up : name ≠ ".."
  fits : name.utf8ByteSize ≤ longestName
  no_null : name.toList.contains (Char.ofNat 0) = false

/-- What following one more part comes to. -/
def further (t : FileTree) (name : String) : Located → Located
  | .directory place => t.walk place [name]
  | .file .. | .blocked => .blocked
  | .absent _ | .missing => .missing
  | .nameTooLong => .nameTooLong
  | .nullByte => .nullByte

theorem walk_concat (t : FileTree) (start : Place) (parts : List String) (name : String) :
    t.walk start (parts ++ [name]) = t.further name (t.walk start parts) := by
  induction parts generalizing start with
  | nil => rfl
  | cons first rest ih =>
      rw [List.cons_append, walk.eq_2, walk.eq_2]
      split
      · exact ih _
      · split
        · rfl
        · dsimp only
          split
          · exact ih _
          · cases rest <;> rfl
          · cases rest <;> rfl

theorem walk_name (t : FileTree) (place : Place) {name : String} (h : Makeable name) :
    t.walk place [name] =
      match t.at? (place ++ [name]) with
      | some node => landing (place ++ [name]) node
      | none => .absent (place ++ [name]) := by
  rw [walk, if_neg (by simpa using h.not_up), if_neg (Nat.not_lt.2 h.fits)]
  dsimp only
  cases t.at? (place ++ [name]) with
  | none => rfl
  | some node => cases node <;> rfl

theorem locate_concat (t : FileTree) (root : Path.Root) (parts : List String) {name : String}
    (h : name.toList.contains (Char.ofNat 0) = false) :
    t.locate ⟨root, parts ++ [name]⟩ = t.further name (t.locate ⟨root, parts⟩) := by
  rw [locate, locate, List.any_append, List.any_cons, List.any_nil, h]
  simp only [Bool.or_false]
  split
  · rfl
  · exact walk_concat t _ parts name

theorem no_null_of_locate (t : FileTree) (root : Path.Root) (parts : List String) {name : String}
    (h : t.locate ⟨root, parts ++ [name]⟩ ≠ .nullByte) :
    name.toList.contains (Char.ofNat 0) = false := by
  cases hnull : name.toList.contains (Char.ofNat 0) with
  | false => rfl
  | true =>
      rw [locate, List.any_append, List.any_cons, hnull, if_pos (by simp)] at h
      exact absurd rfl h

/-- What stands somewhere stands in a directory. -/
theorem surelyExists_parent {t : FileTree} {p : Path} (h : t.surelyExists p = true) :
    t.surelyExists p.parent = true := by
  obtain ⟨root, parts⟩ := p
  rcases List.eq_nil_or_concat parts with rfl | ⟨parts, name, rfl⟩
  · exact h
  · rw [List.concat_eq_append] at h ⊢
    rw [Path.parent_concat]
    rw [surelyExists, pathExists] at h ⊢
    have hnull : name.toList.contains (Char.ofNat 0) = false := by
      refine no_null_of_locate t root parts fun hnull => ?_
      rw [hnull] at h
      cases h
    rw [locate_concat t root parts hnull] at h
    cases hbefore : t.locate ⟨root, parts⟩ with
    | directory above => rfl
    | file place bytes => rfl
    | _ =>
        rw [hbefore] at h
        cases h

/-- Where nothing stands, the directory that it would stand in does, and the last part of the path
may be the name of one. -/
theorem exists_above_of_absent {t : FileTree} {p : Path} {place : Place}
    (h : t.locate p = .absent place) :
    ∃ parts name above, p.parts = parts ++ [name] ∧ Makeable name ∧
      t.locate ⟨p.root, parts⟩ = .directory above ∧ place = above ++ [name] ∧
      t.at? place = none := by
  obtain ⟨root, parts⟩ := p
  rcases List.eq_nil_or_concat parts with rfl | ⟨parts, name, rfl⟩
  · cases h
  · rw [List.concat_eq_append] at h ⊢
    have hnull : name.toList.contains (Char.ofNat 0) = false :=
      no_null_of_locate t root parts (by simp [h])
    rw [locate_concat t root parts hnull] at h
    cases hbefore : t.locate ⟨root, parts⟩ with
    | directory above =>
        rw [hbefore, further, walk] at h
        split at h
        · cases h
        · next hup =>
            split at h
            · cases h
            · next hlong =>
                dsimp only at h
                split at h
                · cases h
                · cases h
                · next hnone =>
                    cases h
                    exact ⟨parts, name, above, rfl, ⟨by simpa using hup, Nat.not_lt.1 hlong, hnull⟩,
                      hbefore, rfl, hnone⟩
    | _ =>
        rw [hbefore] at h
        cases h

theorem makeDirectory_eq_ok {t u : FileTree} {p : Path} (h : t.makeDirectory p = .ok u) :
    ∃ place, t.locate p = .absent place ∧ u = t.put place .directory := by
  rw [makeDirectory] at h
  split at h
  · next place hplace =>
      cases h
      exact ⟨place, hplace, rfl⟩
  all_goals cases h

/-! ## Growing trees -/

theorem WellFormed.at?_of_walk {t : FileTree} (ht : t.WellFormed) {start place : Place}
    {parts : List String} (hstart : t.at? start = some .directory)
    (h : t.walk start parts = .directory place) : t.at? place = some .directory := by
  induction parts generalizing start with
  | nil =>
      cases h
      exact hstart
  | cons name rest ih =>
      rw [walk] at h
      split at h
      · exact ih (ht.dropLast hstart) h
      · split at h
        · cases h
        · dsimp only at h
          split at h
          · next hdir => exact ih hdir h
          · split at h <;> cases h
          · split at h <;> cases h

/-- A path that leads to a directory leads to one of the tree. -/
theorem WellFormed.at?_of_locate {t : FileTree} (ht : t.WellFormed) {p : Path} {place : Place}
    (h : t.locate p = .directory place) : t.at? place = some .directory := by
  rw [locate] at h
  split at h
  · cases h
  · refine ht.at?_of_walk ?_ h
    split
    · rfl
    · exact ht.here

theorem Grows.put {t : FileTree} {place : Place} (node : FileNode) (h : t.at? place = none) :
    t.Grows (t.put place node) := by
  refine ⟨rfl, fun other found hfound => ?_⟩
  rw [at?_put_of_ne t node ?_]
  · exact hfound
  · rintro rfl
    rw [h] at hfound
    cases hfound

theorem WellFormed.put {t : FileTree} (ht : t.WellFormed) {above : Place} {name : String}
    (node : FileNode) (habove : t.at? above = some .directory)
    (h : t.at? (above ++ [name]) = none) : (t.put (above ++ [name]) node).WellFormed := by
  have hgrows := Grows.put node h
  refine ⟨hgrows.kept _ _ ht.here, fun place last found hfound => ?_⟩
  by_cases hsame : place ++ [last] = above ++ [name]
  · rw [(List.append_inj' hsame rfl).1]
    exact hgrows.kept _ _ habove
  · rw [at?_put_of_ne t node hsame] at hfound
    exact hgrows.kept _ _ (ht.above place last found hfound)

/-- What making one directory does to a tree. -/
theorem WellFormed.of_makeDirectory {t u : FileTree} (ht : t.WellFormed) {p : Path}
    (h : t.makeDirectory p = .ok u) : u.WellFormed ∧ t.Grows u := by
  obtain ⟨place, hplace, rfl⟩ := makeDirectory_eq_ok h
  obtain ⟨parts, name, above, -, -, habove, rfl, hnone⟩ := exists_above_of_absent hplace
  exact ⟨ht.put .directory (ht.at?_of_locate habove) hnone, Grows.put .directory hnone⟩

/-- A path to where something stands still leads there when the tree has grown. -/
theorem Grows.locate_landing {t u : FileTree} (h : t.Grows u) {p : Path} {place : Place}
    {node : FileNode} (hplace : t.locate p = landing place node) :
    u.locate p = landing place node := by
  have hwalk : ∀ parts start, t.walk start parts = landing place node →
      u.walk start parts = landing place node := by
    intro parts
    induction parts with
    | nil => exact fun _ hstart => hstart
    | cons name rest ih =>
        intro start hstart
        rw [walk] at hstart ⊢
        split at hstart
        · next hup =>
            rw [if_pos hup]
            exact ih _ hstart
        · next hup =>
            split at hstart
            · cases node <;> cases hstart
            · next hlong =>
                rw [if_neg hup, if_neg hlong]
                dsimp only at hstart ⊢
                split at hstart
                · next hdir =>
                    rw [h.kept _ _ hdir]
                    exact ih _ hstart
                · next hfile =>
                    rw [h.kept _ _ hfile]
                    exact hstart
                · split at hstart <;> cases node <;> cases hstart
  rw [locate] at hplace ⊢
  split at hplace
  · cases node <;> cases hplace
  · next hnull =>
      rw [if_neg hnull, h.here]
      exact hwalk _ _ hplace

theorem Grows.locate_directory {t u : FileTree} (h : t.Grows u) {p : Path} {place : Place}
    (hplace : t.locate p = .directory place) : u.locate p = .directory place :=
  h.locate_landing (show t.locate p = landing place .directory from hplace)

theorem Grows.locate_file {t u : FileTree} (h : t.Grows u) {p : Path} {place : Place}
    {bytes : ByteArray} (hplace : t.locate p = .file place bytes) :
    u.locate p = .file place bytes :=
  h.locate_landing (show t.locate p = landing place (.file bytes) from hplace)

/-- A directory stands where it was made. -/
theorem locate_put_directory {t : FileTree} {p : Path} {place : Place}
    (h : t.locate p = .absent place) :
    (t.put place .directory).locate p = .directory place := by
  rw [locate] at h ⊢
  split at h
  · cases h
  · next hnull =>
      rw [if_neg hnull]
      exact walk_put .directory (h ▸ rfl)

/-- A directory that was just made is there, and empty. -/
theorem WellFormed.empty_of_makeDirectory {t u : FileTree} (ht : t.WellFormed) {p : Path}
    (h : t.makeDirectory p = .ok u) :
    ∃ place, u.locate p = .directory place ∧ ∀ name, u.at? (place ++ [name]) = none := by
  obtain ⟨place, hplace, rfl⟩ := makeDirectory_eq_ok h
  obtain ⟨parts, last, above, -, -, -, -, hnone⟩ := exists_above_of_absent hplace
  refine ⟨place, locate_put_directory hplace, fun name => ?_⟩
  rw [at?_put_of_ne t _ (by simp)]
  exact ht.below_absent hnone name

/-- Where nothing of a name stands in a directory, one of that name can be made. -/
theorem makeDirectory_below {t : FileTree} {p : Path} {above : Place}
    (habove : t.locate p.parent = .directory above) (hparts : p.parts ≠ [])
    (hname : Makeable p.name) (hnone : t.at? (above ++ [p.name]) = none) :
    ∃ made, t.makeDirectory p = .ok made := by
  refine ⟨t.put (above ++ [p.name]) .directory, ?_⟩
  have hlocate := locate_concat t p.root p.parent.parts hname.no_null
  rw [show t.locate ⟨p.root, p.parent.parts⟩ = .directory above from habove, further,
    walk_name t above hname, hnone, p.parent_concat_name hparts] at hlocate
  rw [makeDirectory, hlocate]

/-! ## Directories from the top down -/

/-- The tree with the directories made that stand above a new one, if they have to be. -/
def madeAbove (bound : Nat) (t : FileTree) (p : Path) : FileTree × Except Failure Unit :=
  if (p.isAbsolute || !p.parent.parts.isEmpty) && !p.parts.isEmpty && !t.surelyExists p.parent then
    makeDirectories bound t p.parent
  else (t, .ok ())

/-- Whether the making goes on after what came of the directories above. -/
def passes : Except Failure Unit → Bool
  | .ok () => true
  | .error failure => failure.kind == .fileExists

theorem makeDirectories_succ (bound : Nat) (t : FileTree) (p : Path) :
    makeDirectories (bound + 1) t p =
      if passes (madeAbove bound t p).2 then
        match (madeAbove bound t p).1.makeDirectory p with
        | .ok made => (made, .ok ())
        | .error failure => ((madeAbove bound t p).1, .error failure)
      else madeAbove bound t p := rfl

theorem WellFormed.of_madeAbove {t : FileTree} (ht : t.WellFormed) {bound : Nat} {p : Path}
    (h : (makeDirectories bound t p.parent).1.WellFormed ∧
      t.Grows (makeDirectories bound t p.parent).1) :
    (madeAbove bound t p).1.WellFormed ∧ t.Grows (madeAbove bound t p).1 := by
  rw [madeAbove]
  split
  · exact h
  · exact ⟨ht, .refl t⟩

/-- Whether or not all directories could be made, the tree has grown. -/
theorem WellFormed.of_makeDirectories {t : FileTree} (ht : t.WellFormed) (bound : Nat) (p : Path) :
    (makeDirectories bound t p).1.WellFormed ∧ t.Grows (makeDirectories bound t p).1 := by
  induction bound generalizing p with
  | zero => exact ⟨ht, .refl t⟩
  | succ bound ih =>
      have habove := ht.of_madeAbove (ih p.parent)
      rw [makeDirectories_succ]
      split
      · split
        · next made hmade =>
            obtain ⟨hwell, hgrows⟩ := habove.1.of_makeDirectory hmade
            exact ⟨hwell, habove.2.trans hgrows⟩
        · exact habove
      · exact habove

/-- When all directories could be made, the last one was made in a tree that had grown. -/
theorem WellFormed.of_makeDirectories_ok {t u : FileTree} (ht : t.WellFormed) {bound : Nat}
    {p : Path} (h : makeDirectories bound t p = (u, .ok ())) :
    ∃ v, v.WellFormed ∧ t.Grows v ∧ v.makeDirectory p = .ok u := by
  cases bound with
  | zero => cases h
  | succ bound =>
      have habove := ht.of_madeAbove (ht.of_makeDirectories bound p.parent)
      rw [makeDirectories_succ] at h
      split at h
      · split at h
        · next made hmade =>
            cases h
            exact ⟨_, habove.1, habove.2, hmade⟩
        · cases h
      · next hpasses =>
          rw [h] at hpasses
          exact absurd rfl hpasses

/-- Whether the parts of a path that are not there are names of directories. -/
def CanMake (t : FileTree) (p : Path) : Prop :=
  ∀ front part, front ++ [part] <+: p.parts → t.surelyExists ⟨p.root, front ++ [part]⟩ = false →
    Makeable part

theorem CanMake.name {t : FileTree} {p : Path} (h : t.CanMake p) (hparts : p.parts ≠ [])
    (hnew : t.surelyExists p = false) : Makeable p.name := by
  have hp := p.parent_concat_name hparts
  refine h p.parent.parts p.name ?_ (by rw [hp, hnew])
  exact (congrArg Path.parts hp) ▸ List.prefix_refl _

theorem CanMake.parent {t : FileTree} {p : Path} (h : t.CanMake p) : t.CanMake p.parent :=
  fun front part hpath => h front part (hpath.trans (List.dropLast_prefix p.parts))

/-- A path whose missing parts are names is made completely or not at all. -/
theorem WellFormed.eq_of_makeDirectories_error {t u : FileTree} (ht : t.WellFormed) {bound : Nat}
    {p : Path} {failure : Failure} (hbound : p.parts.length < bound)
    (hnew : t.surelyExists p = false) (hcan : t.surelyExists p.parent = true ∨ t.CanMake p)
    (h : makeDirectories bound t p = (u, .error failure)) : u = t := by
  induction bound generalizing u p failure with
  | zero => exact absurd hbound (Nat.not_lt_zero _)
  | succ bound ih =>
      rw [makeDirectories_succ, madeAbove] at h
      split at h
      · next hrecursion =>
          simp only [Bool.and_eq_true, Bool.not_eq_true'] at hrecursion
          obtain ⟨⟨-, hparts⟩, hmissing⟩ := hrecursion
          have hcan : t.CanMake p := hcan.resolve_left (by simp [hmissing])
          have hlength : p.parent.parts.length < bound := by
            have hpos : 0 < p.parts.length := List.length_pos_iff.2 (by simpa using hparts)
            simp only [Path.parent, List.length_dropLast]
            omega
          rcases habove : makeDirectories bound t p.parent with ⟨v, cause | _⟩
          · -- nothing was made above, and then nothing is made at the end of the path
            obtain rfl := ih hlength hmissing (.inr hcan.parent) habove
            rw [habove] at h
            split at h
            · split at h
              · cases h
              · cases h
                rfl
            · cases h
              rfl
          · -- the directory above was just made, so that nothing stands in the way of the last one
            obtain ⟨x, hx, -, hmade⟩ := ht.of_makeDirectories_ok habove
            obtain ⟨above, hplace, hempty⟩ := hx.empty_of_makeDirectory hmade
            have hne : p.parts ≠ [] := by simpa using hparts
            obtain ⟨made, hlast⟩ :=
              makeDirectory_below hplace hne (hcan.name hne hnew) (hempty p.name)
            rw [habove] at h
            simp only [passes, if_true, hlast] at h
            cases h
      · split at h
        · split at h
          · cases h
          · cases h
            rfl
        · cases h

end FileTree

end Macc
