import Macc.FileTree

/-!
# Written files are read back

A file is read from the place it was written to, although following its path a
second time goes through a tree that has changed. The change is one place, and
no walk that ends there passes it: what a walk passes are directories, and at
the end of the first walk there was a file or nothing. So the second walk makes
every step of the first one and finds the new bytes.
-/

namespace Macc.FileTree

theorem at?_put_self (t : FileTree) {place : Place} (node : FileNode) (hp : place ≠ []) :
    (t.put place node).at? place = some node := by
  rw [at?, if_neg (by simpa using hp), put]
  exact Entries.get?_put_self t.nodes place node

theorem at?_put_of_ne (t : FileTree) {place other : Place} (node : FileNode)
    (h : other ≠ place) : (t.put place node).at? other = t.at? other := by
  rw [at?, at?, put]
  split
  · rfl
  · exact Entries.get?_put_of_ne t.nodes node h

/-- Whether a walk ends at a place where a file may be put. -/
def Ends (place : Place) : Located → Prop
  | .file found _ => found = place
  | .absent found => found = place
  | _ => False

/-- Where a walk ends there is no directory. -/
theorem Ends.at?_ne {t : FileTree} {place start : Place} {parts : List String}
    (h : Ends place (t.walk start parts)) :
    place ≠ [] ∧ t.at? place ≠ some .directory := by
  induction parts generalizing start with
  | nil => exact h.elim
  | cons name rest ih =>
      rw [walk] at h
      split at h
      · exact ih h
      · split at h
        · exact h.elim
        · dsimp only at h
          split at h
          · exact ih h
          · next bytes hfile =>
              split at h
              · subst h
                exact ⟨by simp, by simp [hfile]⟩
              · exact h.elim
          · next hnone =>
              split at h
              · subst h
                exact ⟨by simp, by simp [hnone]⟩
              · exact h.elim

/-- What a walk comes to that ends at a node. -/
def landing (place : Place) : FileNode → Located
  | .directory => .directory place
  | .file bytes => .file place bytes

theorem walk_put {t : FileTree} {place start : Place} {parts : List String} (node : FileNode)
    (h : Ends place (t.walk start parts)) :
    (t.put place node).walk start parts = landing place node := by
  have hne := h.at?_ne
  have hself := t.at?_put_self node hne.1
  induction parts generalizing start with
  | nil => exact h.elim
  | cons name rest ih =>
      rw [walk] at h ⊢
      split at h
      · next hup =>
          rw [if_pos hup]
          exact ih h
      · next hup =>
          split at h
          · exact h.elim
          · next hlong =>
              rw [if_neg hup, if_neg hlong]
              dsimp only at h ⊢
              split at h
              · next hdir =>
                  have hother : start ++ [name] ≠ place := by
                    rintro rfl
                    exact hne.2 hdir
                  rw [at?_put_of_ne t _ hother, hdir]
                  exact ih h
              all_goals
                split at h
                · next hlast =>
                    subst h
                    rw [hself, List.isEmpty_iff.1 hlast]
                    cases node <;> rfl
                · exact h.elim

/-- What a path leads to after a file was written there. -/
theorem locate_of_write {t written : FileTree} {p : Path} {bytes : ByteArray}
    (h : t.write p bytes = .ok written) : ∃ place, written.locate p = .file place bytes := by
  have hends : ∃ place, written = t.put place (.file bytes) ∧ Ends place (t.locate p) := by
    rw [write] at h
    split at h
    all_goals
      first
        | cases h
          next hloc => exact ⟨_, rfl, by rw [hloc]; rfl⟩
        | cases h
  obtain ⟨place, rfl, hends⟩ := hends
  refine ⟨place, ?_⟩
  rw [locate] at hends ⊢
  split at hends
  · exact hends.elim
  · next hnull =>
      rw [if_neg hnull]
      exact walk_put (.file bytes) hends

theorem pathExists_of_write {t written : FileTree} {p : Path} {bytes : ByteArray}
    (h : t.write p bytes = .ok written) : written.pathExists p = .ok true := by
  obtain ⟨place, hplace⟩ := locate_of_write h
  rw [pathExists, hplace]

theorem read_of_write {t written : FileTree} {p : Path} {bytes : ByteArray}
    (h : t.write p bytes = .ok written) : written.read p = .ok bytes := by
  obtain ⟨place, hplace⟩ := locate_of_write h
  rw [read, hplace]

theorem pathExists_of_read {t : FileTree} {p : Path} {bytes : ByteArray}
    (h : t.read p = .ok bytes) : t.pathExists p = .ok true := by
  rw [read] at h
  rw [pathExists]
  split at h
  · next hfile => rw [hfile]
  all_goals cases h

/-- Writing a file changes the tree only by the write. -/
theorem write_of_withFile {t written : FileTree} {p : Path} {bytes : ByteArray}
    (h : t.withFile p bytes = (written, .ok ())) : t.write p bytes = .ok written := by
  rw [withFile] at h
  split at h
  · next hwrite =>
      rw [hwrite, (Prod.mk.inj h).1]
  · cases h

end Macc.FileTree
