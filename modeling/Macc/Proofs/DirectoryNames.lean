import Macc.Proofs.Digits
import Macc.Proofs.OutputDirectories

/-!
# The names that a run tries

The name of a directory is made of characters that are taken over and of fillers,
whether it was given or is a fingerprint, and a number adds no others. So only
its length can stand against it. A number is read back from its digits, however
many there are, and that is why no name is tried twice.

The search goes on as long as something stands at the name it has come to. It
stops at one that is free, or at one about which there is no answer, or not at
all, and in each case something stands at all names before.
-/

namespace Macc

/-! ## The characters of a directory name -/

namespace OutputName

/-- A name of nothing but characters that are taken over, and fillers. -/
def IsClean (name : String) : Prop :=
  ∀ c ∈ name.toList, isKept c = true ∨ c = filler

/-- Such a name has no null character. -/
theorem IsClean.no_null {name : String} (h : IsClean name) :
    name.toList.contains (Char.ofNat 0) = false := by
  rw [← Bool.not_eq_true, List.contains_iff_mem]
  exact fun hnull => absurd (h _ hnull) (by decide)

theorem isKept_digitChar : ∀ {d : Nat}, d < 16 → isKept (Nat.digitChar d) = true := by
  decide

theorem isKept_of_mem_toDigits {base n : Nat} (hbase : 1 < base) (hsixteen : base ≤ 16) {c : Char}
    (h : c ∈ Nat.toDigits base n) : isKept c = true := by
  obtain ⟨d, hd, rfl⟩ := Text.exists_digit_of_mem hbase h
  exact isKept_digitChar (Nat.lt_of_lt_of_le hd hsixteen)

theorem isKept_of_mem_zeros {count : Nat} {c : Char} (h : c ∈ List.replicate count '0') :
    isKept c = true := by
  rw [List.eq_of_mem_replicate h]
  decide

theorem isClean_sanitize {given name : String} (h : sanitize given = .ok name) :
    IsClean name := by
  obtain ⟨-, hname⟩ := sanitize_eq_ok_iff.1 h
  intro c hc
  rw [← hname] at hc
  exact mem_reduce hc

theorem isKept_of_mem_fingerprint {config : List (String × Value)} {fingerprint : String}
    (h : Fingerprint.ofEntries config = .ok fingerprint) {c : Char} (hc : c ∈ fingerprint.toList) :
    isKept c = true := by
  obtain ⟨text, -, hdigits⟩ := bind_eq_ok_iff.1 h
  cases hdigits
  rw [String.toList_ofList] at hc
  obtain ⟨w, -, hw⟩ := List.mem_flatMap.1 (List.mem_of_mem_take hc)
  rcases List.mem_append.1 hw with hzero | hdigit
  · exact isKept_of_mem_zeros hzero
  · exact isKept_of_mem_toDigits (by decide) (by decide) hdigit

theorem isKept_filler : isKept filler = false := rfl

theorem ne_filler_of_isKept {c : Char} (h : isKept c = true) : c ≠ filler := by
  rintro rfl
  rw [isKept_filler] at h
  cases h

/-- A name in which everything is taken over is left as it is. -/
theorem sanitize_of_kept {given : String} (hgiven : given ≠ "")
    (h : ∀ c ∈ given.toList, isKept c = true) : sanitize given = .ok given := by
  have hplain : ∀ c ∈ given.toList, c ≠ '_' := fun c hc => ne_filler_of_isKept (h c hc)
  refine sanitize_of_isTidy hgiven ⟨fun c hc => ?_, ?_, fun hfirst => ?_, fun hlast => ?_⟩
  · rw [← isKept_eq]
    exact .inl (h c hc)
  · exact (List.pairwise_of_forall_mem_list fun c hc d _ => .inl (hplain c hc)).isChain
  · exact hplain '_' (List.mem_of_mem_head? hfirst) rfl
  · exact hplain '_' (List.mem_of_mem_getLast? hlast) rfl

theorem isClean_of_folderOf {options : RunOptions} {config : List (String × Value)}
    {folder : String} (h : RunSettings.folderOf options config = .ok folder) : IsClean folder := by
  rw [RunSettings.folderOf] at h
  generalize (if RunSettings.isGiven options.outputName = true then options.outputName
    else (Entries.get? config Fingerprint.nameKey).getD .null) = name at h
  split at h
  · obtain ⟨text, -, hname⟩ := bind_eq_ok_iff.1 h
    exact isClean_sanitize hname
  · obtain ⟨fingerprint, hfingerprint, hname⟩ := bind_eq_ok_iff.1 h
    cases hname
    intro c hc
    rw [String.toList_append, List.mem_append] at hc
    rcases hc with hfront | hback
    · have hall : ("mac_".toList.all fun c => isKept c || c == filler) = true := by decide
      simpa using List.all_eq_true.1 hall c hfront
    · exact .inl (isKept_of_mem_fingerprint hfingerprint hback)

end OutputName

/-! ## The names that are tried -/

namespace OutputDirectory

theorem toList_numbered (folder : String) (k : Nat) :
    (numbered folder k).toList =
      folder.toList ++ if k = 0 then [] else '_' :: Text.padded 2 k := by
  rw [numbered]
  split
  · rw [List.append_nil]
  · simp

/-- The names that are tried are all different. -/
theorem numbered_injective (folder : String) : Function.Injective (numbered folder) := by
  intro j k h
  have hnumbers := congrArg String.toList h
  rw [toList_numbered, toList_numbered, List.append_right_inj] at hnumbers
  split at hnumbers
  · split at hnumbers
    · omega
    · cases hnumbers
  · split at hnumbers
    · cases hnumbers
    · exact Text.padded_injective 2 (List.cons_inj_right _ |>.1 hnumbers)

theorem isClean_numbered {folder : String} (h : OutputName.IsClean folder) (k : Nat) :
    OutputName.IsClean (numbered folder k) := by
  intro c hc
  rw [toList_numbered, List.mem_append] at hc
  rcases hc with hfolder | hnumber
  · exact h c hfolder
  · split at hnumber
    · cases hnumber
    · rcases List.mem_cons.1 hnumber with rfl | hpadded
      · exact .inr rfl
      · rcases List.mem_append.1 hpadded with hzero | hdigit
        · exact .inl (OutputName.isKept_of_mem_zeros hzero)
        · exact .inl (OutputName.isKept_of_mem_toDigits (by decide) (by decide) hdigit)

theorem numbered_ne_up {folder : String} (h : folder ≠ "..") (k : Nat) :
    numbered folder k ≠ ".." := by
  rw [numbered]
  split
  · exact h
  · intro hup
    have hmem : '_' ∈ "..".toList := by
      rw [← hup]
      simp
    exact absurd hmem (by decide)

/-- A clean name that is not too long may be the name of a directory. -/
theorem makeable_of_isClean {name : String} (hclean : OutputName.IsClean name) (hup : name ≠ "..")
    (hfits : name.utf8ByteSize ≤ FileTree.longestName) : FileTree.Makeable name :=
  ⟨hup, hfits, hclean.no_null⟩

/-! ## The search -/

/-- The path that is tried after `k` others. -/
def tried (dir : Path) (folder : String) (k : Nat) : Path :=
  ⟨dir.root, dir.parts ++ [numbered folder k]⟩

/-- Whether something stands at the path that is tried after `k` others. -/
def Taken (files : FileTree) (dir : Path) (folder : String) (k : Nat) : Prop :=
  files.pathExists (tried dir folder k) = .ok true

/-- A search stops at the first path at which nothing is known to stand, or goes through all. -/
theorem firstFree_range' (files : FileTree) (paths : Nat → Path) (start count : Nat) :
    (∃ k, start ≤ k ∧ k < start + count ∧
      (∀ j, start ≤ j → j < k → files.pathExists (paths j) = .ok true) ∧
      (files.pathExists (paths k) = .ok false ∧
          firstFree files ((List.range' start count).map paths) = .ok (some (paths k)) ∨
        ∃ failure, files.pathExists (paths k) = .error failure ∧
          firstFree files ((List.range' start count).map paths) = .error failure)) ∨
    (∀ k, start ≤ k → k < start + count → files.pathExists (paths k) = .ok true) ∧
      firstFree files ((List.range' start count).map paths) = .ok none := by
  induction count generalizing start with
  | zero => exact .inr ⟨fun k hk hlt => absurd hlt (by omega), rfl⟩
  | succ count ih =>
      rw [List.range'_succ, List.map_cons, firstFree]
      cases hthere : files.pathExists (paths start) with
      | error failure =>
          exact .inl ⟨start, Nat.le_refl _, by omega, fun j hj hlt => absurd hlt (by omega),
            .inr ⟨failure, hthere, rfl⟩⟩
      | ok there =>
          cases there with
          | false =>
              exact .inl ⟨start, Nat.le_refl _, by omega, fun j hj hlt => absurd hlt (by omega),
                .inl ⟨hthere, rfl⟩⟩
          | true =>
              rcases ih (start + 1) with ⟨k, hk, hlt, hbefore, hstop⟩ | ⟨hall, hnone⟩
              · refine .inl ⟨k, by omega, by omega, fun j hj hjk => ?_, hstop⟩
                rcases Nat.eq_or_lt_of_le hj with rfl | hlater
                · exact hthere
                · exact hbefore j hlater hjk
              · refine .inr ⟨fun k hk hlt => ?_, hnone⟩
                rcases Nat.eq_or_lt_of_le hk with rfl | hlater
                · exact hthere
                · exact hall k hlater (by omega)

/-- What the search for a directory comes to. -/
theorem select_cases (files : FileTree) (dir : Path) {folder : String} (hpart : IsPart folder) :
    (∃ k < attempts, (∀ j < k, Taken files dir folder j) ∧
      (files.pathExists (tried dir folder k) = .ok false ∧
          select files (dir.child folder) = .ok (tried dir folder k) ∨
        ∃ failure, files.pathExists (tried dir folder k) = .error failure ∧
          select files (dir.child folder) = .error failure)) ∨
    (∀ k < attempts, Taken files dir folder k) ∧
      select files (dir.child folder) = .error (.noFreeDirectory folder attempts) := by
  have hpaths : alternative (dir.child folder) = tried dir folder := by
    funext k
    exact alternative_child dir hpart k
  have hname : (dir.child folder).name = folder := by
    rw [Path.child_of_isPart dir hpart]
    simp [Path.name]
  rw [select, hpaths, hname, List.range_eq_range']
  rcases firstFree_range' files (tried dir folder) 0 attempts with
    ⟨k, -, hk, hbefore, hstop⟩ | ⟨hall, hnone⟩
  · refine .inl ⟨k, by omega, fun j hj => hbefore j (Nat.zero_le j) hj, ?_⟩
    rcases hstop with ⟨hfree, hfound⟩ | ⟨failure, hfails, herror⟩
    · exact .inl ⟨hfree, by rw [hfound]; rfl⟩
    · exact .inr ⟨failure, hfails, by rw [herror]; rfl⟩
  · exact .inr ⟨fun k hk => hall k (Nat.zero_le k) (by omega), by rw [hnone]; rfl⟩

end OutputDirectory

end Macc
