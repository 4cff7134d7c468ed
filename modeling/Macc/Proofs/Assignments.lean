import Macc.Entries

/-!
# Assignments one after the other

Assigning to a key changes what is there or adds one assignment at the end; no
other key and no other place is touched. So the keys of assignments that were
made one after the other are distinct, and keys that are distinct to begin with
are found again in the order they were assigned.
-/

namespace Macc

namespace Entries

variable {κ β : Type} [BEq κ] [LawfulBEq κ]

theorem mem_put {entries : Entries κ β} {key : κ} {value : β} {e : κ × β}
    (h : e ∈ put entries key value) : e = (key, value) ∨ e ∈ entries := by
  induction entries with
  | nil => exact .inl (List.mem_singleton.1 h)
  | cons first rest ih =>
      rw [put] at h
      split at h
      · next hkey =>
          rcases List.mem_cons.1 h with rfl | h
          · exact .inl (by rw [eq_of_beq hkey])
          · exact .inr (List.mem_cons_of_mem _ h)
      · rcases List.mem_cons.1 h with rfl | h
        · exact .inr List.mem_cons_self
        · rcases ih h with h | h
          · exact .inl h
          · exact .inr (List.mem_cons_of_mem _ h)

theorem mem_keys_put {entries : Entries κ β} {key other : κ} {value : β} :
    other ∈ keys (put entries key value) ↔ other = key ∨ other ∈ keys entries := by
  induction entries with
  | nil => simp [put, keys]
  | cons first rest ih =>
      rw [put]
      split
      · next hkey =>
          have hsame : first.1 = key := eq_of_beq hkey
          simp [keys, hsame]
      · simp only [keys, List.map_cons, List.mem_cons] at ih ⊢
        rw [ih]
        exact or_left_comm

theorem has_put (entries : Entries κ β) (key : κ) (value : β) (other : κ) :
    has (put entries key value) other = true ↔ other = key ∨ has entries other = true := by
  rw [has, has]
  by_cases hsame : other = key
  · rw [hsame, get?_put_self]
    exact iff_of_true rfl (.inl rfl)
  · rw [get?_put_of_ne entries value hsame, or_iff_right hsame]

theorem nodup_keys_put {entries : Entries κ β} (h : (keys entries).Nodup) (key : κ)
    (value : β) : (keys (put entries key value)).Nodup := by
  induction entries with
  | nil => exact List.pairwise_singleton _ key
  | cons first rest ih =>
      obtain ⟨hfirst, hrest⟩ := List.nodup_cons.1 h
      rw [put]
      split
      · exact h
      · next hkey =>
          refine List.nodup_cons.2 ⟨?_, ih hrest⟩
          intro hmem
          rcases mem_keys_put.1 hmem with hsame | hmem
          · exact hkey (by rw [← hsame]; exact beq_self_eq_true _)
          · exact hfirst hmem

theorem not_mem_keys_cons {first : κ × β} {rest : Entries κ β} {key : κ}
    (h : key ∉ keys (first :: rest)) : ¬(first.1 == key) = true ∧ key ∉ keys rest := by
  constructor
  · intro hkey
    rw [← eq_of_beq hkey] at h
    exact h List.mem_cons_self
  · intro hrest
    exact h (List.mem_cons_of_mem _ hrest)

theorem get?_eq_none {entries : Entries κ β} {key : κ} (h : key ∉ keys entries) :
    get? entries key = none := by
  induction entries with
  | nil => rfl
  | cons first rest ih =>
      obtain ⟨hfirst, hrest⟩ := not_mem_keys_cons h
      rw [get?, if_neg hfirst]
      exact ih hrest

/-- A new key goes to the end. -/
theorem put_of_not_mem {entries : Entries κ β} {key : κ} (h : key ∉ keys entries) (value : β) :
    put entries key value = entries ++ [(key, value)] := by
  induction entries with
  | nil => rfl
  | cons first rest ih =>
      obtain ⟨hfirst, hrest⟩ := not_mem_keys_cons h
      rw [put, if_neg hfirst, ih hrest]
      rfl

/-- A key that is there stays where it is. -/
theorem keys_put_of_mem {entries : Entries κ β} {key : κ} (h : key ∈ keys entries) (value : β) :
    keys (put entries key value) = keys entries := by
  induction entries with
  | nil => cases h
  | cons first rest ih =>
      rw [put]
      split
      · rfl
      · next hkey =>
          have hrest : key ∈ keys rest := by
            rcases List.mem_cons.1 h with rfl | hrest
            · exact absurd (beq_self_eq_true _) hkey
            · exact hrest
          exact congrArg (first.1 :: ·) (ih hrest)

theorem keys_foldl_put (assignments : List (κ × β)) (entries : Entries κ β) :
    keys (assignments.foldl (fun entries e => put entries e.1 e.2) entries) =
      keys entries ++
        ((assignments.map (·.1)).filter fun key => !(keys entries).contains key).eraseDups := by
  induction assignments generalizing entries with
  | nil => rw [List.foldl_nil, List.map_nil, List.filter_nil, List.eraseDups_nil, List.append_nil]
  | cons e rest ih =>
      rw [List.foldl_cons, ih, List.map_cons, List.filter_cons]
      by_cases hkey : e.1 ∈ keys entries
      · rw [keys_put_of_mem hkey, if_neg (by simpa using hkey)]
      · have hkeys : keys (put entries e.1 e.2) = keys entries ++ [e.1] := by
          rw [put_of_not_mem hkey, keys, List.map_append]
          rfl
        have hlater : ∀ key : κ, (!(keys entries ++ [e.1]).contains key) =
            (!key == e.1 && !(keys entries).contains key) := by
          intro key
          rw [List.contains_append, List.contains_cons, List.contains_nil, Bool.or_false,
            Bool.not_or, Bool.and_comm]
        -- the new key stands at the end now, and no later assignment to it counts as new
        rw [hkeys, if_pos (by simpa using hkey), List.eraseDups_cons, List.filter_filter,
          List.append_assoc]
        simp only [hlater]
        rfl

/-- The keys of assignments stand in the order in which they were first assigned. -/
theorem keys_ofAssignments (assignments : List (κ × β)) :
    keys (ofAssignments assignments) = (assignments.map (·.1)).eraseDups := by
  have hkeys := keys_foldl_put assignments ([] : Entries κ β)
  have hall : ((assignments.map (·.1)).filter fun key => !(keys ([] : Entries κ β)).contains key) =
      assignments.map (·.1) := List.filter_eq_self.2 fun _ _ => rfl
  rw [hall] at hkeys
  exact hkeys

theorem nodup_keys_ofAssignments (assignments : List (κ × β)) :
    (keys (ofAssignments assignments)).Nodup := by
  have hfold : ∀ entries : Entries κ β, (keys entries).Nodup →
      (keys (assignments.foldl (fun entries e => put entries e.1 e.2) entries)).Nodup := by
    induction assignments with
    | nil => exact fun _ h => h
    | cons e rest ih => exact fun entries h => ih _ (nodup_keys_put h e.1 e.2)
  exact hfold [] List.nodup_nil

/-- An assignment whose key occurs once is what its key is assigned. -/
theorem get?_of_mem {entries : Entries κ β} (h : (keys entries).Nodup) {e : κ × β}
    (he : e ∈ entries) : get? entries e.1 = some e.2 := by
  induction entries with
  | nil => cases he
  | cons first rest ih =>
      obtain ⟨hfirst, hrest⟩ := List.nodup_cons.1 h
      rw [get?]
      rcases List.mem_cons.1 he with rfl | he
      · rw [if_pos (beq_self_eq_true _)]
      · have hne : ¬(first.1 == e.1) = true := by
          intro heq
          have hnew : first.1 ∉ keys rest := hfirst
          rw [eq_of_beq heq] at hnew
          exact hnew (List.mem_map_of_mem he)
        rw [if_neg hne]
        exact ih hrest he

theorem get?_foldl_put (assignments : List (κ × β)) (entries : Entries κ β) (key : κ) :
    get? (assignments.foldl (fun entries e => put entries e.1 e.2) entries) key =
      (((assignments.filter fun e => e.1 == key).getLast?).map (·.2)).or (get? entries key) := by
  induction assignments generalizing entries with
  | nil => rfl
  | cons e rest ih =>
      rw [List.foldl_cons, ih]
      by_cases hkey : (e.1 == key) = true
      · rw [List.filter_cons, if_pos hkey, List.getLast?_cons, ← eq_of_beq hkey, get?_put_self]
        cases (rest.filter fun other => other.1 == e.1).getLast? <;> rfl
      · have hne : key ≠ e.1 := by
          intro heq
          exact hkey (by rw [heq]; exact beq_self_eq_true _)
        rw [List.filter_cons, if_neg hkey, get?_put_of_ne entries e.2 hne]

/-- Of assignments to one key the last counts. -/
theorem get?_ofAssignments (assignments : List (κ × β)) (key : κ) :
    get? (ofAssignments assignments) key =
      ((assignments.filter fun e => e.1 == key).getLast?).map (·.2) := by
  rw [ofAssignments, get?_foldl_put, get?, Option.or_none]

end Entries

end Macc
