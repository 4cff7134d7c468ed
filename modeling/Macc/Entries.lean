/-!
# Assignments in the order they were made

Several things the program keeps are maps whose order shows in its answers: the
keys of a document, the curves of a catalogue, the rows behind a price. They are
lists of assignments in which each key occurs once, where it was first assigned,
with the value it was last assigned.
-/

namespace Macc

/-- Keys with their values, in order of first assignment. -/
abbrev Entries (κ β : Type) := List (κ × β)

namespace Entries

variable {κ β : Type} [BEq κ]

def get? (entries : Entries κ β) (key : κ) : Option β :=
  match entries with
  | [] => none
  | (k, v) :: rest => if k == key then some v else get? rest key

/-- `entries` with `key` assigned `value`: in place when the key is there, else at the end. -/
def put (entries : Entries κ β) (key : κ) (value : β) : Entries κ β :=
  match entries with
  | [] => [(key, value)]
  | (k, v) :: rest => if k == key then (k, value) :: rest else (k, v) :: put rest key value

/-- The outcome of assignments made one after the other. -/
def ofAssignments (assignments : List (κ × β)) : Entries κ β :=
  assignments.foldl (fun entries e => put entries e.1 e.2) []

def keys (entries : Entries κ β) : List κ :=
  entries.map (·.1)

def has (entries : Entries κ β) (key : κ) : Bool :=
  (get? entries key).isSome

@[simp]
theorem get?_put_self [LawfulBEq κ] (entries : Entries κ β) (key : κ) (value : β) :
    get? (put entries key value) key = some value := by
  induction entries with
  | nil => simp [put, get?]
  | cons e rest ih =>
    by_cases h : (e.1 == key) = true <;> simp [put, get?, h, ih]

theorem get?_put_of_ne [LawfulBEq κ] (entries : Entries κ β) {key other : κ} (value : β)
    (h : other ≠ key) : get? (put entries key value) other = get? entries other := by
  induction entries with
  | nil => simp [put, get?, h.symm]
  | cons e rest ih =>
    by_cases hk : (e.1 == key) = true
    · have : e.1 = key := by simpa using hk
      simp [put, get?, this, h.symm]
    · simp [put, get?, hk, ih]

end Entries

end Macc
