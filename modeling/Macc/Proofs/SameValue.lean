import Macc.Value

/-!
# Values can be compared

Values nest through lists and tables, so their equality is decided by three
functions that call each other along the structure of the first value: on
values, on the items of lists and on the entries of tables, whose order counts.
Doubles are compared for identity here, so nan is itself and the zeros differ.
-/

namespace Macc.Value

mutual

def same : Value → Value → Bool
  | .null, .null => true
  | .bool a, .bool b => a == b
  | .int m, .int n => m == n
  | .float x, .float y => decide (x = y)
  | .text s, .text t => s == t
  | .list items, .list others => sameItems items others
  | .table entries, .table others => sameEntries entries others
  | .date d, .date e => decide (d = e)
  | .time t, .time u => decide (t = u)
  | .moment m, .moment n => decide (m = n)
  | _, _ => false

def sameItems : List Value → List Value → Bool
  | [], [] => true
  | v :: rest, w :: others => same v w && sameItems rest others
  | _, _ => false

/-- Whether two tables have the same entries in the same order. -/
def sameEntries : List (String × Value) → List (String × Value) → Bool
  | [], [] => true
  | (key, v) :: rest, (other, w) :: others =>
    key == other && same v w && sameEntries rest others
  | _, _ => false

end

mutual

theorem same_iff : ∀ v w : Value, same v w = true ↔ v = w
  | .list items, w => by cases w <;> simp [same, sameItems_iff items]
  | .table entries, w => by cases w <;> simp [same, sameEntries_iff entries]
  | .null, w | .bool _, w | .int _, w | .float _, w | .text _, w | .date _, w | .time _, w
  | .moment _, w => by cases w <;> simp [same]

theorem sameItems_iff : ∀ items others : List Value,
    sameItems items others = true ↔ items = others
  | [], others => by cases others <;> simp [sameItems]
  | v :: rest, others => by cases others <;> simp [sameItems, same_iff v, sameItems_iff rest]

theorem sameEntries_iff : ∀ entries others : List (String × Value),
    sameEntries entries others = true ↔ entries = others
  | [], others => by cases others <;> simp [sameEntries]
  | (key, v) :: rest, others => by
      cases others <;>
        simp [sameEntries, same_iff v, sameEntries_iff rest, Prod.ext_iff]

end

instance : DecidableEq Value :=
  fun v w => decidable_of_iff (same v w = true) (same_iff v w)

end Macc.Value
