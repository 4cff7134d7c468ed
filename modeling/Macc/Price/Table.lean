import Macc.Entries
import Macc.Logged

/-!
# Prices by market, region and period

A price table answers which price a market has in a region and period. Rows are
entered one after the other, and a later row with the same key takes the place of
the earlier one. A market or region can be absent from a row; such a row is kept,
but no name ever finds it.
-/

namespace Macc

structure PriceKey where
  market : Option String
  region : Option String
  period : Int
  deriving Repr, DecidableEq

/-- The prices, in the order their keys were first entered. -/
structure PriceTable (α : Type) where
  prices : Entries PriceKey α
  deriving DecidableEq

namespace PriceTable

variable {α : Type}

def empty : PriceTable α := ⟨[]⟩

/-- The table of some rows; of rows with one key the last counts. -/
def ofRows (rows : List (PriceKey × α)) : PriceTable α :=
  ⟨Entries.ofAssignments rows⟩

def price? (t : PriceTable α) (market region : String) (period : Int) : Option α :=
  Entries.get? t.prices ⟨some market, some region, period⟩

/-- The price of a market; a missing one is reported. -/
def expectPrice (t : PriceTable α) (market region : String) (period : Int) :
    Logged (Option α) := do
  let found := t.price? market region period
  if found.isNone then
    note (.missingPrice market region (toString period))
  pure found

def size (t : PriceTable α) : Nat :=
  t.prices.length

/-- The markets that have a price anywhere, each once. -/
def markets (t : PriceTable α) : List (Option String) :=
  (t.prices.map (·.1.market)).eraseDups

end PriceTable

end Macc
