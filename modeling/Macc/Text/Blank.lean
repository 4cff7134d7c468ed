/-!
# White space, and text without it at its ends

Names, headers and field names are compared after trimming, so what counts as
blank is part of every key the program forms. The set is fixed here once: the
twenty-nine characters below, of which the four separators `0x1c` to `0x1f` are
blank in running text but not around a number, which is why the second
predicate exists.
-/

namespace Macc.Text

/-- White space of running text. -/
def isBlank (c : Char) : Bool :=
  let n := c.toNat
  (9 ≤ n && n ≤ 13) || (28 ≤ n && n ≤ 32) || n == 0x85 || n == 0xa0 || n == 0x1680 ||
    (0x2000 ≤ n && n ≤ 0x200a) || n == 0x2028 || n == 0x2029 || n == 0x202f ||
    n == 0x205f || n == 0x3000

/-- White space that may stand around a number: the information separators are excluded. -/
def isNumberBlank (c : Char) : Bool :=
  isBlank c && !(28 ≤ c.toNat && c.toNat ≤ 31)

/-- The characters between the first and the last one that `p` does not hold of. -/
def trimBy (p : Char → Bool) (cs : List Char) : List Char :=
  ((cs.dropWhile p).reverse.dropWhile p).reverse

def trim (s : String) : String :=
  String.ofList (trimBy isBlank s.toList)

end Macc.Text
