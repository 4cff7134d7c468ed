import Macc.Proofs.NumberTexts
import Macc.Value.Canonical

/-!
# Where a text or a word ends

Two kinds of value have no parts of their own: quoted texts, and words, that is
names, flags and numbers. A canonical text says itself where such a value ends.
The quote that ends a text is the first one that no character begins with, which
is why a text is read character by character; a character may take one sign or
twelve, but the signs tell how many. A word ends at the first sign that no word
has.

That a word is the word of one value only is a matter of letters: each kind has
one that no other kind before it has, and what is left over are integers, which
have neither a point nor an exponent.
-/

namespace Macc

namespace Text

/-! ## One character -/

/-- What a letter behind a backslash stands for. -/
def unescape? (c : Char) : Option Char :=
  if c == '"' || c == '\\' then some c
  else if c == 'n' then some '\n'
  else if c == 'r' then some '\r'
  else if c == 't' then some '\t'
  else if c == 'f' then some (Char.ofNat 12)
  else if c == 'b' then some (Char.ofNat 8)
  else none

/-- The second half of a character that is written in two, given the first. -/
def readHalf? (first : Nat) : List Char → Option (Char × List Char)
  | '\\' :: 'u' :: a :: b :: c :: d :: rest =>
    some (Char.ofNat (0x10000 + (first - 0xd800) * 0x400 + (valueOf 16 [a, b, c, d] - 0xdc00)), rest)
  | _ => none

/-- The first character of a quoted text, and what follows its signs. -/
def readChar? : List Char → Option (Char × List Char)
  | '\\' :: 'u' :: a :: b :: c :: d :: rest =>
    let unit := valueOf 16 [a, b, c, d]
    if 0xd800 ≤ unit ∧ unit < 0xdc00 then readHalf? unit rest else some (Char.ofNat unit, rest)
  | '\\' :: c :: rest => (unescape? c).map (·, rest)
  | c :: rest => some (c, rest)
  | [] => none

/-- Four digits, for every unit of sixteen bits. -/
theorem exists_hex {n : Nat} (h : n < 0x10000) :
    ∃ a b c d, hex 4 n = [a, b, c, d] ∧ valueOf 16 [a, b, c, d] = n := by
  have hlength : (hex 4 n).length = 4 := by
    have hle : (Nat.toDigits 16 n).length ≤ 4 :=
      (Nat.length_toDigits_le_iff (by decide) (by decide)).2 h
    rw [hex, List.length_append, List.length_replicate]
    omega
  have hvalue := valueOf_hex 4 n
  obtain ⟨a, b, c, d, hdigits⟩ := List.length_eq_four.1 hlength
  exact ⟨a, b, c, d, hdigits, hdigits ▸ hvalue⟩

/-- A character is no half of a pair. -/
theorem toNat_cases (c : Char) : c.toNat < 0xd800 ∨ 0xdfff < c.toNat ∧ c.toNat < 0x110000 :=
  c.valid

theorem readChar?_escapedPoint (c : Char) (rest : List Char) :
    readChar? (escapedPoint c.toNat ++ rest) = some (c, rest) := by
  have hvalid := toNat_cases c
  rw [escapedPoint]
  split
  · next hsmall =>
      obtain ⟨p, q, r, s, hhex, hvalue⟩ := exists_hex hsmall
      rw [escapedUnit, hhex]
      change readChar? ('\\' :: 'u' :: p :: q :: r :: s :: rest) = _
      rw [readChar?, hvalue, if_neg (by omega), Char.ofNat_toNat]
  · next hlarge =>
      have hhigh : 0xd800 + (c.toNat - 0x10000) / 0x400 < 0x10000 := by omega
      have hlow : 0xdc00 + (c.toNat - 0x10000) % 0x400 < 0x10000 := by omega
      obtain ⟨p, q, r, s, hhex, hvalue⟩ := exists_hex hhigh
      obtain ⟨p', q', r', s', hhex', hvalue'⟩ := exists_hex hlow
      dsimp only
      rw [escapedUnit, hhex, escapedUnit, hhex']
      change readChar? ('\\' :: 'u' :: p :: q :: r :: s :: '\\' :: 'u' :: p' :: q' :: r' :: s' ::
        rest) = _
      have hpoint : 0x10000 + (0xd800 + (c.toNat - 0x10000) / 0x400 - 0xd800) * 0x400 +
          (0xdc00 + (c.toNat - 0x10000) % 0x400 - 0xdc00) = c.toNat := by omega
      rw [readChar?, hvalue, if_pos (by omega), readHalf?, hvalue', hpoint, Char.ofNat_toNat]

theorem readChar?_escape {k c : Char} (h : unescape? k = some c) (rest : List Char) :
    readChar? ('\\' :: k :: rest) = some (c, rest) := by
  have hu : k ≠ 'u' := by
    rintro rfl
    cases h
  rw [readChar?, h]
  · rfl
  · rintro p q r s rest' hu' -
    exact hu hu'

theorem readChar?_plain {c : Char} (h : c ≠ '\\') (rest : List Char) :
    readChar? (c :: rest) = some (c, rest) := by
  rw [readChar?]
  · rintro p q r s rest' hback -
    exact h hback
  · rintro k rest' hback -
    exact h hback

/-- A character is read off its signs, whatever follows them. -/
theorem readChar?_canonicalChar (c : Char) (rest : List Char) :
    readChar? (canonicalChar c ++ rest) = some (c, rest) := by
  rw [canonicalChar]
  split
  · next hquote =>
      exact readChar?_escape (by rw [unescape?, if_pos hquote]) rest
  split
  · next hnewline =>
      obtain rfl := beq_iff_eq.1 hnewline
      exact readChar?_escape rfl rest
  split
  · next hreturn =>
      obtain rfl := beq_iff_eq.1 hreturn
      exact readChar?_escape rfl rest
  split
  · next htab =>
      obtain rfl := beq_iff_eq.1 htab
      exact readChar?_escape rfl rest
  split
  · next hfeed =>
      rw [← Char.ofNat_toNat c, hfeed]
      exact readChar?_escape rfl rest
  split
  · next hback =>
      rw [← Char.ofNat_toNat c, hback]
      exact readChar?_escape rfl rest
  split
  · next hquote _ _ _ _ _ _ =>
      have hplain : c ≠ '\\' := by
        rintro rfl
        exact hquote rfl
      exact readChar?_plain hplain rest
  · exact readChar?_escapedPoint c rest

/-- No character begins like the end of a text. -/
theorem canonicalChar_ne_quote (c : Char) (rest rest' : List Char) :
    canonicalChar c ++ rest ≠ '"' :: rest' := by
  intro h
  have hread := readChar?_canonicalChar c rest
  rw [h, readChar?_plain (by decide)] at hread
  obtain ⟨rfl, rfl⟩ := Prod.mk.inj (Option.some.inj hread)
  have hlength := congrArg List.length h
  rw [List.length_append, List.length_cons] at hlength
  have htwo : (canonicalChar '"').length = 2 := rfl
  omega

/-! ## Quoted texts -/

/-- The signs between the quotes. -/
def body (cs : List Char) : List Char :=
  cs.flatMap canonicalChar

theorem toList_canonical (s : String) : (canonical s).toList = '"' :: (body s.toList ++ ['"']) := by
  rw [canonical, String.toList_ofList]
  rfl

/-- A quoted text ends where it says. -/
theorem body_append_inj {cs ds x y : List Char} (h : body cs ++ '"' :: x = body ds ++ '"' :: y) :
    cs = ds ∧ x = y := by
  induction cs generalizing ds with
  | nil =>
      cases ds with
      | nil => exact ⟨rfl, (List.cons_inj_right _).1 h⟩
      | cons d ds =>
          rw [body, body, List.flatMap_nil, List.nil_append, List.flatMap_cons,
            List.append_assoc] at h
          exact absurd h.symm (canonicalChar_ne_quote d _ _)
  | cons c cs ih =>
      cases ds with
      | nil =>
          rw [body, body, List.flatMap_nil, List.nil_append, List.flatMap_cons,
            List.append_assoc] at h
          exact absurd h (canonicalChar_ne_quote c _ _)
      | cons d ds =>
          rw [body, body, List.flatMap_cons, List.flatMap_cons, List.append_assoc,
            List.append_assoc] at h
          have hread := congrArg readChar? h
          rw [readChar?_canonicalChar, readChar?_canonicalChar] at hread
          obtain ⟨rfl, hrest⟩ := Prod.mk.inj (Option.some.inj hread)
          obtain ⟨rfl, hxy⟩ := ih hrest
          exact ⟨rfl, hxy⟩

/-- Texts that begin with a quoted text each begin with the same one. -/
theorem canonical_append_inj {s t : String} {x y : List Char}
    (h : (canonical s).toList ++ x = (canonical t).toList ++ y) : s = t ∧ x = y := by
  rw [toList_canonical, toList_canonical, List.cons_append, List.cons_append, List.append_assoc,
    List.append_assoc] at h
  obtain ⟨hchars, hxy⟩ := body_append_inj ((List.cons_inj_right _).1 h)
  exact ⟨String.toList_inj.1 hchars, hxy⟩

end Text

namespace Value

open Decimal Text

/-! ## Words -/

/-- A value that is written as a word, a name, a flag or a number, and its text. -/
inductive Word : Value → List Char → Prop
  | null : Word .null "null".toList
  | yes : Word (.bool true) "true".toList
  | no : Word (.bool false) "false".toList
  | int (n : ℤ) : Word (.int n) (toString n).toList
  | float (x : Float) : Word (.float x) (canonicalFloat x).toList

theorem Word.toList_canonical {v : Value} {t : List Char} (h : Word v t) :
    v.canonical.toList = t := by
  cases h <;> rfl

/-- What kind of word a text is, told by a letter or a mark that only its kind has. -/
def family (t : List Char) : Nat :=
  if 'r' ∈ t then 0
  else if 'u' ∈ t then 1
  else if 's' ∈ t then 2
  else if 'N' ∈ t then 3
  else if 'I' ∈ t then 4
  else if '.' ∈ t ∨ 'e' ∈ t then 5
  else 6

theorem toList_toString (n : ℤ) :
    (toString n).toList =
      if 0 ≤ n then Nat.toDigits 10 n.toNat else '-' :: Nat.toDigits 10 (-n).toNat := by
  rw [Int.toString_eq_repr, Int.repr_eq_if]
  split
  · exact Nat.toList_repr
  · rw [String.toList_append, Nat.toList_repr]
    rfl

theorem family_of_signs {t : List Char}
    (h : ∀ c ∈ t, isAsciiDigit c = true ∨ c ∈ ['.', 'e', '+', '-']) :
    family t = if '.' ∈ t ∨ 'e' ∈ t then 5 else 6 := by
  have hnot : ∀ c, isAsciiDigit c = false → c ∉ ['.', 'e', '+', '-'] → c ∉ t := by
    intro c hdigit hsign hmem
    rcases h c hmem with hc | hc
    · rw [hdigit] at hc
      cases hc
    · exact hsign hc
  rw [family, if_neg (hnot 'r' (by decide) (by decide)), if_neg (hnot 'u' (by decide) (by decide)),
    if_neg (hnot 's' (by decide) (by decide)), if_neg (hnot 'N' (by decide) (by decide)),
    if_neg (hnot 'I' (by decide) (by decide))]

theorem signs_toString (n : ℤ) : ∀ c ∈ (toString n).toList, isAsciiDigit c = true ∨ c = '-' := by
  rw [toList_toString]
  split
  · exact fun c hc => .inl (isAsciiDigit_of_mem_toDigits hc)
  · exact List.forall_mem_cons.2 ⟨.inr rfl, fun c hc => .inl (isAsciiDigit_of_mem_toDigits hc)⟩

theorem family_int (n : ℤ) : family (toString n).toList = 6 := by
  have hsigns := signs_toString n
  have hword : ∀ c ∈ (toString n).toList, isAsciiDigit c = true ∨ c ∈ ['.', 'e', '+', '-'] := by
    intro c hc
    refine (hsigns c hc).imp_right ?_
    rintro rfl
    decide
  rw [family_of_signs hword, if_neg]
  rintro (hpoint | hexponent)
  · rcases hsigns _ hpoint with h | h <;> cases h
  · rcases hsigns _ hexponent with h | h <;> cases h

variable {negative : Bool} {m : Nat} {e : ℤ}

theorem signs_finite (h : (Binary64.finite negative m e).Canonical) :
    ∀ c ∈ (textOf (.finite negative m e)).toList,
      isAsciiDigit c = true ∨ c ∈ ['.', 'e', '+', '-'] := by
  rw [toList_textOf_finite]
  split
  · exact List.forall_mem_cons.2 ⟨.inr (by decide), (isNumeral_bodyText h).signs⟩
  · exact (isNumeral_bodyText h).signs

theorem family_finite (h : (Binary64.finite negative m e).Canonical) :
    family (textOf (.finite negative m e)).toList = 5 := by
  rw [family_of_signs (signs_finite h), if_pos]
  have hmark := (isNumeral_bodyText h).mark
  rw [toList_textOf_finite]
  split
  · exact hmark.imp (List.mem_cons_of_mem _) (List.mem_cons_of_mem _)
  · exact hmark

theorem canonical_ofFloat (x : Float) : (Binary64.ofFloat x).Canonical :=
  Binary64.canonical_ofBits x.toBits

/-- The kind of word that the text of a double is. -/
def familyOfDouble : Binary64 → Nat
  | .nan => 3
  | .infinite _ => 4
  | .finite _ _ _ => 5

theorem family_canonicalFloat (x : Float) :
    family (canonicalFloat x).toList = familyOfDouble (Binary64.ofFloat x) := by
  have hcanonical := canonical_ofFloat x
  rw [canonicalFloat]
  cases hvalue : Binary64.ofFloat x with
  | nan => decide
  | infinite negative => cases negative <;> decide
  | finite negative m e =>
      rw [hvalue] at hcanonical
      exact family_finite hcanonical

/-- Doubles with one text are one double. -/
theorem canonicalFloat_injective : Function.Injective canonicalFloat := by
  intro x y h
  have hfamily := family_canonicalFloat x
  rw [h, family_canonicalFloat y] at hfamily
  have hx := canonical_ofFloat x
  have hy := canonical_ofFloat y
  refine Binary64.ofFloat_injective ?_
  rw [canonicalFloat, canonicalFloat] at h
  generalize Binary64.ofFloat x = v at h hfamily hx ⊢
  generalize Binary64.ofFloat y = w at h hfamily hy ⊢
  cases v <;> cases w <;> try cases hfamily
  · rfl
  · next negative negative' =>
      cases negative <;> cases negative' <;> first | rfl | exact absurd h (by decide)
  · exact eq_of_textOf_finite hx hy h

/-- The kind of word that a value is written as. -/
def familyOf : Value → Nat
  | .bool true => 0
  | .null => 1
  | .bool false => 2
  | .float x => familyOfDouble (Binary64.ofFloat x)
  | _ => 6

theorem Word.family {v : Value} {t : List Char} (h : Word v t) : Value.family t = familyOf v := by
  cases h with
  | null => decide
  | yes => decide
  | no => decide
  | int n => exact family_int n
  | float x => exact family_canonicalFloat x

theorem familyOf_float (x : Float) : 2 < familyOf (.float x) ∧ familyOf (.float x) < 6 := by
  rw [familyOf]
  cases Binary64.ofFloat x <;> simp [familyOfDouble]

/-- Values with one word are one value. -/
theorem Word.eq {v w : Value} {t u : List Char} (h : Word v t) (h' : Word w u) (htext : t = u) :
    v = w := by
  have hfamily : familyOf v = familyOf w := by rw [← h.family, ← h'.family, htext]
  cases h with
  | null =>
      cases h' with
      | null => rfl
      | float y => exact absurd (familyOf_float y).1 (by rw [← hfamily]; decide)
      | _ => cases hfamily
  | yes =>
      cases h' with
      | yes => rfl
      | float y => exact absurd (familyOf_float y).1 (by rw [← hfamily]; decide)
      | _ => cases hfamily
  | no =>
      cases h' with
      | no => rfl
      | float y => exact absurd (familyOf_float y).1 (by rw [← hfamily]; decide)
      | _ => cases hfamily
  | int n =>
      cases h' with
      | int k => rw [Int.repr_inj.1 (String.toList_inj.1 htext)]
      | float y => exact absurd (familyOf_float y).2 (by rw [← hfamily]; exact Nat.lt_irrefl 6)
      | _ => cases hfamily
  | float x =>
      cases h' with
      | float y => rw [canonicalFloat_injective (String.toList_inj.1 htext)]
      | int k => exact absurd (familyOf_float x).2 (by rw [hfamily]; exact Nat.lt_irrefl 6)
      | _ => exact absurd (familyOf_float x).1 (by rw [hfamily]; decide)

/-- Whether a sign is one of a word. -/
def isWordSign (c : Char) : Bool :=
  c.isAlphanum || ['.', '+', '-'].contains c

theorem isWordSign_of_isAsciiDigit {c : Char} (h : isAsciiDigit c = true) :
    isWordSign c = true := by
  have hdigit : c.isDigit = true := by
    rw [isAsciiDigit, Bool.and_eq_true, decide_eq_true_iff, decide_eq_true_iff] at h
    rw [Char.isDigit, Bool.and_eq_true, decide_eq_true_iff, decide_eq_true_iff]
    exact h
  rw [isWordSign, Char.isAlphanum, hdigit, Bool.or_true, Bool.true_or]

theorem isWordSign_of_sign {c : Char} (h : c ∈ ['.', 'e', '+', '-']) : isWordSign c = true := by
  have hall : ['.', 'e', '+', '-'].all isWordSign = true := by decide
  exact List.all_eq_true.1 hall c h

theorem Word.signs {v : Value} {t : List Char} (h : Word v t) :
    t ≠ [] ∧ ∀ c ∈ t, isWordSign c = true := by
  rw [← List.all_eq_true]
  cases h with
  | null => decide
  | yes => decide
  | no => decide
  | int n =>
      have hsigns := signs_toString n
      constructor
      · rw [toList_toString]
        split
        · exact Nat.toDigits_ne_nil
        · exact List.cons_ne_nil _ _
      · refine List.all_eq_true.2 fun c hc => (hsigns c hc).elim isWordSign_of_isAsciiDigit ?_
        rintro rfl
        decide
  | float x =>
      have hcanonical := canonical_ofFloat x
      rw [canonicalFloat]
      cases hvalue : Binary64.ofFloat x with
      | nan => decide
      | infinite negative => cases negative <;> decide
      | finite negative m e =>
          rw [hvalue] at hcanonical
          constructor
          · obtain ⟨c, rest, hbody, -⟩ := (isNumeral_bodyText hcanonical).first
            dsimp only
            rw [toList_textOf_finite, hbody]
            split <;> exact List.cons_ne_nil _ _
          · exact List.all_eq_true.2 fun c hc => (signs_finite hcanonical c hc).elim
              isWordSign_of_isAsciiDigit isWordSign_of_sign

/-- The signs that separate values or close lists and tables. -/
def stops : List Char := [',', ']', '\x7d']

/-- What may follow a value: nothing, or something that begins with such a sign. -/
def Stops (x : List Char) : Prop :=
  ∀ c ∈ x.head?, c ∈ stops

theorem isWordSign_of_stop {c : Char} (h : c ∈ stops) : isWordSign c = false := by
  have hnone : (stops.all fun c => !isWordSign c) = true := by decide
  simpa using List.all_eq_true.1 hnone c h

theorem takeWhile_word {t x : List Char} (ht : ∀ c ∈ t, isWordSign c = true) (hx : Stops x) :
    (t ++ x).takeWhile isWordSign = t := by
  have hstop : x.takeWhile isWordSign = [] := by
    cases x with
    | nil => rfl
    | cons c rest =>
        exact List.takeWhile_cons_of_neg (by rw [isWordSign_of_stop (hx c rfl)]; simp)
  rw [List.takeWhile_append_of_pos ht, hstop, List.append_nil]

/-- Words that texts begin with are one word if the texts are one. -/
theorem Word.append_inj {v w : Value} {t u x y : List Char} (h : Word v t) (h' : Word w u)
    (hx : Stops x) (hy : Stops y) (htext : t ++ x = u ++ y) : v = w ∧ x = y := by
  have hword : t = u := by
    rw [← takeWhile_word h.signs.2 hx, htext, takeWhile_word h'.signs.2 hy]
  exact ⟨h.eq h' hword, List.append_cancel_left (hword ▸ htext)⟩

end Value

end Macc
