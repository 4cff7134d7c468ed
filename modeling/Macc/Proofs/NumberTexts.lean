import Macc.Proofs.Digits
import Macc.Proofs.ShortestDigits
import Macc.Decimal.Notation
import Macc.Text.Digit

/-!
# A number can be read off its text

The text of a double has a form that depends on where the point lies: digits
with the point among them, digits filled up with zeros on either side of it, or
one digit in front of the point and an exponent. All of them are read in one
way: the digits up to the point and those behind it, as one number, moved by the
exponent and by the places behind the point. What is read is the decimal that
was written, so two doubles with one text have one decimal, and by
`eq_of_shortest` they are one double.

The signs of the text also tell it from the text of an integer, which has
neither a point nor an exponent.
-/

namespace Macc

/-! ## Digits side by side -/

namespace Text

theorem isAsciiDigit_digitChar : ∀ {d : Nat}, d < 10 → isAsciiDigit (Nat.digitChar d) = true := by
  decide

theorem isAsciiDigit_of_mem_toDigits {n : Nat} {c : Char} (h : c ∈ Nat.toDigits 10 n) :
    isAsciiDigit c = true := by
  obtain ⟨d, hd, rfl⟩ := exists_digit_of_mem (by decide) h
  exact isAsciiDigit_digitChar hd

theorem valueOf_append (base : Nat) (front back : List Char) :
    valueOf base (front ++ back) =
      valueOf base front * base ^ back.length + valueOf base back := by
  induction back using List.reverseRecOn with
  | nil => simp [valueOf]
  | append_singleton back c ih =>
      rw [← List.append_assoc, valueOf_append_singleton, ih, valueOf_append_singleton,
        List.length_append, List.length_singleton, pow_succ]
      ring

theorem valueOf_append_zeros (base count : Nat) (digits : List Char) :
    valueOf base (digits ++ List.replicate count '0') = valueOf base digits * base ^ count := by
  have hzeros : valueOf base (List.replicate count '0') = 0 := by
    rw [← List.append_nil (List.replicate count '0'), valueOf_zeros_append]
    rfl
  rw [valueOf_append, hzeros, List.length_replicate, Nat.add_zero]

end Text

namespace Decimal

open Text

/-! ## Reading a text -/

/-- The exponent that a text ends with. -/
def readExponent : List Char → ℤ
  | 'e' :: '-' :: digits => -(valueOf 10 digits : ℤ)
  | 'e' :: '+' :: digits => valueOf 10 digits
  | _ => 0

/-- The digits behind the point of what follows the first digits, and what follows those. -/
def readFraction : List Char → List Char × List Char
  | '.' :: rest => (rest.takeWhile isAsciiDigit, rest.dropWhile isAsciiDigit)
  | rest => ([], rest)

/-- The number that a text without a sign stands for. -/
def readNumber (cs : List Char) : ℚ :=
  let whole := cs.takeWhile isAsciiDigit
  let (fraction, tail) := readFraction (cs.dropWhile isAsciiDigit)
  valueOf 10 (whole ++ fraction) * 10 ^ (readExponent tail - fraction.length)

/-- What follows the digits of a number: nothing, or an exponent. -/
def IsTail (tail : List Char) : Prop :=
  tail = [] ∨ ∃ rest, tail = 'e' :: rest

variable {whole fraction tail : List Char}

theorem takeWhile_digits (hwhole : ∀ c ∈ whole, isAsciiDigit c = true)
    (htail : ∀ c ∈ tail.head?, isAsciiDigit c = false) :
    (whole ++ tail).takeWhile isAsciiDigit = whole ∧
      (whole ++ tail).dropWhile isAsciiDigit = tail := by
  have hstop : tail.takeWhile isAsciiDigit = [] ∧ tail.dropWhile isAsciiDigit = tail := by
    cases tail with
    | nil => exact ⟨rfl, rfl⟩
    | cons c rest =>
        have hc := htail c rfl
        exact ⟨List.takeWhile_cons_of_neg (by simp [hc]), List.dropWhile_cons_of_neg (by simp [hc])⟩
  rw [List.takeWhile_append_of_pos hwhole, List.dropWhile_append_of_pos hwhole, hstop.1, hstop.2,
    List.append_nil]
  exact ⟨rfl, rfl⟩

theorem isTail_nil : IsTail [] := .inl rfl

theorem IsTail.head (htail : IsTail tail) : ∀ c ∈ tail.head?, isAsciiDigit c = false := by
  rcases htail with rfl | ⟨rest, rfl⟩
  · intro c hc
    cases hc
  · intro c hc
    cases hc
    rfl

/-- A text with a point. -/
theorem readNumber_point (hwhole : ∀ c ∈ whole, isAsciiDigit c = true)
    (hfraction : ∀ c ∈ fraction, isAsciiDigit c = true) (htail : IsTail tail) :
    readNumber (whole ++ '.' :: (fraction ++ tail)) =
      valueOf 10 (whole ++ fraction) * 10 ^ (readExponent tail - fraction.length) := by
  have hpoint : ∀ c ∈ ('.' :: (fraction ++ tail)).head?, isAsciiDigit c = false := by
    intro c hc
    cases hc
    rfl
  obtain ⟨htake, hdrop⟩ := takeWhile_digits hwhole hpoint
  obtain ⟨htake', hdrop'⟩ := takeWhile_digits hfraction htail.head
  rw [readNumber, htake, hdrop, readFraction, htake', hdrop']

/-- A text without a point. -/
theorem readNumber_whole (hwhole : ∀ c ∈ whole, isAsciiDigit c = true) (htail : IsTail tail) :
    readNumber (whole ++ tail) = valueOf 10 whole * 10 ^ readExponent tail := by
  obtain ⟨htake, hdrop⟩ := takeWhile_digits hwhole htail.head
  have hnone : readFraction tail = ([], tail) := by
    rcases htail with rfl | ⟨rest, rfl⟩ <;> rfl
  rw [readNumber, htake, hdrop, hnone]
  simp

/-! ## What is read is what was written -/

/-- The number of some digits with the point after the first `point` of them. -/
def placed (ds : List Char) (point : ℤ) : ℚ :=
  valueOf 10 ds * 10 ^ (point - ds.length)

/-- The exponent as it is written. -/
def exponentText (p : Placing) (exponent : ℤ) : List Char :=
  'e' :: (if exponent < 0 then '-' else '+') ::
    (List.replicate (p.exponentWidth - (Nat.toDigits 10 exponent.natAbs).length) '0' ++
      Nat.toDigits 10 exponent.natAbs)

theorem readExponent_nil : readExponent [] = 0 := rfl

theorem readExponent_exponentText (p : Placing) (exponent : ℤ) :
    readExponent (exponentText p exponent) = exponent := by
  rw [exponentText]
  split
  · next hnegative =>
      rw [readExponent, valueOf_zeros_append, valueOf_toDigits (by decide) (by decide)]
      omega
  · next hpositive =>
      rw [readExponent, valueOf_zeros_append, valueOf_toDigits (by decide) (by decide)]
      omega

theorem isAsciiDigit_zeros {count : Nat} :
    ∀ c ∈ List.replicate count '0', isAsciiDigit c = true := by
  intro c hc
  rw [List.eq_of_mem_replicate hc]
  rfl

theorem isTail_exponentText (p : Placing) (exponent : ℤ) : IsTail (exponentText p exponent) :=
  .inr ⟨_, rfl⟩

variable {ds : List Char}

/-- However the point is placed, the number is the one that is read. -/
theorem readNumber_render (p : Placing) (hne : ds ≠ []) (hds : ∀ c ∈ ds, isAsciiDigit c = true)
    (point : ℤ) : readNumber (p.render ds point) = placed ds point := by
  rw [Placing.render]
  split
  · split
    · next hfront =>
        have hdigits : ∀ c ∈ List.replicate (-point).toNat '0' ++ ds, isAsciiDigit c = true :=
          List.forall_mem_append.2 ⟨isAsciiDigit_zeros, hds⟩
        have hread := readNumber_point (@isAsciiDigit_zeros 1) hdigits isTail_nil
        rw [valueOf_zeros_append, valueOf_zeros_append, List.append_nil] at hread
        refine hread.trans ?_
        rw [placed, readExponent_nil, List.length_append, List.length_replicate]
        congr 2
        omega
    · next hamong =>
        dsimp only
        split
        · next hbehind =>
            have hdigits : ∀ c ∈ ds ++ List.replicate (point.toNat - ds.length) '0',
                isAsciiDigit c = true := List.forall_mem_append.2 ⟨hds, isAsciiDigit_zeros⟩
            have hread := readNumber_point hdigits (@isAsciiDigit_zeros 1) isTail_nil
            rw [valueOf_append_zeros, valueOf_append_zeros, List.length_replicate] at hread
            refine hread.trans ?_
            have hplace : point - ds.length = (point.toNat - ds.length : Nat) := by omega
            rw [placed, readExponent_nil, hplace, zpow_natCast]
            push_cast
            field_simp
        · next hinside =>
            have htake : ∀ c ∈ ds.take point.toNat, isAsciiDigit c = true :=
              fun c hc => hds c (List.mem_of_mem_take hc)
            have hdrop : ∀ c ∈ ds.drop point.toNat, isAsciiDigit c = true :=
              fun c hc => hds c (List.mem_of_mem_drop hc)
            have hread := readNumber_point htake hdrop isTail_nil
            rw [List.append_nil, List.take_append_drop] at hread
            refine hread.trans ?_
            rw [placed, readExponent_nil, List.length_drop]
            congr 2
            omega
  · rcases ds with _ | ⟨d, _ | ⟨d', rest⟩⟩
    · exact absurd rfl hne
    · have hread := readNumber_whole hds (isTail_exponentText p (point - 1))
      refine hread.trans ?_
      rw [placed, readExponent_exponentText]
      rfl
    · obtain ⟨hd, hrest⟩ := List.forall_mem_cons.1 hds
      have hfirst : ∀ c ∈ [d], isAsciiDigit c = true := List.forall_mem_singleton.2 hd
      have hread := readNumber_point hfirst hrest (isTail_exponentText p (point - 1))
      refine hread.trans ?_
      have hplace : point - 1 - (d' :: rest).length = point - (d :: d' :: rest).length := by
        rw [List.length_cons (a := d)]
        omega
      rw [placed, readExponent_exponentText, List.singleton_append, hplace]

/-! ## The signs of a text -/

/-- A text that begins with a digit and has a point or an exponent, and no other signs than numbers
have. -/
structure IsNumeral (cs : List Char) : Prop where
  first : ∃ c rest, cs = c :: rest ∧ isAsciiDigit c = true
  signs : ∀ c ∈ cs, isAsciiDigit c = true ∨ c ∈ ['.', 'e', '+', '-']
  mark : '.' ∈ cs ∨ 'e' ∈ cs

theorem signs_of_digits (hds : ∀ c ∈ ds, isAsciiDigit c = true) :
    ∀ c ∈ ds, isAsciiDigit c = true ∨ c ∈ ['.', 'e', '+', '-'] :=
  fun c hc => .inl (hds c hc)

theorem signs_exponentText (p : Placing) (exponent : ℤ) :
    ∀ c ∈ exponentText p exponent, isAsciiDigit c = true ∨ c ∈ ['.', 'e', '+', '-'] := by
  have hdigits : ∀ c ∈ List.replicate (p.exponentWidth -
      (Nat.toDigits 10 exponent.natAbs).length) '0' ++ Nat.toDigits 10 exponent.natAbs,
      isAsciiDigit c = true :=
    List.forall_mem_append.2 ⟨isAsciiDigit_zeros, fun c hc => isAsciiDigit_of_mem_toDigits hc⟩
  rw [exponentText]
  refine List.forall_mem_cons.2 ⟨.inr (by decide), List.forall_mem_cons.2 ⟨.inr ?_,
    signs_of_digits hdigits⟩⟩
  split <;> decide

/-- A text with a point. -/
theorem isNumeral_point (hne : whole ≠ []) (hwhole : ∀ c ∈ whole, isAsciiDigit c = true)
    (hrest : ∀ c ∈ tail, isAsciiDigit c = true ∨ c ∈ ['.', 'e', '+', '-']) :
    IsNumeral (whole ++ '.' :: tail) := by
  obtain ⟨c, rest, rfl⟩ := List.exists_cons_of_ne_nil hne
  refine ⟨⟨c, rest ++ '.' :: tail, rfl, hwhole c List.mem_cons_self⟩,
    List.forall_mem_append.2 ⟨signs_of_digits hwhole,
      List.forall_mem_cons.2 ⟨.inr (by decide), hrest⟩⟩, .inl ?_⟩
  exact List.mem_append_right _ List.mem_cons_self

theorem isNumeral_render (p : Placing) (hne : ds ≠ []) (hds : ∀ c ∈ ds, isAsciiDigit c = true)
    (point : ℤ) : IsNumeral (p.render ds point) := by
  rw [Placing.render]
  split
  · split
    · exact isNumeral_point (List.cons_ne_nil '0' []) (@isAsciiDigit_zeros 1)
        (List.forall_mem_append.2
          ⟨signs_of_digits isAsciiDigit_zeros, signs_of_digits hds⟩)
    · next hamong =>
        dsimp only
        split
        · refine isNumeral_point (List.append_ne_nil_of_left_ne_nil hne _)
            (List.forall_mem_append.2 ⟨hds, isAsciiDigit_zeros⟩)
            (signs_of_digits (@isAsciiDigit_zeros 1))
        · refine isNumeral_point ?_ (fun c hc => hds c (List.mem_of_mem_take hc))
            (signs_of_digits fun c hc => hds c (List.mem_of_mem_drop hc))
          rw [Ne, List.take_eq_nil_iff, not_or]
          exact ⟨by omega, hne⟩
  · rcases ds with _ | ⟨d, _ | ⟨d', rest⟩⟩
    · exact absurd rfl hne
    · refine ⟨⟨d, _, rfl, hds d List.mem_cons_self⟩, ?_, .inr ?_⟩
      · exact List.forall_mem_cons.2 ⟨.inl (hds d List.mem_cons_self),
          signs_exponentText p (point - 1)⟩
      · exact List.mem_cons_of_mem _ List.mem_cons_self
    · obtain ⟨hd, hrest⟩ := List.forall_mem_cons.1 hds
      exact isNumeral_point (List.cons_ne_nil d []) (List.forall_mem_singleton.2 hd)
        (List.forall_mem_append.2 ⟨signs_of_digits hrest, signs_exponentText p (point - 1)⟩)

/-! ## The digits of a decimal -/

theorem exists_zeros (cs : List Char) :
    ∃ count, cs = (cs.reverse.dropWhile (· == '0')).reverse ++ List.replicate count '0' := by
  have hzeros : ∀ c ∈ cs.reverse.takeWhile (· == '0'), c = '0' := fun c hc => by
    simpa using List.mem_takeWhile_imp hc
  refine ⟨(cs.reverse.takeWhile (· == '0')).length, ?_⟩
  rw [← List.reverse_replicate, ← List.eq_replicate_of_mem hzeros, ← List.reverse_append,
    List.takeWhile_append_dropWhile, List.reverse_reverse]

/-- A positive decimal has digits, and with the point in its place they are the decimal. -/
theorem digitsAndPoint_spec {d : Scaled} (h : 0 < d.coefficient) :
    (digitsAndPoint d).1 ≠ [] ∧ (∀ c ∈ (digitsAndPoint d).1, isAsciiDigit c = true) ∧
      placed (digitsAndPoint d).1 (digitsAndPoint d).2 = d.toRat := by
  obtain ⟨count, hall⟩ := exists_zeros (Nat.toDigits 10 d.coefficient)
  rw [digitsAndPoint]
  dsimp only
  generalize hkept : ((Nat.toDigits 10 d.coefficient).reverse.dropWhile (· == '0')).reverse = kept
    at hall ⊢
  have hvalue : valueOf 10 kept * 10 ^ count = d.coefficient := by
    rw [← valueOf_append_zeros, ← hall, valueOf_toDigits (by decide) (by decide)]
  have hne : kept ≠ [] := by
    rintro rfl
    rw [← hvalue] at h
    exact absurd h (by simp [valueOf])
  rw [if_neg (by simpa using hne)]
  refine ⟨hne, fun c hc => isAsciiDigit_of_mem_toDigits (hall ▸ List.mem_append_left _ hc), ?_⟩
  rw [placed, Scaled.toRat, hall, List.length_append, List.length_replicate, ← hvalue]
  have hplace : d.exponent + ((kept.length + count : Nat) : ℤ) - kept.length =
      count + d.exponent := by
    push_cast
    ring
  rw [hplace, zpow_add₀ (by norm_num), zpow_natCast]
  push_cast
  ring

/-! ## The text of a double -/

/-- The text of a double without its sign. -/
def bodyText (m : Nat) (e : ℤ) : List Char :=
  if m = 0 then ['0', '.', '0']
  else plain.render (digitsAndPoint (shortest m e)).1 (digitsAndPoint (shortest m e)).2

theorem toList_textOf_finite (negative : Bool) (m : Nat) (e : ℤ) :
    (textOf (.finite negative m e)).toList =
      if negative then '-' :: bodyText m e else bodyText m e := by
  rw [textOf, bodyText, String.toList_ofList]

theorem positive_of_canonical {negative : Bool} {m : Nat} {e : ℤ}
    (h : (Binary64.finite negative m e).Canonical) (hm : m ≠ 0) : Positive m e :=
  ⟨Nat.pos_of_ne_zero hm, h.2.2.1, h.1, h.2.2.2⟩

variable {negative : Bool} {m m' : Nat} {e e' : ℤ}

theorem isNumeral_bodyText (h : (Binary64.finite negative m e).Canonical) :
    IsNumeral (bodyText m e) := by
  rw [bodyText]
  split
  · exact isNumeral_point (List.cons_ne_nil '0' []) (@isAsciiDigit_zeros 1)
      (signs_of_digits (@isAsciiDigit_zeros 1))
  · next hm =>
      obtain ⟨hne, hds, -⟩ := digitsAndPoint_spec (shortest_pos (positive_of_canonical h hm))
      exact isNumeral_render plain hne hds _

/-- What is read off the text of a double is its shortest decimal. -/
theorem readNumber_bodyText (h : (Binary64.finite negative m e).Canonical) :
    readNumber (bodyText m e) = (shortest m e).toRat := by
  rw [bodyText]
  split
  · next hzero =>
      subst hzero
      have hread := readNumber_point (@isAsciiDigit_zeros 1) (@isAsciiDigit_zeros 1) isTail_nil
      rw [valueOf_append_zeros] at hread
      refine hread.trans ?_
      have hnone : valueOf 10 (List.replicate 1 '0') = 0 := by decide
      rw [shortest, if_pos rfl, Scaled.toRat, hnone]
      simp
  · next hm =>
      obtain ⟨hne, hds, hvalue⟩ := digitsAndPoint_spec (shortest_pos (positive_of_canonical h hm))
      rw [readNumber_render plain hne hds, hvalue]

theorem toRat_pos {d : Scaled} (h : 0 < d.coefficient) : 0 < d.toRat := by
  rw [Scaled.toRat]
  positivity

/-- Doubles with one text without a sign have one value without a sign. -/
theorem eq_of_bodyText {negative' : Bool} (h : (Binary64.finite negative m e).Canonical)
    (h' : (Binary64.finite negative' m' e').Canonical) (htext : bodyText m e = bodyText m' e') :
    m = m' ∧ e = e' := by
  have hvalue : (shortest m e).toRat = (shortest m' e').toRat := by
    rw [← readNumber_bodyText h, htext, readNumber_bodyText h']
  have hzero : ∀ {e : ℤ}, (shortest 0 e).toRat = 0 := by
    intro e
    simp [shortest, Scaled.toRat]
  have hleast : ∀ {negative : Bool} {e : ℤ}, (Binary64.finite negative 0 e).Canonical →
      e = -1074 := fun h => h.2.2.2.resolve_right (by decide)
  by_cases hm : m = 0
  · subst hm
    by_cases hm' : m' = 0
    · subst hm'
      exact ⟨rfl, (hleast h).trans (hleast h').symm⟩
    · have hpos := toRat_pos (shortest_pos (positive_of_canonical h' hm'))
      rw [← hvalue, hzero] at hpos
      exact absurd hpos (lt_irrefl 0)
  · by_cases hm' : m' = 0
    · subst hm'
      have hpos := toRat_pos (shortest_pos (positive_of_canonical h hm))
      rw [hvalue, hzero] at hpos
      exact absurd hpos (lt_irrefl 0)
    · exact eq_of_shortest (positive_of_canonical h hm) (positive_of_canonical h' hm') hvalue

theorem ne_minus_of_isNumeral {cs rest : List Char} (h : IsNumeral cs) : cs ≠ '-' :: rest := by
  rintro rfl
  obtain ⟨c, rest', hcons, hdigit⟩ := h.first
  cases hcons
  cases hdigit

/-- Doubles with one text are one double. -/
theorem eq_of_textOf_finite {negative' : Bool} (h : (Binary64.finite negative m e).Canonical)
    (h' : (Binary64.finite negative' m' e').Canonical)
    (htext : textOf (.finite negative m e) = textOf (.finite negative' m' e')) :
    Binary64.finite negative m e = .finite negative' m' e' := by
  have hchars := congrArg String.toList htext
  rw [toList_textOf_finite, toList_textOf_finite] at hchars
  cases negative <;> cases negative'
  · obtain ⟨rfl, rfl⟩ := eq_of_bodyText h h' hchars
    rfl
  · exact absurd hchars (ne_minus_of_isNumeral (isNumeral_bodyText h))
  · exact absurd hchars.symm (ne_minus_of_isNumeral (isNumeral_bodyText h'))
  · obtain ⟨rfl, rfl⟩ := eq_of_bodyText h h' (List.cons_inj_right _ |>.1 hchars)
    rfl

end Decimal

/-! ## Doubles and their values -/

namespace Binary64

theorem ofSign_injective : Function.Injective ofSign := by
  intro s t h
  cases s <;> cases t <;> first | rfl | cases h

theorem ofUnpacked_injective : Function.Injective ofUnpacked := by
  intro u v h
  cases u with
  | notANumber => cases v <;> first | rfl | cases h
  | infinity s => cases v <;> simp_all [ofUnpacked, ofSign_injective.eq_iff]
  | zero s =>
      cases v <;> simp_all [ofUnpacked, ofSign_injective.eq_iff]
      omega
  | finite s m e hm =>
      cases v <;> simp_all [ofUnpacked, ofSign_injective.eq_iff]
      omega

/-- A double is its value: there is one that is no number, and each other value has its bits. -/
theorem ofFloat_injective : Function.Injective ofFloat := by
  intro x y h
  rw [ofFloat_eq_ofUnpacked, ofFloat_eq_ofUnpacked] at h
  have hbits := (Float.Model.UnpackedFloat.unpack_inj_of_valid x.toModel.valid
    y.toModel.valid).1 (ofUnpacked_injective h)
  exact Float.toBits_inj.1 (UInt64.toBitVec_inj.1 hbits)

end Binary64

end Macc
