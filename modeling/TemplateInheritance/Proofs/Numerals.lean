import TemplateInheritance.Proofs.Rounding
import TemplateInheritance.Value.Reader
import TemplateInheritance.Value.Text

/-!
# Texts of numbers

The written form of a double reads back as that double, whatever stands behind it. With that no
two numbers have one text, an integer and a double of equal size included: a double always shows
a point or an exponent.
-/

namespace TemplateInheritance

open Value.Reader

/-- The parts of a written number. -/
structure Numeral where
  negative : Bool
  whole : List Char
  fraction : List Char
  exponent : Option Int

namespace Numeral

/-- The characters of a written number: the fraction after a point, the exponent after an `e`. -/
def toList (n : Numeral) : List Char :=
  (if n.negative then ['-'] else []) ++ n.whole ++
    (if n.fraction = [] then [] else '.' :: n.fraction) ++
    n.exponent.elim [] ('e' :: Binary64.exponentText ·)

/-- The double nearest to a written number. -/
def double? (n : Numeral) : Option Binary64 :=
  Binary64.ofDecimal? n.negative (digitsValue (n.whole ++ n.fraction))
    (n.exponent.getD 0 - n.fraction.length)

/-- A written double has a whole part without leading zero and a fraction or an exponent. -/
structure Marked (n : Numeral) : Prop where
  whole_ne_nil : n.whole ≠ []
  whole_digits : ∀ c ∈ n.whole, c.isDigit
  no_leading_zero : 1 < n.whole.length → n.whole.head? ≠ some '0'
  fraction_digits : ∀ c ∈ n.fraction, c.isDigit
  marked : n.fraction = [] → n.exponent ≠ none

/-- The numeral that digits are laid out as whose first stands for `10 ^ exponent`. -/
structure Lays (n : Numeral) (digits : List Char) (exponent : Int) : Prop where
  marked : n.Marked
  toList_eq : n.toList = (if n.negative then ['-'] else []) ++ Binary64.layout digits exponent
  double?_eq : n.double? =
    Binary64.ofDecimal? n.negative (digitsValue digits) (exponent + 1 - digits.length)

end Numeral

/-- The characters of numbers. -/
def isNumeral (c : Char) : Bool :=
  c.isDigit || c == '-' || c == '+' || c == '.' || c == 'e' || c == 'E'

/-- A text that does not go on with a character of numbers. -/
def Breaks (rest : List Char) : Prop :=
  ∀ c ∈ rest.head?, isNumeral c = false

/-- What is accepted is found again in front of a text that does not go on with it. -/
private theorem takeWhile_front {accepts : Char → Bool} {front rest : List Char}
    (hfront : ∀ c ∈ front, accepts c) (hrest : ∀ c ∈ rest.head?, accepts c = false) :
    (front ++ rest).takeWhile accepts = front := by
  rw [List.takeWhile_append_of_pos hfront]
  cases rest with
  | nil => simp
  | cons c rest => simp [hrest c rfl]

private theorem not_isDigit_of_breaks {rest : List Char} (hrest : Breaks rest) :
    ∀ c ∈ rest.head?, c.isDigit = false := by
  intro c hc
  have hnumeral := hrest c hc
  simp only [isNumeral, Bool.or_eq_false_iff] at hnumeral
  exact hnumeral.1.1.1.1.1

private theorem isDigit_toDigits {n : Nat} {c : Char} (hmem : c ∈ Nat.toDigits 10 n) : c.isDigit :=
  Nat.isDigit_of_mem_toDigits (by decide) (by decide) hmem

/-- Decimal digits in the terms of the library. -/
private theorem digitsValue_eq (digits : List Char) :
    digitsValue digits = Nat.ofDigitChars 10 digits 0 := by
  simp only [digitsValue, Nat.ofDigitChars_eq_foldl, Nat.mul_comm 10]
  rfl

/-- The digits of a number name that number. -/
theorem digitsValue_toDigits (n : Nat) : digitsValue (Nat.toDigits 10 n) = n := by
  rw [digitsValue_eq, Nat.ofDigitChars_ten_toDigits]

/-- An exponent reads back. -/
theorem exponent?_exponentText (exponent : Int) {rest : List Char} (hrest : Breaks rest) :
    exponent? (Binary64.exponentText exponent ++ rest) = some (exponent, rest) := by
  have hdigits := takeWhile_front (fun c ↦ isDigit_toDigits (n := exponent.natAbs) (c := c))
    (not_isDigit_of_breaks hrest)
  have hsome : (Nat.toDigits 10 exponent.natAbs).isEmpty = false := by
    simp [Nat.toDigits_ne_nil]
  by_cases hneg : exponent < 0
  · have hback : -(exponent.natAbs : Int) = exponent := by omega
    simp only [Binary64.exponentText, if_pos hneg, List.cons_append, exponent?, hdigits, hsome,
      Bool.false_eq_true, if_false, if_true, digitsValue_toDigits, hback, List.drop_left]
  · have hback : (exponent.natAbs : Int) = exponent := by omega
    simp only [Binary64.exponentText, if_neg hneg, List.cons_append, exponent?, hdigits, hsome,
      Bool.false_eq_true, if_false, digitsValue_toDigits, hback, List.drop_left]

/-- A written double reads as the nearest double, up to what stands behind it. -/
theorem Numeral.Marked.number?_toList {n : Numeral} (h : n.Marked) {rest : List Char}
    (hrest : Breaks rest) :
    number? (n.toList ++ rest) = n.double?.map fun d ↦ (.double d, rest) := by
  obtain ⟨negative, whole, fraction, exponent⟩ := n
  obtain ⟨hne, hwhole, hzero, hfraction, hmarked⟩ := h
  obtain ⟨first, whole, rfl⟩ := List.exists_cons_of_ne_nil hne
  simp only at hwhole hzero hfraction hmarked
  have hsign : first ≠ '-' := by
    rintro rfl
    exact absurd (hwhole _ (.head _)) (by decide)
  have hleading : ¬(0 < whole.length ∧ first = '0') := by
    rintro ⟨hlong, rfl⟩
    exact hzero (by simpa using hlong) rfl
  have hspan : ∀ {c : Char} {tail : List Char}, c.isDigit = false →
      (first :: (whole ++ c :: tail)).takeWhile Char.isDigit = first :: whole := by
    intro c tail hc
    exact takeWhile_front hwhole (by simpa using hc)
  cases exponent with
  | none =>
    obtain ⟨place, fraction, rfl⟩ : ∃ place places, fraction = place :: places :=
      List.exists_cons_of_ne_nil fun heq ↦ hmarked heq rfl
    have hplaces : (place :: (fraction ++ rest)).takeWhile Char.isDigit = place :: fraction :=
      takeWhile_front hfraction (not_isDigit_of_breaks hrest)
    -- Neither letter of an exponent follows, which settles the match on `rest`.
    have hlower : ∀ tail, rest ≠ 'e' :: tail := by
      rintro tail rfl
      exact absurd (hrest _ rfl) (by decide)
    have hupper : ∀ tail, rest ≠ 'E' :: tail := by
      rintro tail rfl
      exact absurd (hrest _ rfl) (by decide)
    cases negative <;>
      simp [toList, double?, number?, hsign, hspan, hleading, hplaces,
        Option.map_eq_bind]
  | some exponent =>
    cases fraction with
    | nil =>
      cases negative <;>
        simp [toList, double?, number?, hsign, hspan, hleading, exponent?_exponentText _ hrest,
          Option.map_eq_bind]
    | cons place fraction =>
      have hplaces : ∀ tail, (place :: (fraction ++ 'e' :: tail)).takeWhile Char.isDigit =
          place :: fraction := fun tail ↦ takeWhile_front hfraction (by simp)
      cases negative <;>
        simp [toList, double?, number?, hsign, hspan, hleading, hplaces,
          exponent?_exponentText _ hrest, Option.map_eq_bind]

namespace Binary64

/-- Zeros behind the digits raise the number by as many powers of ten. -/
private theorem digitsValue_append_zeros (digits : List Char) (count : Nat) :
    digitsValue (digits ++ zeros count) = digitsValue digits * 10 ^ count := by
  simp only [digitsValue_eq, Nat.ofDigitChars_append, zeros, Nat.ofDigitChars_replicate_zero]
  exact Nat.mul_comm _ _

/-- Zeros in front of the digits change nothing. -/
private theorem digitsValue_zeros_append (count : Nat) (digits : List Char) :
    digitsValue (zeros count ++ digits) = digitsValue digits := by
  simp only [digitsValue_eq, Nat.ofDigitChars_append, zeros, Nat.ofDigitChars_replicate_zero,
    Nat.mul_zero]

private theorem isDigit_of_mem_zeros {count : Nat} {c : Char} (hmem : c ∈ zeros count) :
    c.isDigit := by
  rw [List.eq_of_mem_replicate hmem]
  decide

/-- Stripped digits are the digits without some zeros at the end. -/
private theorem stripZeros_append (digits : List Char) :
    (stripZeros digits).1 ++ zeros (stripZeros digits).2 = digits := by
  induction digits with
  | nil => rfl
  | cons c rest ih =>
    by_cases hdropped : (stripZeros rest).1.isEmpty ∧ c = '0'
    · obtain ⟨hempty, rfl⟩ := hdropped
      rw [List.isEmpty_iff.1 hempty, List.nil_append] at ih
      simp only [stripZeros, hempty, Bool.true_and, BEq.rfl, if_true, List.nil_append, zeros,
        List.replicate_succ]
      rw [← zeros, ih]
    · have hkept : ((stripZeros rest).1.isEmpty && c == '0') = false := by
        simpa using hdropped
      simp only [stripZeros, hkept, Bool.false_eq_true, if_false, List.cons_append, ih]

/-- The first digit of a positive number is no zero. -/
private theorem head?_toDigits_ne_zero {n : Nat} (hn : 0 < n) :
    (Nat.toDigits 10 n).head? ≠ some '0' := by
  induction n using Nat.strongRecOn with
  | ind n ih =>
    by_cases hsmall : n < 10
    · rw [Nat.toDigits_of_lt_base hsmall]
      have hdigit : ∀ n < 10, 0 < n → [Nat.digitChar n].head? ≠ some '0' := by decide
      exact hdigit n hsmall hn
    · have hquotient := ih (n / 10) (by omega) (by omega)
      obtain ⟨c, cs, hdigits⟩ := List.exists_cons_of_ne_nil (l := Nat.toDigits 10 (n / 10))
        Nat.toDigits_ne_nil
      rw [hdigits] at hquotient
      rw [Nat.toDigits_of_base_le (by decide) (by omega), hdigits]
      simpa using hquotient

section Layout

variable {digits : List Char} (hne : digits ≠ []) (hdigits : ∀ c ∈ digits, c.isDigit)
  (hhead : digits.head? ≠ some '0') (negative : Bool) {exponent : Int}

include hne hdigits

/-- Below one the digits follow the point, after zeros. -/
private theorem lays_below (hlow : -5 ≤ exponent) (hneg : exponent < 0) :
    Numeral.Lays ⟨negative, ['0'], zeros ((-exponent).toNat - 1) ++ digits, none⟩ digits
      exponent where
  marked :=
    { whole_ne_nil := List.cons_ne_nil _ _
      whole_digits := by simp
      no_leading_zero := by simp
      fraction_digits := fun c hmem ↦
        (List.mem_append.1 hmem).elim isDigit_of_mem_zeros (hdigits c)
      marked := by simp [hne] }
  toList_eq := by simp [Numeral.toList, layout, hlow, hneg, hne]
  double?_eq := by
    have hvalue : digitsValue (['0'] ++ (zeros ((-exponent).toNat - 1) ++ digits)) =
        digitsValue digits := by
      rw [← List.append_assoc]
      exact digitsValue_zeros_append ((-exponent).toNat - 1 + 1) digits
    have hexponent : (0 : Int) - (zeros ((-exponent).toNat - 1) ++ digits).length =
        exponent + 1 - digits.length := by
      simp only [zeros, List.length_append, List.length_replicate]
      omega
    simp only [Numeral.double?, hvalue, Option.getD_none, hexponent]

include hhead

/-- Digits that all stand before the point are filled up with zeros. -/
private theorem lays_whole (hpos : 0 ≤ exponent) (hhigh : exponent ≤ 15)
    (hshort : digits.length ≤ exponent.toNat + 1) :
    Numeral.Lays ⟨negative, digits ++ zeros (exponent.toNat + 1 - digits.length), ['0'], none⟩
      digits exponent where
  marked :=
    { whole_ne_nil := by simp [hne]
      whole_digits := fun c hmem ↦
        (List.mem_append.1 hmem).elim (hdigits c) isDigit_of_mem_zeros
      no_leading_zero := fun _ ↦ by
        simpa [List.head?_append, hne] using hhead
      fraction_digits := by simp
      marked := by simp }
  toList_eq := by
    have hbelow : ¬exponent < 0 := by omega
    simp [Numeral.toList, layout, hpos, hhigh, hshort, hbelow]
  double?_eq := by
    have hvalue : digitsValue (digits ++ zeros (exponent.toNat + 1 - digits.length) ++ ['0']) =
        digitsValue digits * 10 ^ (exponent.toNat + 1 - digits.length + 1) := by
      rw [← digitsValue_append_zeros, List.append_assoc]
      simp only [zeros, List.replicate_succ']
    have hexponent : (0 : Int) - (['0'] : List Char).length +
        (exponent.toNat + 1 - digits.length + 1 : Nat) = exponent + 1 - digits.length := by
      simp only [List.length_singleton]
      omega
    simp only [Numeral.double?, hvalue, ofDecimal?_mul_pow, Option.getD_none, hexponent]

/-- Digits on both sides of the point. -/
private theorem lays_split (hpos : 0 ≤ exponent) (hhigh : exponent ≤ 15)
    (hlong : exponent.toNat + 1 < digits.length) :
    Numeral.Lays ⟨negative, digits.take (exponent.toNat + 1), digits.drop (exponent.toNat + 1),
      none⟩ digits exponent where
  marked :=
    { whole_ne_nil := by simp [hne]
      whole_digits := fun c hmem ↦ hdigits c (List.mem_of_mem_take hmem)
      no_leading_zero := fun _ ↦ by simpa [List.head?_take] using hhead
      fraction_digits := fun c hmem ↦ hdigits c (List.mem_of_mem_drop hmem)
      marked := by simp [hlong] }
  toList_eq := by
    have hbelow : ¬exponent < 0 := by omega
    simp [Numeral.toList, layout, hpos, hhigh, Nat.not_le.2 hlong, hbelow]
  double?_eq := by
    have hexponent : (0 : Int) - (digits.drop (exponent.toNat + 1)).length =
        exponent + 1 - digits.length := by
      rw [List.length_drop]
      omega
    simp only [Numeral.double?, List.take_append_drop, Option.getD_none, hexponent]

/-- Far from one the first digit is followed by the others as a fraction and by the exponent. -/
private theorem lays_scientific (hfar : ¬(-5 ≤ exponent ∧ exponent < 0))
    (hfar' : ¬(0 ≤ exponent ∧ exponent ≤ 15)) :
    Numeral.Lays ⟨negative, digits.take 1, digits.drop 1, some exponent⟩ digits exponent where
  marked :=
    { whole_ne_nil := by simp [hne]
      whole_digits := fun c hmem ↦ hdigits c (List.mem_of_mem_take hmem)
      no_leading_zero := fun _ ↦ by simpa [List.head?_take] using hhead
      fraction_digits := fun c hmem ↦ hdigits c (List.mem_of_mem_drop hmem)
      marked := by simp }
  toList_eq := by
    match digits, hne with
    | [digit], _ => simp [Numeral.toList, layout, hfar, hfar']
    | digit :: place :: places, _ => simp [Numeral.toList, layout, hfar, hfar']
  double?_eq := by
    have hlength : 0 < digits.length := List.length_pos_iff.2 hne
    have hexponent : exponent - (digits.drop 1).length = exponent + 1 - digits.length := by
      rw [List.length_drop]
      omega
    simp only [Numeral.double?, List.take_append_drop, Option.getD_some, hexponent]

/-- Every layout is that of a numeral. -/
private theorem exists_lays (exponent : Int) :
    ∃ n : Numeral, n.negative = negative ∧ n.Lays digits exponent := by
  by_cases hbelow : -5 ≤ exponent ∧ exponent < 0
  · exact ⟨_, rfl, lays_below hne hdigits negative hbelow.1 hbelow.2⟩
  · by_cases hmiddle : 0 ≤ exponent ∧ exponent ≤ 15
    · rcases Nat.lt_or_ge (exponent.toNat + 1) digits.length with hlong | hshort
      · exact ⟨_, rfl, lays_split hne hdigits hhead negative hmiddle.1 hmiddle.2 hlong⟩
      · exact ⟨_, rfl, lays_whole hne hdigits hhead negative hmiddle.1 hmiddle.2 hshort⟩
    · exact ⟨_, rfl, lays_scientific hne hdigits hhead negative hbelow hmiddle⟩

end Layout

/-- What is left of the digits of a positive number begins with no zero and names the number up
to the powers of ten that were dropped. -/
private theorem exists_stripZeros_toDigits {n : Nat} (hn : 0 < n) :
    ∃ kept count, stripZeros (Nat.toDigits 10 n) = (kept, count) ∧ kept ≠ [] ∧
      (∀ c ∈ kept, c.isDigit) ∧ kept.head? ≠ some '0' ∧ digitsValue kept * 10 ^ count = n ∧
      (Nat.toDigits 10 n).length = kept.length + count := by
  have hwritten := stripZeros_append (Nat.toDigits 10 n)
  cases hstrip : stripZeros (Nat.toDigits 10 n) with
  | mk kept count =>
    rw [hstrip] at hwritten
    have hvalue : digitsValue kept * 10 ^ count = n := by
      rw [← digitsValue_append_zeros, hwritten, digitsValue_toDigits]
    have hne : kept ≠ [] := by
      rintro rfl
      rw [← hvalue] at hn
      exact absurd hn (by simp [digitsValue])
    refine ⟨kept, count, rfl, hne, ?_, ?_, hvalue, ?_⟩
    · intro c hmem
      exact isDigit_toDigits (hwritten ▸ List.mem_append_left _ hmem)
    · have hfirst := head?_toDigits_ne_zero hn
      rw [← hwritten] at hfirst
      simpa [List.head?_append, hne] using hfirst
    · rw [← hwritten]
      simp only [List.length_append, zeros, List.length_replicate]

/-- The written form of a double is a numeral that stands for that double. -/
theorem exists_numeral (d : Binary64) :
    ∃ n : Numeral, n.Marked ∧ n.toList = d.text.toList ∧ n.double? = some d := by
  by_cases hzero : d.isZero
  · refine ⟨⟨d.negative, ['0'], ['0'], none⟩, ⟨by simp, by simp, by simp, by simp, by simp⟩, ?_, ?_⟩
    · cases hsign : d.negative <;> simp [Numeral.toList, text, hzero, hsign]
    · exact ofDecimal?_of_isZero hzero _
  · have hback := d.ofDecimal?_shortestDecimal
    cases hdecimal : d.shortestDecimal with
    | mk digits scale =>
      rw [hdecimal] at hback
      have hpos : 0 < digits := by
        apply Nat.pos_of_ne_zero
        rintro rfl
        exact hzero (isZero_of_ofDecimal?_zero hback)
      obtain ⟨kept, count, hstrip, hne, hdigits, hhead, hvalue, hlength⟩ :=
        exists_stripZeros_toDigits hpos
      obtain ⟨n, hnegative, hlays⟩ := exists_lays hne hdigits hhead d.negative
        (scale + (Nat.toDigits 10 digits).length - 1)
      refine ⟨n, hlays.marked, ?_, ?_⟩
      · rw [hlays.toList_eq, hnegative]
        cases hsign : d.negative <;> simp [text, hzero, hdecimal, hstrip, hsign]
      · have hexponent : scale + (Nat.toDigits 10 digits).length - 1 + 1 - kept.length =
            scale + count := by omega
        rw [hlays.double?_eq, hnegative, hexponent, ← ofDecimal?_mul_pow, hvalue]
        exact hback

/-- The written form of a double reads back as that double, whatever stands behind it. -/
theorem number?_text (d : Binary64) {rest : List Char} (hrest : Breaks rest) :
    number? (d.text.toList ++ rest) = some (.double d, rest) := by
  obtain ⟨n, hmarked, htext, hdouble⟩ := d.exists_numeral
  rw [← htext, hmarked.number?_toList hrest, hdouble]
  rfl

end Binary64

private theorem isNumeral_of_isDigit {c : Char} (hdigit : c.isDigit) : isNumeral c := by
  simp [isNumeral, hdigit]

private theorem isNumeral_of_mem_exponentText {exponent : Int} {c : Char}
    (hmem : c ∈ Binary64.exponentText exponent) : isNumeral c := by
  rcases List.mem_cons.1 hmem with rfl | hdigit
  · split <;> decide
  · exact isNumeral_of_isDigit (isDigit_toDigits hdigit)

namespace Numeral

/-- A written double consists of the characters of numbers. -/
theorem Marked.isNumeral_of_mem {n : Numeral} (h : n.Marked) {c : Char} (hmem : c ∈ n.toList) :
    isNumeral c := by
  simp only [toList, List.mem_append] at hmem
  rcases hmem with ((hsign | hwhole) | hfraction) | hexponent
  · split at hsign
    · rw [List.mem_singleton.1 hsign]
      decide
    · cases hsign
  · exact isNumeral_of_isDigit (h.whole_digits c hwhole)
  · split at hfraction
    · cases hfraction
    · rcases List.mem_cons.1 hfraction with rfl | hdigit
      · decide
      · exact isNumeral_of_isDigit (h.fraction_digits c hdigit)
  · cases hvalue : n.exponent with
    | none =>
      rw [hvalue] at hexponent
      cases hexponent
    | some exponent =>
      rw [hvalue] at hexponent
      rcases List.mem_cons.1 hexponent with rfl | hrest
      · decide
      · exact isNumeral_of_mem_exponentText hrest

/-- A written double shows a point or an exponent. -/
theorem Marked.exists_mark {n : Numeral} (h : n.Marked) :
    ∃ c ∈ n.toList, c = '.' ∨ c = 'e' := by
  by_cases hfraction : n.fraction = []
  · obtain ⟨exponent, hexponent⟩ := Option.ne_none_iff_exists'.1 (h.marked hfraction)
    exact ⟨'e', by simp [toList, hexponent], .inr rfl⟩
  · exact ⟨'.', by simp [toList, hfraction], .inl rfl⟩

end Numeral

namespace Number

/-- An integer is written with digits and a sign. -/
private theorem mem_integer_text {value : Int} {c : Char} (hmem : c ∈ (integer value).text.toList) :
    c.isDigit ∨ c = '-' := by
  simp only [text, Int.toString_eq_repr, Int.repr_eq_if] at hmem
  split at hmem
  · exact .inl (isDigit_toDigits (by simpa [Nat.repr_eq_ofList_toDigits] using hmem))
  · have hparts : c = '-' ∨ c ∈ Nat.toDigits 10 (-value).toNat := by
      simpa [Nat.repr_eq_ofList_toDigits] using hmem
    exact hparts.symm.imp_left isDigit_toDigits

private theorem eq_of_repr_eq {n m : Nat} (heq : n.repr = m.repr) : n = m := by
  have hdigits : Nat.toDigits 10 n = Nat.toDigits 10 m := by
    simpa [Nat.repr_eq_ofList_toDigits] using congrArg String.toList heq
  rw [← digitsValue_toDigits n, hdigits, digitsValue_toDigits]

private theorem repr_ne_minus (n m : Nat) : n.repr ≠ "-" ++ m.repr := by
  intro heq
  have hmem : '-' ∈ Nat.toDigits 10 n := by
    rw [← String.toList_ofList (l := Nat.toDigits 10 n), ← Nat.repr_eq_ofList_toDigits, heq]
    simp
  exact absurd (isDigit_toDigits hmem) (by decide)

/-- Numbers are written with the characters of numbers. -/
theorem isNumeral_of_mem_text {n : Number} {c : Char} (hmem : c ∈ n.text.toList) :
    isNumeral c := by
  cases n with
  | integer value =>
    rcases mem_integer_text hmem with hdigit | rfl
    · exact isNumeral_of_isDigit hdigit
    · decide
  | double d =>
    obtain ⟨n, hmarked, htext, -⟩ := d.exists_numeral
    exact hmarked.isNumeral_of_mem (htext ▸ hmem)

private theorem integer_text_ne_double_text (value : Int) (d : Binary64) :
    (integer value).text ≠ (double d).text := by
  intro heq
  obtain ⟨n, hmarked, htext, -⟩ := d.exists_numeral
  obtain ⟨c, hmem, hmark⟩ := hmarked.exists_mark
  have hinteger : c ∈ (integer value).text.toList := by
    rw [heq]
    exact htext ▸ hmem
  rcases mem_integer_text hinteger with hdigit | rfl
  · rcases hmark with rfl | rfl <;> exact absurd hdigit (by decide)
  · exact absurd hmark (by decide)

private theorem eq_of_integer_text {a b : Int} (heq : (integer a).text = (integer b).text) :
    a = b := by
  simp only [text, Int.toString_eq_repr, Int.repr_eq_if] at heq
  split at heq <;> split at heq
  next ha hb =>
    have hsize := eq_of_repr_eq heq
    omega
  next ha hb => exact absurd heq (repr_ne_minus _ _)
  next ha hb => exact absurd heq.symm (repr_ne_minus _ _)
  next ha hb =>
    have hsize := eq_of_repr_eq (String.append_right_inj _ |>.1 heq)
    omega

/-- No two numbers have one text. -/
theorem text_inj {a b : Number} : a.text = b.text ↔ a = b := by
  constructor
  · intro heq
    cases a with
    | integer value =>
      cases b with
      | integer other => exact congrArg integer (eq_of_integer_text heq)
      | double d => exact absurd heq (integer_text_ne_double_text value d)
    | double d =>
      cases b with
      | integer other => exact absurd heq.symm (integer_text_ne_double_text other d)
      | double other =>
        have hbreaks : Breaks [] := by simp [Breaks]
        have hread := d.number?_text hbreaks
        rw [show d.text = other.text from heq, other.number?_text hbreaks] at hread
        exact (congrArg Prod.fst (Option.some.inj hread)).symm
  · rintro rfl
    rfl

/-- The text of a number is not empty. -/
theorem text_ne_nil (n : Number) : n.text.toList ≠ [] := by
  cases n with
  | integer value =>
    simp only [text, Int.toString_eq_repr, Int.repr_eq_if]
    split <;> simp [Nat.repr_eq_ofList_toDigits, Nat.toDigits_ne_nil]
  | double d =>
    obtain ⟨n, hmarked, htext, -⟩ := d.exists_numeral
    obtain ⟨c, hmem, -⟩ := hmarked.exists_mark
    exact List.ne_nil_of_mem (htext ▸ hmem)

/-- A way to write numbers in the characters of numbers: never nothing, and no two alike. -/
structure Legible (print : Number → String) : Prop where
  injective : Function.Injective print
  ne_nil : ∀ n, (print n).toList ≠ []
  isNumeral : ∀ n, ∀ c ∈ (print n).toList, isNumeral c

/-- A number is told from its text wherever the text ends at another character. -/
theorem Legible.eq_of_append {print : Number → String} (h : Legible print) {a b : Number}
    {r s : List Char} (hr : Breaks r) (hs : Breaks s)
    (heq : (print a).toList ++ r = (print b).toList ++ s) : a = b ∧ r = s := by
  have htext : (print a).toList = (print b).toList := by
    rw [← takeWhile_front (h.isNumeral a) hr, heq, takeWhile_front (h.isNumeral b) hs]
  rw [htext] at heq
  exact ⟨h.injective (String.toList_inj.1 htext), List.append_cancel_left heq⟩

/-- Integers in decimal and doubles in their shortest form are legible beside each other. -/
theorem legible_text : Legible text where
  injective _ _ := text_inj.1
  ne_nil := text_ne_nil
  isNumeral _ _ := isNumeral_of_mem_text

end Number

end TemplateInheritance
