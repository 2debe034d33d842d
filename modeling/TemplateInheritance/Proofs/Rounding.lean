import TemplateInheritance.Number.Decimal
import Mathlib.Tactic.Ring

/-!
# Rounding to doubles

What a quotient rounds to depends on its size alone and not on how it is written as a fraction,
and a double's own size rounds to that double. So each decimal that stands for a double in its
written form reads back as that double.
-/

namespace TemplateInheritance

/-- A common factor does not change what a quotient rounds to. -/
theorem roundHalfEven_mul_mul {k : Nat} (hk : 0 < k) (num den : Nat) :
    roundHalfEven (k * num) (k * den) = roundHalfEven num den := by
  have htwice : 2 * (k * (num % den)) = k * (2 * (num % den)) := by ring
  simp only [roundHalfEven, Nat.mul_div_mul_left _ _ hk, Nat.mul_mod_mul_left, htwice, gt_iff_lt,
    Nat.mul_lt_mul_left hk, Nat.mul_right_inj (Nat.ne_of_gt hk)]

/-- A quotient without remainder is not rounded. -/
theorem roundHalfEven_mul_self {den : Nat} (hden : 0 < den) (size : Nat) :
    roundHalfEven (size * den) den = size := by
  simp [roundHalfEven, Nat.mul_div_cancel _ hden, Nat.ne_of_lt hden]

namespace Binary64

/-- The quotient `num / den` is at least `2 ^ exponent`. -/
private def AtLeast (num den : Nat) (exponent : Int) : Prop :=
  den * 2 ^ exponent.toNat ≤ num * 2 ^ (-exponent).toNat

/-- A difference of two natural numbers is a power of its positive and its negative part with a
common factor. -/
private theorem exists_common {e : Int} {m n : Nat} (he : e = m - n) :
    ∃ c, m = c + e.toNat ∧ n = c + (-e).toNat :=
  ⟨min m n, by omega, by omega⟩

private theorem atLeast_iff {num den m n : Nat} {e : Int} (he : e = m - n) :
    AtLeast num den e ↔ den * 2 ^ m ≤ num * 2 ^ n := by
  obtain ⟨c, rfl, rfl⟩ := exists_common he
  have hleft : den * 2 ^ (c + e.toNat) = 2 ^ c * (den * 2 ^ e.toNat) := by ring
  have hright : num * 2 ^ (c + (-e).toNat) = 2 ^ c * (num * 2 ^ (-e).toNat) := by ring
  rw [hleft, hright, Nat.mul_le_mul_left_iff (Nat.two_pow_pos c)]
  rfl

private theorem AtLeast.mono {num den : Nat} {e e' : Int} (h : AtLeast num den e) (hle : e' ≤ e) :
    AtLeast num den e' := by
  obtain ⟨k, rfl⟩ : ∃ k : Nat, e = e' + k := ⟨(e - e').toNat, by omega⟩
  have hsum : e' + k = (e'.toNat + k : Nat) - ((-e').toNat : Int) := by omega
  rw [atLeast_iff hsum] at h
  apply Nat.le_trans ?_ h
  exact Nat.mul_le_mul_left den (Nat.pow_le_pow_right (by decide) (Nat.le_add_right _ _))

private theorem atLeast_mul_mul {k : Nat} (hk : 0 < k) (num den : Nat) (e : Int) :
    AtLeast (k * num) (k * den) e ↔ AtLeast num den e := by
  simp only [AtLeast, Nat.mul_assoc, Nat.mul_le_mul_left_iff hk]

/-- The binary exponent is the greatest that the quotient reaches. -/
private theorem atLeast_iff_le_binaryExponent {num den : Nat} (hnum : 0 < num) (hden : 0 < den)
    (e : Int) : AtLeast num den e ↔ e ≤ binaryExponent num den := by
  have hnumLow : 2 ^ num.log2 ≤ num := Nat.log2_self_le (Nat.ne_of_gt hnum)
  have hnumHigh : num < 2 ^ (num.log2 + 1) := Nat.lt_log2_self
  have hdenLow : 2 ^ den.log2 ≤ den := Nat.log2_self_le (Nat.ne_of_gt hden)
  have hdenHigh : den < 2 ^ (den.log2 + 1) := Nat.lt_log2_self
  have hbelow : AtLeast num den ((num.log2 : Int) - den.log2 - 1) := by
    rw [atLeast_iff (m := num.log2) (n := den.log2 + 1) (by omega), Nat.mul_comm den]
    exact Nat.mul_le_mul hnumLow (Nat.le_of_lt hdenHigh)
  have habove : ¬AtLeast num den ((num.log2 : Int) - den.log2 + 1) := by
    rw [atLeast_iff (m := num.log2 + 1) (n := den.log2) (by omega), Nat.not_le, Nat.mul_comm den]
    exact Nat.mul_lt_mul_of_lt_of_le hnumHigh hdenLow hden
  have hstep : ∀ {x : Int}, AtLeast num den x → ¬AtLeast num den (x + 1) →
      (AtLeast num den e ↔ e ≤ x) := fun {x} hx hsucc ↦
    ⟨fun he ↦ Int.not_lt.1 fun hlt ↦ hsucc (he.mono hlt), fun hle ↦ hx.mono hle⟩
  simp only [binaryExponent]
  split
  next hguess => exact hstep hguess habove
  next hguess => exact hstep hbelow (by rwa [Int.sub_add_cancel])

/-- The binary exponent depends on the size of the quotient alone. -/
private theorem binaryExponent_mul_mul {k num den : Nat} (hk : 0 < k) (hnum : 0 < num)
    (hden : 0 < den) : binaryExponent (k * num) (k * den) = binaryExponent num den := by
  have hle : ∀ e, e ≤ binaryExponent (k * num) (k * den) ↔ e ≤ binaryExponent num den := by
    intro e
    rw [← atLeast_iff_le_binaryExponent (Nat.mul_pos hk hnum) (Nat.mul_pos hk hden),
      ← atLeast_iff_le_binaryExponent hnum hden, atLeast_mul_mul hk]
  exact Int.le_antisymm ((hle _).1 (Int.le_refl _)) ((hle _).2 (Int.le_refl _))

/-- The double nearest to a quotient depends on the size of the quotient alone. -/
theorem ofRatio?_mul_mul {k den : Nat} (hk : 0 < k) (hden : 0 < den) (negative : Bool)
    (num : Nat) : ofRatio? negative (k * num) (k * den) = ofRatio? negative num den := by
  by_cases hnum : num = 0
  · simp [ofRatio?, hnum]
  · have hpos : 0 < num := Nat.pos_of_ne_zero hnum
    have hprod : k * num ≠ 0 := Nat.ne_of_gt (Nat.mul_pos hk hpos)
    simp only [ofRatio?, if_neg hnum, if_neg hprod, binaryExponent_mul_mul hk hpos hden,
      Nat.mul_assoc, roundHalfEven_mul_mul hk]

/-- The parts of a double are in the form the format allows. -/
theorem ofParts?_self (d : Binary64) : ofParts? d.negative d.significand d.exponent = some d :=
  dif_pos d.canonical

private theorem ratio_eq (d : Binary64) :
    d.ratio = (d.significand * 2 ^ d.exponent.toNat, 2 ^ (-d.exponent).toNat) := rfl

private theorem ratio_den_pos (d : Binary64) : 0 < d.ratio.2 := Nat.two_pow_pos _

/-- The size of a double reaches `2 ^ (exponent + k)` where its significand reaches `2 ^ k`. -/
private theorem atLeast_ratio (d : Binary64) (k : Nat) :
    AtLeast d.ratio.1 d.ratio.2 (d.exponent + k) ↔ 2 ^ k ≤ d.significand := by
  have hsum : d.exponent + k = (d.exponent.toNat + k : Nat) - ((-d.exponent).toNat : Int) := by
    omega
  have hleft : 2 ^ (-d.exponent).toNat * 2 ^ (d.exponent.toNat + k) =
      2 ^ (-d.exponent).toNat * 2 ^ d.exponent.toNat * 2 ^ k := by ring
  have hright : d.significand * 2 ^ d.exponent.toNat * 2 ^ (-d.exponent).toNat =
      2 ^ (-d.exponent).toNat * 2 ^ d.exponent.toNat * d.significand := by ring
  rw [atLeast_iff hsum]
  simp only [ratio_eq, hleft, hright]
  exact Nat.mul_le_mul_left_iff (Nat.mul_pos (Nat.two_pow_pos _) (Nat.two_pow_pos _))

/-- The size of a double rounds to that double. -/
theorem ofRatio?_ratio (d : Binary64) : ofRatio? d.negative d.ratio.1 d.ratio.2 = some d := by
  obtain ⟨hbound, hlow, -, hlong⟩ := d.canonical
  by_cases hzero : d.significand = 0
  · have hexponent : d.exponent = -1074 := hlong.resolve_left (by simp [hzero])
    have hnum : d.ratio.1 = 0 := by simp [ratio, hzero]
    rw [ofRatio?, if_pos hnum, ← hzero, ← hexponent]
    exact d.ofParts?_self
  · have hnum : 0 < d.ratio.1 :=
      Nat.mul_pos (Nat.pos_of_ne_zero hzero) (Nat.two_pow_pos _)
    -- The significand has at most 53 bits, and exactly 53 above the least exponent.
    have hbelow : ¬d.exponent + (53 : Nat) ≤ binaryExponent d.ratio.1 d.ratio.2 := by
      rw [← atLeast_iff_le_binaryExponent hnum d.ratio_den_pos, atLeast_ratio]
      exact Nat.not_le.2 hbound
    have habove : Nat.pow 2 52 ≤ d.significand →
        d.exponent + (52 : Nat) ≤ binaryExponent d.ratio.1 d.ratio.2 := by
      rw [← atLeast_iff_le_binaryExponent hnum d.ratio_den_pos, atLeast_ratio]
      exact id
    have hexponent : max (-1074) (binaryExponent d.ratio.1 d.ratio.2 - 52) = d.exponent := by
      omega
    have hfraction : d.ratio.1 * Nat.pow 2 (-d.exponent).toNat =
        d.significand * (d.ratio.2 * Nat.pow 2 d.exponent.toNat) := by
      simp only [ratio_eq, Nat.pow_eq]
      ring
    have hsignificand : roundHalfEven (d.ratio.1 * Nat.pow 2 (-d.exponent).toNat)
        (d.ratio.2 * Nat.pow 2 d.exponent.toNat) = d.significand := by
      rw [hfraction]
      exact roundHalfEven_mul_self (Nat.mul_pos d.ratio_den_pos (Nat.two_pow_pos _)) _
    simp only [ofRatio?, if_neg (Nat.ne_of_gt hnum), hexponent, hsignificand]
    rw [if_neg (Nat.ne_of_lt hbound)]
    exact d.ofParts?_self

/-- A decimal read as a fraction, with its exponent as any difference of two powers. -/
private theorem ofDecimal?_eq {m n : Nat} {e : Int} (he : e = m - n) (negative : Bool)
    (digits : Nat) : ofDecimal? negative digits e = ofRatio? negative (digits * 10 ^ m) (10 ^ n) := by
  obtain ⟨c, rfl, rfl⟩ := exists_common he
  have hnum : digits * 10 ^ (c + e.toNat) = 10 ^ c * (digits * 10 ^ e.toNat) := by ring
  have hden : 10 ^ (c + (-e).toNat) = 10 ^ c * 10 ^ (-e).toNat := by ring
  rw [hnum, hden, ofRatio?_mul_mul (Nat.pow_pos (by decide)) (Nat.pow_pos (by decide))]
  rfl

/-- Zeros behind the digits count as much as the exponent that they stand for. -/
theorem ofDecimal?_mul_pow (negative : Bool) (digits k : Nat) (e : Int) :
    ofDecimal? negative (digits * 10 ^ k) e = ofDecimal? negative digits (e + k) := by
  have he : e = e.toNat - ((-e).toNat : Int) := by omega
  have hsum : e + k = (k + e.toNat : Nat) - ((-e).toNat : Int) := by omega
  rw [ofDecimal?_eq he, ofDecimal?_eq hsum, Nat.pow_add, Nat.mul_assoc]

/-- Digits that name zero read as a zero. -/
theorem isZero_of_ofDecimal?_zero {negative : Bool} {e : Int} {d : Binary64}
    (h : ofDecimal? negative 0 e = some d) : d.isZero := by
  simp only [ofDecimal?, Nat.zero_mul, ofRatio?, if_pos, ofParts?] at h
  split at h
  next => cases h; rfl
  next => cases h

/-- A zero reads back as itself under any exponent. -/
theorem ofDecimal?_of_isZero {d : Binary64} (hd : d.isZero) (e : Int) :
    ofDecimal? d.negative 0 e = some d := by
  have hzero : d.significand = 0 := by simpa [isZero] using hd
  have hexponent : d.exponent = -1074 := d.canonical.2.2.2.resolve_left (by simp [hzero])
  simp only [ofDecimal?, Nat.zero_mul, ofRatio?, if_pos]
  rw [← hzero, ← hexponent]
  exact d.ofParts?_self

/-- The exact decimal of a double reads back as that double. -/
private theorem ofDecimal?_exactDecimal (d : Binary64) :
    ofDecimal? d.negative d.exactDecimal.1 d.exactDecimal.2 = some d := by
  unfold exactDecimal
  split
  next hpos =>
    have hden : d.ratio.2 = 1 := by simp [ratio, Int.toNat_eq_zero.2 (Int.neg_nonpos_of_nonneg hpos)]
    have hback := d.ofRatio?_ratio
    rw [hden] at hback
    rw [ofDecimal?_eq (m := 0) (n := 0) (by omega)]
    simpa [ratio] using hback
  next hneg =>
    have hwhole : d.exponent.toNat = 0 := by omega
    have hnum : d.significand * 5 ^ (-d.exponent).toNat * 10 ^ 0 =
        5 ^ (-d.exponent).toNat * d.ratio.1 := by
      simp only [ratio_eq, hwhole]
      ring
    have hden : 10 ^ (-d.exponent).toNat = 5 ^ (-d.exponent).toNat * d.ratio.2 := by
      rw [ratio_eq, ← Nat.mul_pow]
    rw [ofDecimal?_eq (m := 0) (n := (-d.exponent).toNat) (by omega), Nat.pow_eq, hnum, hden,
      ofRatio?_mul_mul (Nat.pow_pos (by decide)) d.ratio_den_pos]
    exact d.ofRatio?_ratio

/-- The shortest decimal of a double reads back as that double. -/
theorem ofDecimal?_shortestDecimal (d : Binary64) :
    ofDecimal? d.negative d.shortestDecimal.1 d.shortestDecimal.2 = some d := by
  simp only [shortestDecimal]
  cases hfound : (List.range 17).findSome? _ with
  | none => exact d.ofDecimal?_exactDecimal
  | some decimal =>
    obtain ⟨more, -, hmore⟩ := List.exists_of_findSome?_eq_some hfound
    obtain ⟨digits, hdigits, rfl⟩ := Option.map_eq_some_iff.1 hmore
    have hback := List.find?_some hdigits
    exact beq_iff_eq.1 hback

end Binary64

end TemplateInheritance
