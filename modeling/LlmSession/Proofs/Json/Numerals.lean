import LlmSession.Json.Basic
import Mathlib.Data.List.Basic
import Mathlib.Data.List.TakeWhile

/-!
# Numerals that are read back

A reader takes as many characters for a numeral as it can.  So a numeral that was written is read
back only if what follows it does not go on with it: no digit, no point and no exponent.  What
follows a number in a file is a comma, a bracket, or a new line, and `Ends` asks for no more than
that.

## Which numerals are spelled well

The digits in front of the point have to be there, and they may begin with a zero only if the zero
is alone.  A point without digits and an exponent without digits cannot be spelled.  For numerals of
natural numbers this is a fact about their digits, of which the first is not zero
(`head?_toDigits_ne`); those of single-precision numbers have a file of their own.

## Which number it is

Digits are gathered as long as they fit into a word.  Those of a number below the bound all fit, and
then gathering is the usual value of digits (`gather_eq`).  So the integers of a word come back as
they were.

## Main statements

* `readNumeral_chars`: a numeral that is spelled well is read back.
* `Numeral.wellSpelled_ofNat`, `Numeral.wellSpelled_ofInt`.
* `toUInt32?_ofNat`, `toUInt64?_ofNat`, `toInt32?_ofInt`: integers come back.
-/

namespace LlmSession
namespace Json

/-! ## Digits -/

/-- The first digit of a positive number is not zero. -/
theorem head?_toDigits_ne {n : Nat} (h : 0 < n) : (Nat.toDigits 10 n).head? ≠ some '0' := by
  induction n using Nat.strong_induction_on with
  | _ n ih =>
    by_cases hlt : n < 10
    · rw [Nat.toDigits_of_lt_base hlt, List.head?_singleton]
      intro hzero
      exact Nat.ne_of_gt h (Nat.digitChar_eq_zero.1 (Option.some.inj hzero))
    · have hdiv : 0 < n / 10 := Nat.div_pos (Nat.le_of_not_lt hlt) (by decide)
      rw [Nat.toDigits_of_base_le (by decide) (Nat.le_of_not_lt hlt),
        List.head?_append_of_ne_nil _ Nat.toDigits_ne_nil]
      exact ih (n / 10) (Nat.div_lt_self h (by decide)) hdiv

theorem isDigit_of_mem_toDigits {n : Nat} {c : Char} (h : c ∈ Nat.toDigits 10 n) :
    c.isDigit = true := Nat.isDigit_of_mem_toDigits (by decide) (by decide) h

/-- Digits that do not begin with a zero may stand in front of a point. -/
theorem wholeAllowed_of_head? {digits : List Char} (hne : digits ≠ [])
    (hzero : digits.head? ≠ some '0') : wholeAllowed digits = true := by
  unfold wholeAllowed
  split
  · exact absurd rfl hne
  · rfl
  · next c _ _ =>
    refine bne_iff_ne.2 fun heq => hzero ?_
    rw [heq, List.head?_cons]

theorem wholeAllowed_toDigits (n : Nat) : wholeAllowed (Nat.toDigits 10 n) = true := by
  by_cases h : n = 0
  · rw [h, Nat.toDigits_zero]
    rfl
  · exact wholeAllowed_of_head? Nat.toDigits_ne_nil (head?_toDigits_ne (Nat.pos_of_ne_zero h))

/-! ## Spelling -/

/-- A numeral that the format allows. -/
structure Numeral.WellSpelled (n : Numeral) : Prop where
  whole_allowed : wholeAllowed n.whole = true
  whole_digits : ∀ c ∈ n.whole, c.isDigit = true
  fraction_digits : ∀ c ∈ n.fraction, c.isDigit = true
  exponent_ne_nil : ∀ e ∈ n.exponent, e.2 ≠ []
  exponent_digits : ∀ e ∈ n.exponent, ∀ c ∈ e.2, c.isDigit = true

/-- A text that does not go on with a numeral in front of it. -/
def Ends (cs : List Char) : Prop :=
  ∀ c ∈ cs.head?, c.isDigit = false ∧ c ≠ '.' ∧ c ≠ 'e' ∧ c ≠ 'E'

theorem ends_nil : Ends [] := nofun

theorem ends_cons {c : Char} {cs : List Char}
    (h : c.isDigit = false ∧ c ≠ '.' ∧ c ≠ 'e' ∧ c ≠ 'E') : Ends (c :: cs) := by
  rintro c' ⟨⟩
  exact h

namespace Numeral

theorem wellSpelled_ofNat (n : Nat) : (ofNat n).WellSpelled where
  whole_allowed := wholeAllowed_toDigits n
  whole_digits _ := isDigit_of_mem_toDigits
  fraction_digits := nofun
  exponent_ne_nil := nofun
  exponent_digits := nofun

theorem wellSpelled_ofInt (n : Int) : (ofInt n).WellSpelled where
  whole_allowed := wholeAllowed_toDigits n.natAbs
  whole_digits _ := isDigit_of_mem_toDigits
  fraction_digits := nofun
  exponent_ne_nil := nofun
  exponent_digits := nofun

end Numeral

/-! ## Reading the parts -/

/-- Digits are read up to the first character that is none. -/
theorem digitRun_append {digits rest : List Char} (hdigits : ∀ c ∈ digits, c.isDigit = true)
    (hrest : ∀ c ∈ rest.head?, c.isDigit = false) : digitRun (digits ++ rest) = (digits, rest) := by
  have htake : rest.takeWhile Char.isDigit = [] := by
    cases rest with
    | nil => rfl
    | cons c cs => exact List.takeWhile_cons_of_neg (by rw [hrest c rfl]; exact Bool.false_ne_true)
  have hdrop : rest.dropWhile Char.isDigit = rest := by
    cases rest with
    | nil => rfl
    | cons c cs => exact List.dropWhile_cons_of_neg (by rw [hrest c rfl]; exact Bool.false_ne_true)
  rw [digitRun, List.takeWhile_append_of_pos hdigits, List.dropWhile_append_of_pos hdigits, htake,
    hdrop, List.append_nil]

theorem someDigits?_append {digits rest : List Char} (hne : digits ≠ [])
    (hdigits : ∀ c ∈ digits, c.isDigit = true) (hrest : ∀ c ∈ rest.head?, c.isDigit = false) :
    someDigits? (digits ++ rest) = some (digits, rest) := by
  rw [someDigits?, digitRun_append hdigits hrest]
  exact if_neg hne

theorem readMinus_append {negative : Bool} {cs : List Char} (h : cs.head? ≠ some '-') :
    readMinus ((if negative then ['-'] else []) ++ cs) = (negative, cs) := by
  cases negative with
  | true => rfl
  | false =>
    show readMinus cs = _
    unfold readMinus
    split
    · exact absurd rfl h
    · rfl

theorem readFraction_append {fraction rest : List Char}
    (hdigits : ∀ c ∈ fraction, c.isDigit = true)
    (hrest : ∀ c ∈ rest.head?, c.isDigit = false ∧ c ≠ '.') :
    readFraction ((if fraction = [] then [] else '.' :: fraction) ++ rest) =
      some (fraction, rest) := by
  by_cases hnil : fraction = []
  · rw [if_pos hnil, List.nil_append, hnil]
    unfold readFraction
    split
    · next cs => exact absurd rfl (hrest '.' rfl).2
    · rfl
  · rw [if_neg hnil]
    exact someDigits?_append hnil hdigits fun c hc => (hrest c hc).1

theorem readExponent_append {exponent : Option (Bool × List Char)} {rest : List Char}
    (hne : ∀ e ∈ exponent, e.2 ≠ []) (hdigits : ∀ e ∈ exponent, ∀ c ∈ e.2, c.isDigit = true)
    (hrest : Ends rest) :
    readExponent (Numeral.exponentChars exponent ++ rest) = some (exponent, rest) := by
  cases exponent with
  | none =>
    show readExponent rest = _
    unfold readExponent
    split
    · next cs => exact absurd rfl (hrest 'e' rfl).2.2.1
    · next cs => exact absurd rfl (hrest 'E' rfl).2.2.2
    · rfl
  | some e =>
    obtain ⟨negative, digits⟩ := e
    have hread : someDigits? (digits ++ rest) = some (digits, rest) :=
      someDigits?_append (hne _ rfl) (hdigits _ rfl) fun c hc => (hrest c hc).1
    cases negative with
    | false => simp [Numeral.exponentChars, readExponent, readExponentSign, hread]
    | true => simp [Numeral.exponentChars, readExponent, readExponentSign, hread]

/-- An exponent, or what comes after a numeral without one, does not go on with its digits. -/
theorem head?_exponentChars_append (exponent : Option (Bool × List Char)) {rest : List Char}
    (hrest : Ends rest) :
    ∀ c ∈ (Numeral.exponentChars exponent ++ rest).head?, c.isDigit = false ∧ c ≠ '.' := by
  cases exponent with
  | none => exact fun c hc => ⟨(hrest c hc).1, (hrest c hc).2.1⟩
  | some e =>
    rintro c ⟨⟩
    decide

/-- Neither does a point, or what comes after a numeral without one. -/
theorem isDigit_head?_fraction {fraction rest : List Char}
    (hrest : ∀ c ∈ rest.head?, c.isDigit = false ∧ c ≠ '.') :
    ∀ c ∈ ((if fraction = [] then [] else '.' :: fraction) ++ rest).head?, c.isDigit = false := by
  by_cases hnil : fraction = []
  · rw [if_pos hnil]
    exact fun c hc => (hrest c hc).1
  · rw [if_neg hnil]
    rintro c ⟨⟩
    decide

/-! ## Reading a numeral -/

namespace Numeral.WellSpelled

variable {n : Numeral}

theorem exists_whole_eq (h : n.WellSpelled) :
    ∃ c cs, n.whole = c :: cs ∧ c.isDigit = true := by
  cases hwhole : n.whole with
  | nil =>
    have hallowed := h.whole_allowed
    rw [hwhole] at hallowed
    exact nomatch hallowed
  | cons c cs => exact ⟨c, cs, rfl, h.whole_digits c (by rw [hwhole]; exact List.mem_cons_self)⟩

/-- A numeral begins with a minus or with a digit. -/
theorem exists_chars_eq (h : n.WellSpelled) :
    ∃ c cs, n.chars = c :: cs ∧ (c = '-' ∨ c.isDigit = true) := by
  obtain ⟨c, cs, hwhole, hdigit⟩ := h.exists_whole_eq
  unfold chars
  cases n.negative with
  | true => exact ⟨'-', _, rfl, Or.inl rfl⟩
  | false =>
    rw [hwhole]
    exact ⟨c, _, rfl, Or.inr hdigit⟩

end Numeral.WellSpelled

/-- **A numeral is read back**, and what follows it is left. -/
theorem readNumeral_chars {n : Numeral} (h : n.WellSpelled) {rest : List Char} (hrest : Ends rest) :
    readNumeral (n.chars ++ rest) = some (n, rest) := by
  obtain ⟨c, cs, hwhole, hdigit⟩ := h.exists_whole_eq
  have hexponent := head?_exponentChars_append n.exponent hrest
  have hminus : ∀ tail : List Char, (n.whole ++ tail).head? ≠ some '-' := by
    intro tail hhead
    rw [hwhole] at hhead
    obtain rfl := Option.some.inj hhead
    exact absurd hdigit (by decide)
  rw [Numeral.chars, List.append_assoc, List.append_assoc, List.append_assoc]
  unfold readNumeral
  simp only [readMinus_append (hminus _),
    digitRun_append h.whole_digits (isDigit_head?_fraction hexponent), if_pos h.whole_allowed,
    readFraction_append h.fraction_digits hexponent,
    readExponent_append h.exponent_ne_nil h.exponent_digits hrest]

/-! ## The number of an integer's numeral -/

theorem le_ofDigitChars (digits : List Char) (n : Nat) : n ≤ Nat.ofDigitChars 10 digits n := by
  induction digits generalizing n with
  | nil => exact Nat.le_refl n
  | cons c cs ih =>
    rw [Nat.ofDigitChars_cons]
    have hle := ih (10 * n + (c.toNat - '0'.toNat))
    omega

/-- **All digits fit** if their number does, and then they are gathered into it. -/
theorem gather_eq {limit n : Nat} {digits : List Char}
    (h : Nat.ofDigitChars 10 digits n < limit) :
    gather limit n digits = (Nat.ofDigitChars 10 digits n, []) := by
  induction digits generalizing n with
  | nil => rfl
  | cons c cs ih =>
    rw [Nat.ofDigitChars_cons] at h ⊢
    have hle := le_ofDigitChars cs (10 * n + (c.toNat - '0'.toNat))
    rw [gather, if_neg (by omega)]
    exact ih h

theorem gather_toDigits {limit n : Nat} (h : n < limit) :
    gather limit 0 (Nat.toDigits 10 n) = (n, []) := by
  have hvalue : Nat.ofDigitChars 10 (Nat.toDigits 10 n) 0 = n := Nat.ofDigitChars_ten_toDigits
  rw [gather_eq (by rwa [hvalue]), hvalue]

namespace Numeral

theorem number?_ofNat {n : Nat} (h : n < twoTo 64) :
    (ofNat n).number? = some (.integer n) := by
  simp only [number?, ofNat, gather_toDigits h, if_neg Bool.false_ne_true]

theorem number?_ofInt {n : Int} (hlow : -(twoTo 63 : Int) ≤ n) (hhigh : n < (twoTo 64 : Int)) :
    (ofInt n).number? = some (.integer n) := by
  have habs : n.natAbs < twoTo 64 := by
    have hle : twoTo 63 < twoTo 64 := by decide
    omega
  by_cases hneg : n < 0
  · have hsmall : ¬ (n.natAbs = 0 ∨ twoTo 63 < n.natAbs) := by omega
    simp only [number?, ofInt, gather_toDigits habs, decide_eq_true hneg, if_true, if_neg hsmall]
    congr 2
    omega
  · simp only [number?, ofInt, gather_toDigits habs, decide_eq_false hneg, if_neg Bool.false_ne_true]
    congr 2
    omega

end Numeral

/-- A natural number below a bound comes back, if the bound is one of a word. -/
theorem natBelow?_ofNat {n bound : Nat} (h : n < bound) (hbound : bound ≤ twoTo 64) :
    (ofNat n).natBelow? bound = some n := by
  have hnumber : (ofNat n).toNumber? = some (.integer n) :=
    Numeral.number?_ofNat (Nat.lt_of_lt_of_le h hbound)
  rw [natBelow?, hnumber, Option.bind_some, Number.natBelow?,
    if_pos ⟨Int.natCast_nonneg n, Int.ofNat_lt.2 h⟩, Int.toNat_natCast]

@[simp] theorem toUInt32?_ofNat (n : UInt32) : (ofNat n.toNat).toUInt32? = some n := by
  have hlt : n.toNat < twoTo 32 := n.toNat_lt
  rw [toUInt32?, natBelow?_ofNat hlt (by decide), Option.map_some, UInt32.ofNat_toNat]

@[simp] theorem toUInt64?_ofNat (n : UInt64) : (ofNat n.toNat).toUInt64? = some n := by
  have hlt : n.toNat < twoTo 64 := n.toNat_lt
  rw [toUInt64?, natBelow?_ofNat hlt (Nat.le_refl _), Option.map_some, UInt64.ofNat_toNat]

@[simp] theorem toInt32?_ofInt (n : Int32) : (ofInt n.toInt).toInt32? = some n := by
  have hlow : -(twoTo 31 : Int) ≤ n.toInt := n.le_toInt
  have hhigh : n.toInt < (twoTo 31 : Int) := n.toInt_lt
  have hword : (ofInt n.toInt).toNumber? = some (.integer n.toInt) := by
    refine Numeral.number?_ofInt (Int.le_trans ?_ hlow) (Int.lt_of_lt_of_le hhigh ?_)
    · decide
    · decide
  rw [toInt32?, hword, Option.bind_some, Number.int32?, if_pos ⟨hlow, hhigh⟩, Int32.ofInt_toInt]

end Json
end LlmSession
