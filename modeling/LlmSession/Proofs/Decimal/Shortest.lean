import LlmSession.Decimal.Shortest
import LlmSession.Proofs.Json.Numerals

/-!
# The numeral of a single-precision number

Every finite number has a numeral that the format allows (`wellSpelled_ofBinary32`).  The digits of
the shortest decimal are those of a natural number, without the zeros at their end, so all there is
to show is that this natural number is not zero: then the first digit is none, and it stays when
the zeros at the end go.

## Why it is not zero

A candidate is in the interval of the number, whose lower end is positive (`Span.pos_of_candidate?`).
But the search may end without a candidate, and then it takes what is nearest on the last grid.
That the last grid is fine enough follows from where the search begins: the place of the number's
first digit is one whose unit is not above the number, and so are all places below it
(`Span.unit_le`).

## Main statements

* `Span.firstCandidate_pos`: the search finds a positive number.
* `head?_shortestDigits_ne`: the first of the shortest digits is not zero.
* `Json.Numeral.wellSpelled_ofBinary32`: the numeral of a finite number.
-/

namespace LlmSession

theorem Decimal.roundDiv_pos {num den : Nat} (hden : 0 < den) (h : den ≤ num) :
    0 < roundDiv num den := by
  have hle := le_two_mul_roundDiv_mul num hden
  by_contra hzero
  rw [Nat.eq_zero_of_not_pos hzero, Nat.zero_mul] at hle
  omega

/-! ## The place of the first digit -/

theorem tenTo_le_tenTo {m n : Nat} (h : m ≤ n) : tenTo m ≤ tenTo n :=
  Nat.pow_le_pow_right (by decide) h

theorem tenTo_length_toDigits_le {n : Nat} (h : 0 < n) :
    tenTo ((Nat.toDigits 10 n).length - 1) ≤ n := by
  by_cases hone : (Nat.toDigits 10 n).length = 1
  · rw [hone]
    exact h
  · have hlength : 0 < (Nat.toDigits 10 n).length := Nat.length_toDigits_pos
    refine Nat.le_of_not_lt fun hlt => ?_
    have hshort := (Nat.length_toDigits_le_iff (by decide) (by omega)).2 hlt
    omega

theorem lt_tenTo_length_toDigits (n : Nat) : n < tenTo (Nat.toDigits 10 n).length :=
  (Nat.length_toDigits_le_iff (by decide) Nat.length_toDigits_pos).1 (Nat.le_refl _)

namespace Span

/-- The span of a positive number, all of whose numbers are positive. -/
structure Positive (s : Span) : Prop where
  low : 0 < s.low
  mid : 0 < s.mid
  num : 0 < s.num
  den : 0 < s.den

variable {s : Span} {place : Int} {c : Nat}

/-- **The unit of a place is not above the number**, if the place is not above that of its first
digit. -/
theorem unit_le (h : s.Positive) (hplace : place ≤ s.magnitude) :
    s.den * tenTo place.toNat ≤ s.mid * s.num * tenTo (-place).toNat := by
  have hnumber : 0 < s.mid * s.num := Nat.mul_pos h.mid h.num
  have hone := tenTo_pos (-place).toNat
  unfold magnitude at hplace
  dsimp only at hplace
  by_cases hle : s.den ≤ s.mid * s.num
  · rw [if_pos hle] at hplace
    have hfirst := tenTo_length_toDigits_le (Nat.div_pos hle h.den)
    have hunit : tenTo place.toNat ≤ s.mid * s.num / s.den :=
      Nat.le_trans (tenTo_le_tenTo (by omega)) hfirst
    calc s.den * tenTo place.toNat ≤ s.den * (s.mid * s.num / s.den) :=
          Nat.mul_le_mul_left _ hunit
      _ ≤ s.mid * s.num := Nat.mul_div_le _ _
      _ ≤ s.mid * s.num * tenTo (-place).toNat := Nat.le_mul_of_pos_right _ hone
  · rw [if_neg hle] at hplace
    -- the number is below one: its denominator is at most a power of ten above it
    generalize hquotient : (s.den + s.mid * s.num - 1) / (s.mid * s.num) = quotient at hplace
    have hceiling := Nat.div_add_mod (s.den + s.mid * s.num - 1) (s.mid * s.num)
    have hrest := Nat.mod_lt (s.den + s.mid * s.num - 1) hnumber
    rw [hquotient] at hceiling
    have hlast := lt_tenTo_length_toDigits (quotient - 1)
    have hplaces : (Nat.toDigits 10 (quotient - 1)).length ≤ (-place).toNat := by omega
    have hpower : quotient ≤ tenTo (-place).toNat :=
      Nat.le_trans (by omega) (tenTo_le_tenTo hplaces)
    rw [show place.toNat = 0 by omega, tenTo_zero, Nat.mul_one]
    calc s.den ≤ s.mid * s.num * quotient := by omega
      _ ≤ s.mid * s.num * tenTo (-place).toNat := Nat.mul_le_mul_left _ hpower

/-! ## The search -/

theorem nearest_pos (h : s.Positive) (hplace : place ≤ s.magnitude) : 0 < s.nearest place :=
  Decimal.roundDiv_pos (Nat.mul_pos h.den (tenTo_pos _)) (unit_le h hplace)

theorem pos_of_contains (h : s.Positive) (hc : s.contains c place = true) : 0 < c := by
  have hend : 0 < s.low * (s.num * tenTo (-place).toNat) :=
    Nat.mul_pos h.low (Nat.mul_pos h.num (tenTo_pos _))
  by_contra hzero
  rw [Nat.eq_zero_of_not_pos hzero] at hc
  unfold contains at hc
  dsimp only at hc
  rw [Nat.zero_mul, Nat.zero_mul] at hc
  split at hc
  · exact absurd (of_decide_eq_true hc).1 (by omega)
  · exact absurd (of_decide_eq_true hc).1 (by omega)

theorem pos_of_candidate? (h : s.Positive) (hc : s.candidate? place = some c) : 0 < c := by
  unfold candidate? at hc
  dsimp only at hc
  by_cases hnear : s.contains (s.nearest place) place = true
  · rw [if_pos hnear] at hc
    rw [← Option.some.inj hc]
    exact pos_of_contains h hnear
  · rw [if_neg hnear] at hc
    obtain ⟨hother, heq⟩ := Option.ite_none_right_eq_some.1 hc
    rw [← Option.some.inj heq]
    exact pos_of_contains h hother

/-- **The search finds a positive number**, also when it ends without a candidate. -/
theorem firstCandidate_pos (h : s.Positive) (grids : Nat) (hplace : place ≤ s.magnitude) :
    0 < (s.firstCandidate place grids).1 := by
  induction grids generalizing place with
  | zero => exact nearest_pos h hplace
  | succ grids ih =>
    unfold firstCandidate
    split
    · next c hc => exact pos_of_candidate? h hc
    · exact ih (by omega)

end Span

/-- The span of a number other than zero is positive. -/
theorem Binary32.positive_span {x : Binary32} (h : x.magnitude ≠ 0) : x.span.Positive := by
  have hdiv := Nat.div_add_mod x.magnitude (twoTo 23)
  have hbits := twoTo_pos 23
  have hsignificand : 0 < (if x.magnitude / twoTo 23 = 0 then x.magnitude % twoTo 23
      else twoTo 23 + x.magnitude % twoTo 23) := by
    by_cases hzero : x.magnitude / twoTo 23 = 0
    · rw [if_pos hzero]
      rw [hzero, Nat.mul_zero, Nat.zero_add] at hdiv
      rw [hdiv]
      exact Nat.pos_of_ne_zero h
    · rw [if_neg hzero]
      exact Nat.add_pos_left hbits _
  unfold span
  dsimp only
  generalize (if x.magnitude / twoTo 23 = 0 then x.magnitude % twoTo 23
    else twoTo 23 + x.magnitude % twoTo 23) = significand at hsignificand
  generalize max (x.magnitude / twoTo 23) 1 = position
  constructor
  · show 0 < 4 * significand - _
    split_ifs
    · omega
    · omega
  · show 0 < 4 * significand
    omega
  · dsimp only
    exact twoTo_pos (position - 152)
  · exact twoTo_pos (152 - position)

/-! ## The digits -/

theorem head?_trimZeros {digits : List Char} (h : digits.head? ≠ some '0') :
    (trimZeros digits).head? = digits.head? := by
  cases digits with
  | nil => rfl
  | cons d ds =>
    -- the zeros at the end do not reach the first digit
    have hstop : ∀ ds : List Char, ∃ front, (ds ++ [d]).dropWhile (· = '0') = front ++ [d] := by
      intro ds
      induction ds with
      | nil => exact ⟨[], List.dropWhile_cons_of_neg (by simpa using h)⟩
      | cons c cs ih =>
        rw [List.cons_append, List.dropWhile_cons]
        split
        · exact ih
        · exact ⟨c :: cs, rfl⟩
    obtain ⟨front, hfront⟩ := hstop ds.reverse
    rw [trimZeros, List.reverse_cons, hfront, List.reverse_append]
    rfl

theorem mem_of_mem_trimZeros {digits : List Char} {c : Char} (h : c ∈ trimZeros digits) :
    c ∈ digits :=
  List.mem_reverse.1 ((List.dropWhile_sublist _).mem (List.mem_reverse.1 h))

section

variable {s : Span} (h : s.Positive)

theorem shortestDigits_fst (s : Span) :
    (shortestDigits s).1 = trimZeros (Nat.toDigits 10 (s.firstCandidate s.magnitude 8).1) := rfl

include h

/-- **The first of the shortest digits is not zero.** -/
theorem head?_shortestDigits_ne : (shortestDigits s).1.head? ≠ some '0' := by
  have hne := Json.head?_toDigits_ne (Span.firstCandidate_pos h 8 (Int.le_refl _))
  rwa [shortestDigits_fst, head?_trimZeros hne]

theorem shortestDigits_ne_nil : (shortestDigits s).1 ≠ [] := by
  have hne := Json.head?_toDigits_ne (Span.firstCandidate_pos h 8 (Int.le_refl _))
  intro hnil
  rw [shortestDigits_fst, ← List.head?_eq_none_iff, head?_trimZeros hne] at hnil
  exact Nat.toDigits_ne_nil (List.head?_eq_none_iff.1 hnil)

end

theorem isDigit_of_mem_shortestDigits {s : Span} {c : Char} (h : c ∈ (shortestDigits s).1) :
    c.isDigit = true :=
  Json.isDigit_of_mem_toDigits (mem_of_mem_trimZeros h)

/-! ## The numeral -/

namespace Json.Numeral

variable {negative : Bool} {digits : List Char} {power : Int}

/-- Digits that do not begin with a zero make a numeral that is spelled well, wherever the point
comes to stand. -/
theorem wellSpelled_ofDigits (hne : digits ≠ []) (hzero : digits.head? ≠ some '0')
    (hdigits : ∀ c ∈ digits, c.isDigit = true) :
    (ofDigits negative digits power).WellSpelled := by
  have hzeros (n : Nat) : ∀ c ∈ List.replicate n '0', c.isDigit = true := by
    intro c hc
    rw [List.eq_of_mem_replicate hc]
    rfl
  unfold ofDigits
  split
  · -- one digit in front of the point, and an exponent
    refine ⟨?_, ?_, ?_, ?_, ?_⟩
    · cases digits with
      | nil => exact absurd rfl hne
      | cons d ds => exact wholeAllowed_of_head? (List.cons_ne_nil _ _) hzero
    · exact fun c hc => hdigits c (List.mem_of_mem_take hc)
    · exact fun c hc => hdigits c (List.mem_of_mem_drop hc)
    · rintro e ⟨⟩
      exact Nat.toDigits_ne_nil
    · rintro e ⟨⟩ c hc
      exact isDigit_of_mem_toDigits hc
  split
  · -- all digits behind the point
    refine ⟨rfl, hzeros 1, ?_, nofun, nofun⟩
    intro c hc
    rcases List.mem_append.1 hc with hc | hc
    · exact hzeros _ c hc
    · exact hdigits c hc
  · -- as many digits in front of the point as the power says
    refine ⟨?_, ?_, ?_, nofun, nofun⟩
    · cases digits with
      | nil => exact absurd rfl hne
      | cons d ds => exact wholeAllowed_of_head? (List.cons_ne_nil _ _) hzero
    · intro c hc
      rcases List.mem_append.1 hc with hc | hc
      · exact hdigits c (List.mem_of_mem_take hc)
      · exact hzeros _ c hc
    · dsimp only
      split
      · exact hzeros 1
      · exact fun c hc => hdigits c (List.mem_of_mem_drop hc)

/-- **The numeral of a number** is spelled well. -/
theorem wellSpelled_ofBinary32 (x : Binary32) : (ofBinary32 x).WellSpelled := by
  unfold ofBinary32
  split
  · have hzero : ∀ c ∈ ['0'], c.isDigit = true := List.forall_mem_singleton.2 rfl
    exact ⟨rfl, hzero, hzero, nofun, nofun⟩
  · next hne =>
    have hspan := Binary32.positive_span hne
    exact wellSpelled_ofDigits (shortestDigits_ne_nil hspan) (head?_shortestDigits_ne hspan)
      fun c => isDigit_of_mem_shortestDigits

end Json.Numeral
end LlmSession
