import LlmSession.Proofs.Text.WellFormed

/-!
# Where a byte sequence can be read apart

The strict reading takes a byte sequence for a row of parts, each of which is a character or is
replaced: a lead byte with what follows of its character, or one byte that leads nothing.  `Between`
says that an offset lies between two parts.  Read at such an offset, both sides together give the
text of the whole; read at any other, they give more replacement characters than the whole does
(`decodeLossy_append_iff`).

## Two ways to know an offset

In front of a byte that is no continuation byte a new part begins, whatever came before
(`between_of_not_isContinuation`), so that a character is never taken for the rest of another.
And behind bytes of complete shape a new part begins, whatever comes after
(`between_of_shapeFrom_eq_complete`), although such bytes may have no text of their own: a lead byte
that announces more than it may take is replaced alone, and so is each byte that it announced.

## Main statements

* `Between`: an offset between two parts.
* `decodeLossy_append_iff`: the two sides of an offset.
* `flatMap_decodeLossy_eq_iff`: a sequence that is cut several times.
-/

namespace LlmSession
namespace Utf8

/-- An offset between two parts of the strict reading. -/
inductive Between : List UInt8 → Nat → Prop where
  /-- The beginning. -/
  | zero (bytes : List UInt8) : Between bytes 0
  /-- So many bytes behind the first part. -/
  | part {b : UInt8} {bs : List UInt8} {n : Nat}
    (h : Between (bs.drop (continuation b bs).length) n) :
    Between (b :: bs) ((continuation b bs).length + n + 1)

/-! ## The first part -/

/-- A byte that can stand right after a lead byte is a continuation byte. -/
theorem CanFollow.isContinuation {b d : UInt8} (h : CanFollow b d) : IsContinuation d := by
  have hbounds : 0x80 ≤ (secondBounds b).1 ∧ (secondBounds b).2 ≤ 0xBF :=
    forall_byte (P := fun b => 0x80 ≤ (secondBounds b).1 ∧ (secondBounds b).2 ≤ 0xBF)
      (by decide +kernel) b
  have hform : 0x80 ≤ d → d ≤ 0xBF → IsContinuation d :=
    forall_byte (P := fun d => 0x80 ≤ d → d ≤ 0xBF → IsContinuation d) (by decide +kernel) d
  exact hform (UInt8.le_trans hbounds.1 h.1) (UInt8.le_trans h.2 hbounds.2)

/-- A continuation byte opens no character. -/
theorem tailLength?_eq_none_of_isContinuation {d : UInt8} (h : IsContinuation d) :
    tailLength? d = none :=
  forall_byte (P := fun d => IsContinuation d → tailLength? d = none) (by decide +kernel) d h

/-- A byte that opens a character announces the bytes that it asks for. -/
theorem getD_tailLength?_le {b : UInt8} {n : Nat} (h : announced? b = some n) :
    (tailLength? b).getD 0 ≤ n := by
  have hle : (tailLength? b).getD 0 ≤ (announced? b).getD 0 :=
    forall_byte (P := fun b => (tailLength? b).getD 0 ≤ (announced? b).getD 0) (by decide +kernel) b
  rwa [h] at hle

/-- The bytes that the first part takes stand right behind its lead, and are no more than this asks
for. -/
theorem continuation_prefix_take (b : UInt8) (bs : List UInt8) :
    continuation b bs <+: bs.take ((tailLength? b).getD 0) := by
  unfold continuation
  cases bs.take ((tailLength? b).getD 0) with
  | nil => exact List.prefix_rfl
  | cons c cs =>
    dsimp only
    split
    · exact (List.prefix_cons_inj c).2 (List.takeWhile_prefix _)
    · exact List.nil_prefix

theorem continuation_prefix_tail (b : UInt8) (bs : List UInt8) : continuation b bs <+: bs :=
  (continuation_prefix_take b bs).trans (List.take_prefix _ _)

theorem length_continuation_le (b : UInt8) (bs : List UInt8) :
    (continuation b bs).length ≤ (tailLength? b).getD 0 :=
  Nat.le_trans (continuation_prefix_take b bs).length_le (List.length_take_le _ _)

theorem isContinuation_of_mem_continuation {b d : UInt8} {bs : List UInt8}
    (h : d ∈ continuation b bs) : IsContinuation d := by
  unfold continuation at h
  split at h
  · exact absurd h List.not_mem_nil
  · split at h
    · next c cs _ hfollows =>
      rcases List.mem_cons.1 h with rfl | h
      · exact CanFollow.isContinuation hfollows
      · exact of_decide_eq_true (List.mem_takeWhile_imp h :)
    · exact absurd h List.not_mem_nil

/-- What the first part takes of a beginning is what it takes of the whole, as far as it is
there. -/
theorem continuation_eq_take (b : UInt8) (bs rest : List UInt8) :
    continuation b bs = (continuation b (bs ++ rest)).take bs.length := by
  unfold continuation
  cases bs with
  | nil => rw [List.take_nil, List.length_nil, List.take_zero]
  | cons c cs =>
    cases (tailLength? b).getD 0 with
    | zero => rfl
    | succ n =>
      rw [List.cons_append, List.take_succ_cons, List.take_succ_cons]
      dsimp only
      split
      · rw [List.length_cons, List.take_succ_cons, List.take_takeWhile, List.take_take,
          Nat.min_comm, ← List.take_take, List.take_left]
      · exact List.take_nil.symm

/-- A first part that ends in a beginning is the first part of the beginning. -/
theorem continuation_append_of_le {b : UInt8} {bs : List UInt8} (rest : List UInt8)
    (h : (continuation b (bs ++ rest)).length ≤ bs.length) :
    continuation b (bs ++ rest) = continuation b bs := by
  rw [continuation_eq_take b bs rest, List.take_of_length_le h]

theorem headChar_congr {b : UInt8} {bs cs : List UInt8}
    (h : continuation b bs = continuation b cs) : headChar b bs = headChar b cs := by
  rw [headChar, headChar, h]

/-- A continuation byte that no lead byte takes is replaced alone. -/
theorem decodeLossy_cons_of_isContinuation {d : UInt8} (h : IsContinuation d) (bs : List UInt8) :
    decodeLossy (d :: bs) = replacement :: decodeLossy bs := by
  have hnone := tailLength?_eq_none_of_isContinuation h
  have hle := length_continuation_le d bs
  rw [hnone, Option.getD_none] at hle
  rw [decodeLossy_cons, Nat.le_zero.1 hle, List.drop_zero, headChar, if_neg (by simp [hnone])]

theorem length_decodeLossy_append_of_isContinuation {tail : List UInt8}
    (h : ∀ d ∈ tail, IsContinuation d) (bs : List UInt8) :
    (decodeLossy (tail ++ bs)).length = tail.length + (decodeLossy bs).length := by
  induction tail with
  | nil => exact (Nat.zero_add _).symm
  | cons d tail ih =>
    obtain ⟨hd, htail⟩ := List.forall_mem_cons.1 h
    rw [List.cons_append, decodeLossy_cons_of_isContinuation hd, List.length_cons, ih htail,
      List.length_cons]
    omega

/-! ## Offsets between parts -/

theorem between_cons_iff {b : UInt8} {bs : List UInt8} {n : Nat} :
    Between (b :: bs) ((continuation b bs).length + n + 1) ↔
      Between (bs.drop (continuation b bs).length) n := by
  refine ⟨fun h => ?_, .part⟩
  generalize hm : (continuation b bs).length + n + 1 = m at h
  cases h with
  | zero => exact nomatch hm
  | part h =>
    obtain rfl := Nat.add_left_cancel (Nat.succ.inj hm)
    exact h

/-- Behind an offset the offsets are those of what stands there. -/
theorem Between.add_iff {bytes : List UInt8} {m n : Nat} (h : Between bytes m) :
    Between bytes (m + n) ↔ Between (bytes.drop m) n := by
  induction h with
  | zero bytes => rw [Nat.zero_add, List.drop_zero]
  | part h ih =>
    rw [Nat.add_right_comm, Nat.add_assoc (continuation _ _).length, between_cons_iff, ih,
      List.drop_succ_cons, List.drop_drop]

/-- The first part of a longer sequence, if it ends in the beginning `b :: bs`. -/
theorem between_cons_append_iff {b : UInt8} {bs rest : List UInt8}
    (h : (continuation b (bs ++ rest)).length ≤ bs.length) :
    Between (b :: bs ++ rest) (b :: bs).length ↔
      Between (bs.drop (continuation b bs).length ++ rest)
        (bs.drop (continuation b bs).length).length := by
  rw [← continuation_append_of_le rest h, ← List.drop_append_of_le_length h, ← between_cons_iff,
    List.length_drop, Nat.add_sub_cancel' h]
  rfl

/-- **At an offset between two parts** the text is that of both sides. -/
theorem Between.decodeLossy_eq {bytes : List UInt8} {n : Nat} (h : Between bytes n) :
    decodeLossy bytes = decodeLossy (bytes.take n) ++ decodeLossy (bytes.drop n) := by
  induction h with
  | zero bytes => rw [List.take_zero, List.drop_zero, decodeLossy_nil, List.nil_append]
  | @part b bs n h ih =>
    have hlength : (continuation b bs).length ≤ bs.length := (continuation_prefix_tail b bs).length_le
    have hsame : continuation b (bs.take ((continuation b bs).length + n)) = continuation b bs := by
      rw [continuation_eq_take b (bs.take _) (bs.drop ((continuation b bs).length + n)),
        List.take_append_drop, List.take_of_length_le]
      rw [List.length_take]
      omega
    rw [List.take_succ_cons, List.drop_succ_cons, decodeLossy_cons, decodeLossy_cons, hsame,
      headChar_congr hsame, List.drop_take, Nat.add_sub_cancel_left, ih, List.drop_drop,
      List.cons_append]

/-- **At any other offset** the two sides have more characters than the whole. -/
theorem length_decodeLossy_append_lt {bytes rest : List UInt8}
    (h : ¬ Between (bytes ++ rest) bytes.length) :
    (decodeLossy (bytes ++ rest)).length <
      (decodeLossy bytes).length + (decodeLossy rest).length := by
  fun_induction decodeLossy bytes with
  | case1 => exact absurd (.zero _) h
  | case2 b bs ih =>
    rw [List.cons_append, decodeLossy_cons, List.length_cons, List.length_cons]
    rcases Nat.lt_or_ge bs.length (continuation b (bs ++ rest)).length with hlong | hshort
    · -- the part that `b` opens ends behind the offset, and what it takes there is read singly
      have htakes := continuation_prefix_tail b (bs ++ rest)
      obtain ⟨tail, htail⟩ :=
        List.prefix_of_prefix_length_le (List.prefix_append bs rest) htakes hlong.le
      obtain ⟨more, hmore⟩ := htakes
      rw [← htail, List.append_assoc, List.append_cancel_left_eq] at hmore
      have hcontinuation : ∀ d ∈ tail, IsContinuation d := fun d hd =>
        isContinuation_of_mem_continuation (htail ▸ List.mem_append_right bs hd)
      rw [← htail, List.length_append] at hlong
      rw [← htail, ← hmore, ← List.append_assoc, List.drop_left,
        length_decodeLossy_append_of_isContinuation hcontinuation]
      omega
    · have hlt := ih (mt (between_cons_append_iff hshort).2 h)
      rw [← continuation_append_of_le rest hshort] at hlt ⊢
      rw [List.drop_append_of_le_length hshort]
      omega

/-- **Where a sequence can be read apart.** -/
theorem decodeLossy_append_iff {bytes rest : List UInt8} :
    decodeLossy (bytes ++ rest) = decodeLossy bytes ++ decodeLossy rest ↔
      Between (bytes ++ rest) bytes.length := by
  constructor
  · intro h
    by_contra hinside
    have hlt := length_decodeLossy_append_lt hinside
    rw [h, List.length_append] at hlt
    exact Nat.lt_irrefl _ hlt
  · intro h
    rw [h.decodeLossy_eq, List.take_left, List.drop_left]

theorem length_decodeLossy_append_le (bytes rest : List UInt8) :
    (decodeLossy (bytes ++ rest)).length ≤
      (decodeLossy bytes).length + (decodeLossy rest).length := by
  by_cases h : Between (bytes ++ rest) bytes.length
  · rw [decodeLossy_append_iff.2 h, List.length_append]
  · exact (length_decodeLossy_append_lt h).le

theorem length_decodeLossy_flatten_le (stretches : List (List UInt8)) :
    (decodeLossy stretches.flatten).length ≤ (stretches.flatMap decodeLossy).length := by
  induction stretches with
  | nil => rw [List.flatten_nil, decodeLossy_nil, List.flatMap_nil]
  | cons stretch stretches ih =>
    rw [List.flatten_cons, List.flatMap_cons, List.length_append]
    exact (length_decodeLossy_append_le stretch stretches.flatten).trans
      (Nat.add_le_add_left ih _)

/-- **A sequence that is cut several times** reads as the whole exactly if each cut lies between two
parts of the whole. -/
theorem flatMap_decodeLossy_eq_iff {stretches : List (List UInt8)} :
    stretches.flatMap decodeLossy = decodeLossy stretches.flatten ↔
      ∀ k, Between stretches.flatten (stretches.take k).flatten.length := by
  induction stretches with
  | nil =>
    refine iff_of_true (by rw [List.flatMap_nil, List.flatten_nil, decodeLossy_nil]) fun k => ?_
    rw [List.take_nil]
    exact .zero _
  | cons stretch stretches ih =>
    rw [List.flatMap_cons, List.flatten_cons]
    have hlater (hfirst : Between (stretch ++ stretches.flatten) stretch.length) (k : Nat) :
        Between (stretch ++ stretches.flatten)
            ((stretch :: stretches).take (k + 1)).flatten.length ↔
          Between stretches.flatten (stretches.take k).flatten.length := by
      rw [List.take_succ_cons, List.flatten_cons, List.length_append, hfirst.add_iff,
        List.drop_left]
    constructor
    · intro h k
      have hfirst : Between (stretch ++ stretches.flatten) stretch.length := by
        by_contra hinside
        have hlt := length_decodeLossy_append_lt hinside
        rw [← h, List.length_append] at hlt
        have hle := length_decodeLossy_flatten_le stretches
        omega
      rw [decodeLossy_append_iff.2 hfirst, List.append_cancel_left_eq] at h
      cases k with
      | zero => exact .zero _
      | succ k => exact (hlater hfirst k).2 (ih.1 h k)
    · intro h
      have hfirst : Between (stretch ++ stretches.flatten) stretch.length := by
        have hone := h 1
        rwa [List.take_succ_cons, List.take_zero, List.flatten_singleton] at hone
      rw [decodeLossy_append_iff.2 hfirst, ih.2 fun k => (hlater hfirst k).1 (h (k + 1))]

/-! ## Two ways to know an offset -/

/-- **In front of a byte that continues no character** a part begins, whatever came before. -/
theorem between_of_not_isContinuation {b : UInt8} (h : ¬ IsContinuation b)
    (before rest : List UInt8) : Between (before ++ b :: rest) before.length := by
  fun_induction decodeLossy before with
  | case1 => exact .zero _
  | case2 a before ih =>
    refine (between_cons_append_iff ?_).2 ih
    by_contra hlt
    -- else the part that `a` opens would take the byte
    have htakes := continuation_prefix_tail a (before ++ b :: rest)
    have hupto : before ++ [b] <+: before ++ b :: rest := ⟨rest, by rw [List.append_assoc]; rfl⟩
    have hlength : (before ++ [b]).length ≤ (continuation a (before ++ b :: rest)).length := by
      rw [List.length_append, List.length_singleton]
      omega
    obtain ⟨tail, htail⟩ := List.prefix_of_prefix_length_le hupto htakes hlength
    have hmem : b ∈ continuation a (before ++ b :: rest) := by
      rw [← htail]
      exact List.mem_append_left _ (List.mem_append_right _ (List.mem_singleton_self b))
    exact h (isContinuation_of_mem_continuation hmem)

/-- **A character is read back**, whatever stands in front of it and behind it. -/
theorem decodeLossy_append_utf8EncodeChar_append (before rest : List UInt8) (c : Char) :
    decodeLossy (before ++ String.utf8EncodeChar c ++ rest) =
      decodeLossy before ++ c :: decodeLossy rest := by
  obtain ⟨b, tail, hc, hb, -⟩ := exists_utf8EncodeChar_eq c
  have hleads : ¬ IsContinuation b := by
    intro h
    rw [announced?_eq_none_of_isContinuation h] at hb
    exact nomatch hb
  have hbetween := between_of_not_isContinuation hleads before (tail ++ rest)
  rw [← List.cons_append, ← hc] at hbetween
  rw [List.append_assoc, decodeLossy_append_iff.2 hbetween, decodeLossy_utf8EncodeChar_append]

/-- The first byte of a sequence of complete shape is a lead byte, or a continuation byte that was
owed. -/
theorem shapeFrom_cons_cases {owed : Nat} {b : UInt8} {bs : List UInt8}
    (h : shapeFrom owed (b :: bs) = .complete) :
    (∃ n, owed = 0 ∧ announced? b = some n ∧ shapeFrom n bs = .complete) ∨
      ∃ n, owed = n + 1 ∧ IsContinuation b ∧ shapeFrom n bs = .complete := by
  cases owed with
  | zero =>
    cases hb : announced? b with
    | none =>
      simp only [shapeFrom, hb] at h
      exact absurd h (by decide)
    | some n =>
      simp only [shapeFrom, hb] at h
      exact Or.inl ⟨n, rfl, rfl, h⟩
  | succ n =>
    by_cases hb : IsContinuation b
    · rw [shapeFrom_succ_cons, if_pos hb] at h
      exact Or.inr ⟨n, rfl, hb, h⟩
    · rw [shapeFrom_succ_cons, if_neg hb] at h
      exact absurd h (by decide)

/-- The scan goes on behind continuation bytes that were owed. -/
theorem shapeFrom_drop {k owed : Nat} {bytes : List UInt8}
    (h : shapeFrom owed bytes = .complete) (hk : k ≤ owed) :
    k ≤ bytes.length ∧ shapeFrom (owed - k) (bytes.drop k) = .complete := by
  induction k generalizing owed bytes with
  | zero => exact ⟨Nat.zero_le _, h⟩
  | succ k ih =>
    obtain ⟨n, rfl⟩ : ∃ n, owed = n + 1 := ⟨owed - 1, by omega⟩
    cases bytes with
    | nil => exact absurd h (by rw [shapeFrom_succ_nil]; decide)
    | cons d bytes =>
      rcases shapeFrom_cons_cases h with ⟨_, howed, -⟩ | ⟨n', howed, -, hrest⟩
      · exact absurd howed (Nat.succ_ne_zero n)
      · obtain rfl := Nat.succ.inj howed
        obtain ⟨hle, hshape⟩ := ih hrest (Nat.le_of_succ_le_succ hk)
        rw [Nat.add_sub_add_right, List.drop_succ_cons]
        exact ⟨Nat.succ_le_succ hle, hshape⟩

/-- What is left of bytes of complete shape behind the first part of the strict reading is, for some
number of continuation bytes owed, of complete shape again. -/
theorem exists_shapeFrom_drop_continuation {owed : Nat} {b : UInt8} {bs : List UInt8}
    (h : shapeFrom owed (b :: bs) = .complete) (rest : List UInt8) :
    (continuation b (bs ++ rest)).length ≤ bs.length ∧
      ∃ owed', shapeFrom owed' (bs.drop (continuation b (bs ++ rest)).length) = .complete := by
  have hle := length_continuation_le b (bs ++ rest)
  rcases shapeFrom_cons_cases h with ⟨n, -, hb, hrest⟩ | ⟨n, -, hb, hrest⟩
  · obtain ⟨hlength, hshape⟩ := shapeFrom_drop hrest (hle.trans (getD_tailLength?_le hb))
    exact ⟨hlength, _, hshape⟩
  · -- a continuation byte takes nothing
    rw [tailLength?_eq_none_of_isContinuation hb, Option.getD_none] at hle
    rw [Nat.le_zero.1 hle]
    exact ⟨Nat.zero_le _, n, hrest⟩

/-- **Behind bytes of complete shape** a part begins, whatever comes after. -/
theorem between_of_shapeFrom_eq_complete {owed : Nat} {bytes : List UInt8}
    (h : shapeFrom owed bytes = .complete) (rest : List UInt8) :
    Between (bytes ++ rest) bytes.length := by
  induction bytes using decodeLossy.induct generalizing owed with
  | case1 => exact .zero _
  | case2 b bs ih =>
    obtain ⟨hle, owed', hshape⟩ := exists_shapeFrom_drop_continuation h rest
    rw [continuation_append_of_le rest hle] at hshape
    exact (between_cons_append_iff hle).2 (ih hshape)

/-- Bytes of complete shape have no part in the shape of what follows them. -/
theorem shapeFrom_append_of_eq_complete {owed : Nat} {bytes : List UInt8}
    (h : shapeFrom owed bytes = .complete) (rest : List UInt8) :
    shapeFrom owed (bytes ++ rest) = shape rest := by
  induction bytes generalizing owed with
  | nil =>
    cases owed with
    | zero => rfl
    | succ n => exact absurd h (by rw [shapeFrom_succ_nil]; decide)
  | cons b bytes ih =>
    rw [List.cons_append]
    rcases shapeFrom_cons_cases h with ⟨n, rfl, hb, hrest⟩ | ⟨n, rfl, hb, hrest⟩
    · simp only [shapeFrom, hb, ih hrest]
    · rw [shapeFrom_succ_cons, if_pos hb, ih hrest]

end Utf8
end LlmSession
