import LlmSession.Proofs.Text.Reading

/-!
# The grammar of complete shapes

`Utf8.shape` is a machine that remembers how many continuation bytes are owed.  Here is the grammar
of what it takes.  A *shaped* character is a lead byte with as many continuation bytes as it
announces, and a row is any number of shaped characters, one after the other.  The code points do
not come into it: a shaped character may be overlong, or a surrogate, and stand for nothing.

## Why there are three answers

A row can be taken apart in one way only (`Shaped.eq_of_flatten_eq`), since the lead byte tells
where its character ends.  So a scan that takes one character after the other off a sequence has no
choice, and it stops in one of three ways: at the end, inside a character that the sequence does not
finish, or at a byte that cannot stand where it stands.  That these are all (`exists_row_append`) is
the heart of the matter, for the three exclude each other.

The third answer is final.  What makes a sequence malformed is still there in every longer one, and
an unfinished character can always be finished; so a sequence is malformed exactly if no longer one
is complete.

## Main definitions

* `Leads`, `Continues`: the two kinds of bytes.
* `Shaped`, `IsRow`, `IsCutRow`: the grammar.

## Main statements

* `Shaped.eq_of_flatten_eq`: a row has one decomposition.
* `exists_row_append`: what is left of a sequence behind its row.
* `shape_decides_rows`: what each answer of the scan says.
-/

namespace LlmSession
namespace Utf8

/-! ## Bytes -/

/-- A lead byte, and the number of bytes that it announces, itself among them. -/
inductive Leads : UInt8 → Nat → Prop where
  /-- The form `0xxxxxxx`. -/
  | one {b : UInt8} (hhi : b < 0x80) : Leads b 1
  /-- The form `110xxxxx`. -/
  | two {b : UInt8} (hlo : 0xC0 ≤ b) (hhi : b < 0xE0) : Leads b 2
  /-- The form `1110xxxx`. -/
  | three {b : UInt8} (hlo : 0xE0 ≤ b) (hhi : b < 0xF0) : Leads b 3
  /-- The form `11110xxx`. -/
  | four {b : UInt8} (hlo : 0xF0 ≤ b) (hhi : b < 0xF8) : Leads b 4

/-- A byte of the form `10xxxxxx`. -/
def Continues (b : UInt8) : Prop := 0x80 ≤ b ∧ b < 0xC0

instance (b : UInt8) : Decidable (Continues b) :=
  inferInstanceAs (Decidable (0x80 ≤ b ∧ b < 0xC0))

/-- The scan knows continuation bytes by their form. -/
theorem isContinuation_iff_continues {b : UInt8} : IsContinuation b ↔ Continues b :=
  forall_byte (P := fun b => IsContinuation b ↔ Continues b) (by decide +kernel) b

/-- What the scan finds announced is what a lead byte announces. -/
theorem announced?_eq_some_iff {b : UInt8} {n : Nat} :
    announced? b = some n ↔ Leads b (n + 1) := by
  constructor
  · intro h
    -- the bits that the scan looks at fix the range
    obtain ⟨hone, htwo, hthree, hfour⟩ :=
      forall_byte (P := fun b => (b &&& 0x80 = 0x00 → b < 0x80) ∧
        (b &&& 0xE0 = 0xC0 → 0xC0 ≤ b ∧ b < 0xE0) ∧ (b &&& 0xF0 = 0xE0 → 0xE0 ≤ b ∧ b < 0xF0) ∧
        (b &&& 0xF8 = 0xF0 → 0xF0 ≤ b ∧ b < 0xF8)) (by decide +kernel) b
    unfold announced? at h
    split_ifs at h with h₁ h₂ h₃ h₄
    · cases h
      exact .one (hone h₁)
    · cases h
      exact .two (htwo h₂).1 (htwo h₂).2
    · cases h
      exact .three (hthree h₃).1 (hthree h₃).2
    · cases h
      exact .four (hfour h₄).1 (hfour h₄).2
  · intro h
    cases h with
    | one hhi =>
      exact forall_byte (P := fun b => b < 0x80 → announced? b = some 0) (by decide +kernel) b hhi
    | two hlo hhi =>
      exact forall_byte (P := fun b => 0xC0 ≤ b → b < 0xE0 → announced? b = some 1)
        (by decide +kernel) b hlo hhi
    | three hlo hhi =>
      exact forall_byte (P := fun b => 0xE0 ≤ b → b < 0xF0 → announced? b = some 2)
        (by decide +kernel) b hlo hhi
    | four hlo hhi =>
      exact forall_byte (P := fun b => 0xF0 ≤ b → b < 0xF8 → announced? b = some 3)
        (by decide +kernel) b hlo hhi

/-! ## Shaped characters -/

/-- A character by its shape: a lead byte, and the continuation bytes that it announces. -/
inductive Shaped : List UInt8 → Prop where
  | mk {b : UInt8} {tail : List UInt8} (hlead : Leads b (tail.length + 1))
    (htail : ∀ d ∈ tail, Continues d) : Shaped (b :: tail)

theorem shaped_cons_iff {b : UInt8} {tail : List UInt8} :
    Shaped (b :: tail) ↔ Leads b (tail.length + 1) ∧ ∀ d ∈ tail, Continues d :=
  ⟨fun ⟨hlead, htail⟩ => ⟨hlead, htail⟩, fun ⟨hlead, htail⟩ => .mk hlead htail⟩

/-- A row of shaped characters. -/
def IsRow (bytes : List UInt8) : Prop :=
  ∃ chars : List (List UInt8), (∀ char ∈ chars, Shaped char) ∧ chars.flatten = bytes

/-- A row, and behind it some of the bytes of one more shaped character, but not all. -/
def IsCutRow (bytes : List UInt8) : Prop :=
  ∃ row part rest, IsRow row ∧ part ≠ [] ∧ rest ≠ [] ∧ Shaped (part ++ rest) ∧ row ++ part = bytes

theorem isRow_nil : IsRow [] := ⟨[], nofun, rfl⟩

theorem IsRow.cons {char row : List UInt8} (hchar : Shaped char) (hrow : IsRow row) :
    IsRow (char ++ row) := by
  obtain ⟨chars, hchars, rfl⟩ := hrow
  exact ⟨char :: chars, List.forall_mem_cons.2 ⟨hchar, hchars⟩, List.flatten_cons⟩

theorem IsRow.append {row row' : List UInt8} (h : IsRow row) (h' : IsRow row') :
    IsRow (row ++ row') := by
  obtain ⟨chars, hchars, rfl⟩ := h
  obtain ⟨chars', hchars', rfl⟩ := h'
  exact ⟨chars ++ chars', List.forall_mem_append.2 ⟨hchars, hchars'⟩, List.flatten_append⟩

namespace Shaped

variable {char char' : List UInt8}

theorem ne_nil (h : Shaped char) : char ≠ [] := by
  cases h
  exact List.cons_ne_nil _ _

theorem isRow (h : Shaped char) : IsRow char :=
  ⟨[char], List.forall_mem_singleton.2 h, List.flatten_singleton⟩

/-- The lead byte tells where the character ends. -/
theorem append_inj {rest rest' : List UInt8} (h : Shaped char) (h' : Shaped char')
    (heq : char ++ rest = char' ++ rest') : char = char' ∧ rest = rest' := by
  cases h with
  | @mk b tail hlead _ =>
    cases h' with
    | @mk b' tail' hlead' _ =>
      obtain ⟨rfl, -⟩ := List.cons.inj heq
      have hlength : tail.length = tail'.length := by
        rw [← announced?_eq_some_iff] at hlead hlead'
        exact Option.some.inj (hlead.symm.trans hlead')
      exact List.append_inj heq (congrArg (· + 1) hlength)

/-- **A row has one decomposition.** -/
theorem eq_of_flatten_eq {chars chars' : List (List UInt8)} (h : ∀ char ∈ chars, Shaped char)
    (h' : ∀ char ∈ chars', Shaped char) (heq : chars.flatten = chars'.flatten) :
    chars = chars' := by
  induction chars generalizing chars' with
  | nil =>
    cases chars' with
    | nil => rfl
    | cons char' chars' =>
      rw [List.flatten_nil, List.flatten_cons] at heq
      exact absurd (List.append_eq_nil_iff.1 heq.symm).1 (h' char' List.mem_cons_self).ne_nil
  | cons char chars ih =>
    obtain ⟨hchar, hchars⟩ := List.forall_mem_cons.1 h
    cases chars' with
    | nil =>
      rw [List.flatten_nil, List.flatten_cons] at heq
      exact absurd (List.append_eq_nil_iff.1 heq).1 hchar.ne_nil
    | cons char' chars' =>
      obtain ⟨hchar', hchars'⟩ := List.forall_mem_cons.1 h'
      rw [List.flatten_cons, List.flatten_cons] at heq
      obtain ⟨rfl, hrest⟩ := hchar.append_inj hchar' heq
      rw [ih hchars hchars' hrest]

/-! ## The scan of a row -/

/-- A shaped character has no part in the shape of what follows it. -/
theorem shape_append (h : Shaped char) (rest : List UInt8) : shape (char ++ rest) = shape rest := by
  cases h with
  | mk hlead htail =>
    rw [shape_cons_append (announced?_eq_some_iff.2 hlead) le_rfl
      fun d hd => isContinuation_iff_continues.2 (htail d hd), Nat.sub_self]
    rfl

/-- Some of the bytes of a shaped character, but not all, are incomplete. -/
theorem shape_part {part rest : List UInt8} (h : Shaped (part ++ rest)) (hpart : part ≠ [])
    (hrest : rest ≠ []) : shape part = .incomplete := by
  obtain ⟨b, tail, rfl⟩ := List.exists_cons_of_ne_nil hpart
  rw [List.cons_append, shaped_cons_iff, List.length_append, ← announced?_eq_some_iff] at h
  obtain ⟨hlead, htail⟩ := h
  have hshape : shape (b :: tail ++ []) = shapeFrom (tail.length + rest.length - tail.length) [] :=
    shape_cons_append hlead (Nat.le_add_right _ _)
      fun d hd => isContinuation_iff_continues.2 (htail d (List.mem_append_left rest hd))
  obtain ⟨n, hn⟩ := Nat.exists_eq_add_one.2 (List.length_pos_iff.2 hrest)
  rw [← List.append_nil (b :: tail), hshape, Nat.add_sub_cancel_left, hn, shapeFrom_succ_nil]

end Shaped

theorem IsRow.shape_append {row : List UInt8} (h : IsRow row) (rest : List UInt8) :
    shape (row ++ rest) = shape rest := by
  obtain ⟨chars, hchars, rfl⟩ := h
  induction chars with
  | nil => rfl
  | cons char chars ih =>
    obtain ⟨hchar, hchars⟩ := List.forall_mem_cons.1 hchars
    rw [List.flatten_cons, List.append_assoc, hchar.shape_append, ih hchars]

theorem IsRow.shape_eq {row : List UInt8} (h : IsRow row) : shape row = .complete := by
  have hshape := h.shape_append []
  rwa [List.append_nil] at hshape

theorem IsCutRow.shape_eq {bytes : List UInt8} (h : IsCutRow bytes) :
    shape bytes = .incomplete := by
  obtain ⟨row, part, rest, hrow, hpart, hrest, hchar, rfl⟩ := h
  rw [hrow.shape_append, hchar.shape_part hpart hrest]

/-! ## The scan of any sequence -/

/-- Where so many continuation bytes are owed, they are there, or the sequence ends before, or a
byte stands among them that is none. -/
theorem shapeFrom_owed_cases (owed : Nat) (bytes : List UInt8) :
    (∃ tail rest, tail.length = owed ∧ (∀ d ∈ tail, Continues d) ∧ bytes = tail ++ rest) ∨
      (bytes.length < owed ∧ ∀ d ∈ bytes, Continues d) ∨ shapeFrom owed bytes = .malformed := by
  induction bytes generalizing owed with
  | nil =>
    cases owed with
    | zero => exact Or.inl ⟨[], [], rfl, nofun, rfl⟩
    | succ n => exact Or.inr (Or.inl ⟨Nat.succ_pos n, nofun⟩)
  | cons b bytes ih =>
    cases owed with
    | zero => exact Or.inl ⟨[], b :: bytes, rfl, nofun, rfl⟩
    | succ n =>
      by_cases hb : IsContinuation b
      · have hb' := isContinuation_iff_continues.1 hb
        rw [shapeFrom_succ_cons, if_pos hb]
        rcases ih n with ⟨tail, rest, hlength, htail, rfl⟩ | ⟨hlength, hall⟩ | hmalformed
        · exact Or.inl ⟨b :: tail, rest, congrArg (· + 1) hlength,
            List.forall_mem_cons.2 ⟨hb', htail⟩, rfl⟩
        · exact Or.inr (Or.inl ⟨Nat.succ_lt_succ hlength, List.forall_mem_cons.2 ⟨hb', hall⟩⟩)
        · exact Or.inr (Or.inr hmalformed)
      · rw [shapeFrom_succ_cons, if_neg hb]
        exact Or.inr (Or.inr rfl)

/-- A lead byte has as many continuation bytes in the grammar as the scan can ask for. -/
theorem exists_shaped_of_leads {b : UInt8} {n : Nat} (hlead : Leads b (n + 1)) {tail : List UInt8}
    (hlength : tail.length ≤ n) (htail : ∀ d ∈ tail, Continues d) :
    ∃ rest, rest.length = n - tail.length ∧ Shaped (b :: tail ++ rest) := by
  refine ⟨List.replicate (n - tail.length) 0x80, List.length_replicate, ?_⟩
  rw [List.cons_append, shaped_cons_iff]
  constructor
  · rwa [List.length_append, List.length_replicate, Nat.add_sub_cancel' hlength]
  · refine List.forall_mem_append.2 ⟨htail, fun d hd => ?_⟩
    rw [List.eq_of_mem_replicate hd]
    decide

/-- **What is left of a sequence behind its row**: nothing, or some bytes of one more character, or
something malformed. -/
theorem exists_row_append (bytes : List UInt8) :
    ∃ row left, IsRow row ∧ row ++ left = bytes ∧
      (left = [] ∨ (∃ rest, left ≠ [] ∧ rest ≠ [] ∧ Shaped (left ++ rest)) ∨
        shape left = .malformed) := by
  induction hn : bytes.length using Nat.strong_induction_on generalizing bytes with
  | _ n ih =>
    cases bytes with
    | nil => exact ⟨[], [], isRow_nil, rfl, Or.inl rfl⟩
    | cons b bytes =>
      cases hb : announced? b with
      | none =>
        have hshape : shape (b :: bytes) = .malformed := by simp only [shape, shapeFrom, hb]
        exact ⟨[], b :: bytes, isRow_nil, rfl, Or.inr (Or.inr hshape)⟩
      | some k =>
        have hlead := announced?_eq_some_iff.1 hb
        rcases shapeFrom_owed_cases k bytes with ⟨tail, rest, rfl, htail, rfl⟩ | ⟨hlt, hall⟩ | hbad
        · -- a whole character, and the row goes on behind it
          obtain ⟨row, left, hrow, rfl, hleft⟩ := ih rest.length (by
            rw [← hn, List.length_cons, List.length_append]
            omega) rest rfl
          exact ⟨b :: tail ++ row, left, hrow.cons (.mk hlead htail), by simp, hleft⟩
        · obtain ⟨rest, hlength, hchar⟩ := exists_shaped_of_leads hlead hlt.le hall
          have hrest : rest ≠ [] := List.length_pos_iff.1 (by omega)
          exact ⟨[], b :: bytes, isRow_nil, rfl,
            Or.inr (Or.inl ⟨rest, List.cons_ne_nil b bytes, hrest, hchar⟩)⟩
        · have hshape : shape (b :: bytes) = .malformed := by simp only [shape, shapeFrom, hb, hbad]
          exact ⟨[], b :: bytes, isRow_nil, rfl, Or.inr (Or.inr hshape)⟩

/-- **Every sequence** is a row, or a cut row, or malformed. -/
theorem row_cases (bytes : List UInt8) :
    IsRow bytes ∨ IsCutRow bytes ∨ shape bytes = .malformed := by
  obtain ⟨row, left, hrow, rfl, rfl | ⟨rest, hleft, hrest, hchar⟩ | hbad⟩ := exists_row_append bytes
  · rw [List.append_nil]
    exact Or.inl hrow
  · exact Or.inr (Or.inl ⟨row, left, rest, hrow, hleft, hrest, hchar, rfl⟩)
  · rw [hrow.shape_append]
    exact Or.inr (Or.inr hbad)

/-- What makes a sequence malformed is still there in a longer one. -/
theorem shapeFrom_append_of_eq_malformed {owed : Nat} {bytes : List UInt8}
    (h : shapeFrom owed bytes = .malformed) (more : List UInt8) :
    shapeFrom owed (bytes ++ more) = .malformed := by
  induction bytes generalizing owed with
  | nil => cases owed <;> exact nomatch h
  | cons b bytes ih =>
    cases owed with
    | zero =>
      cases hb : announced? b with
      | none => simp only [List.cons_append, shapeFrom, hb]
      | some n =>
        simp only [shapeFrom, hb] at h
        simp only [List.cons_append, shapeFrom, hb, ih h]
    | succ n =>
      rw [List.cons_append, shapeFrom_succ_cons]
      by_cases hb : IsContinuation b
      · rw [shapeFrom_succ_cons, if_pos hb] at h
        rw [if_pos hb, ih h]
      · rw [if_neg hb]

/-- A cut row can be made a row. -/
theorem IsCutRow.exists_append {bytes : List UInt8} (h : IsCutRow bytes) :
    ∃ more, IsRow (bytes ++ more) := by
  obtain ⟨row, part, rest, hrow, -, -, hchar, rfl⟩ := h
  refine ⟨rest, ?_⟩
  rw [List.append_assoc]
  exact hrow.append hchar.isRow

/-- **What the scan answers.**  A sequence is complete exactly if it is a row of shaped characters,
and then it can be taken apart in one way only.  It is incomplete exactly if it is a row and some of
the bytes of one more character, and malformed exactly if it is neither.  The bytes of a text are
complete.  A malformed sequence stays malformed whatever is added to it, and exactly such a sequence
cannot be made complete; so it begins no text. -/
theorem shape_decides_rows (bytes : List UInt8) :
    (shape bytes = .complete ↔ IsRow bytes) ∧ (isComplete bytes = true ↔ IsRow bytes) ∧
    (shape bytes = .incomplete ↔ IsCutRow bytes) ∧
    (shape bytes = .malformed ↔ ¬ IsRow bytes ∧ ¬ IsCutRow bytes) ∧
    (IsRow bytes → ∃! chars : List (List UInt8),
      (∀ char ∈ chars, Shaped char) ∧ chars.flatten = bytes) ∧
    (WellFormed bytes → shape bytes = .complete) ∧
    (shape bytes = .malformed → ∀ more,
      shape (bytes ++ more) = .malformed ∧ ¬ WellFormed (bytes ++ more)) ∧
    (shape bytes = .malformed ↔ ∀ more, shape (bytes ++ more) ≠ .complete) := by
  have hcomplete : shape bytes = .complete ↔ IsRow bytes := by
    refine ⟨fun h => ?_, IsRow.shape_eq⟩
    rcases row_cases bytes with hrow | hcut | hbad
    · exact hrow
    · exact nomatch h.symm.trans hcut.shape_eq
    · exact nomatch h.symm.trans hbad
  have hincomplete : shape bytes = .incomplete ↔ IsCutRow bytes := by
    refine ⟨fun h => ?_, IsCutRow.shape_eq⟩
    rcases row_cases bytes with hrow | hcut | hbad
    · exact nomatch h.symm.trans hrow.shape_eq
    · exact hcut
    · exact nomatch h.symm.trans hbad
  have hstays (h : shape bytes = .malformed) (more : List UInt8) :
      shape (bytes ++ more) = .malformed := shapeFrom_append_of_eq_malformed h more
  refine ⟨hcomplete, decide_eq_true_iff.trans hcomplete, hincomplete, ?_, ?_, WellFormed.shape_eq,
    ?_, ?_⟩
  · rw [← hcomplete, ← hincomplete]
    cases shape bytes <;> decide
  · rintro ⟨chars, hchars, hflatten⟩
    exact ⟨chars, ⟨hchars, hflatten⟩, fun chars' h' =>
      Shaped.eq_of_flatten_eq h'.1 hchars (h'.2.trans hflatten.symm)⟩
  · intro h more
    refine ⟨hstays h more, fun hwell => ?_⟩
    exact nomatch hwell.shape_eq.symm.trans (hstays h more)
  · refine ⟨fun h more hmore => ?_, fun h => ?_⟩
    · exact nomatch hmore.symm.trans (hstays h more)
    rcases row_cases bytes with hrow | hcut | hbad
    · exact absurd hrow.shape_eq (by simpa using h [])
    · obtain ⟨more, hmore⟩ := hcut.exists_append
      exact absurd hmore.shape_eq (h more)
    · exact hbad

end Utf8
end LlmSession
