import LlmSession.Json.Reader
import LlmSession.Json.Writer
import LlmSession.Proofs.Json.Numerals

/-!
# Values that are read back

A value on several lines is read back as the value that it was.  The writer and the reader follow
the same cases, and so does the proof: `readValue` on what `indentedChars` writes, with the same for
items and for members beside it.  Two things need a word.

## What follows a value

The reader takes one value from the beginning of a text and leaves the rest.  That the rest is what
was written behind the value holds for all values but one kind: a numeral goes on as long as it can.
So everything is said for a rest that ends a numeral (`Ends`), and behind an item or a member there
is always a comma or a new line, which does.

## Steps

The reader counts its steps down.  A value needs no more of them than it has characters, for every
call that goes one step deeper has left a bracket, a comma or a mark behind.

## Main statements

* `WellSpelled`: the values that can be spelled.
* `WellSpelled.readValue_eq`: such a value is read back from the beginning of a text.
* `WellSpelled.read?_indented`: and from a text of its own.
-/

namespace LlmSession
namespace Json

/-- A value that can be spelled: its numerals are spelled well, and its texts and names are texts,
without half a pair in them. -/
inductive WellSpelled : Json → Prop where
  | null : WellSpelled .null
  | bool (b : Bool) : WellSpelled (.bool b)
  | number {n : Numeral} (h : n.WellSpelled) : WellSpelled (.number n)
  | text (s : String) : WellSpelled (ofString s)
  | array {items : List Json} (h : ∀ v ∈ items, WellSpelled v) : WellSpelled (.array items)
  | object {fields : List (String × Json)} (h : ∀ f ∈ fields, WellSpelled f.2) :
    WellSpelled (ofFields fields)

theorem wellSpelled_ofNat (n : Nat) : (ofNat n).WellSpelled := .number (Numeral.wellSpelled_ofNat n)

theorem wellSpelled_ofInt (n : Int) : (ofInt n).WellSpelled := .number (Numeral.wellSpelled_ofInt n)

/-! ## Blanks -/

theorem skipBlanks_append {blanks cs : List Char} (h : ∀ c ∈ blanks, isBlankChar c = true) :
    skipBlanks (blanks ++ cs) = skipBlanks cs :=
  List.dropWhile_append_of_pos h

theorem skipBlanks_cons {c : Char} {cs : List Char} (h : isBlankChar c = false) :
    skipBlanks (c :: cs) = c :: cs :=
  List.dropWhile_cons_of_neg (by rw [h]; exact Bool.false_ne_true)

theorem isBlankChar_of_mem_newLine {level : Nat} {c : Char} (h : c ∈ newLine level) :
    isBlankChar c = true := by
  rcases List.mem_cons.1 h with rfl | hspace
  · rfl
  · rw [List.eq_of_mem_replicate hspace]
    rfl

theorem skipBlanks_newLine (level : Nat) (cs : List Char) :
    skipBlanks (newLine level ++ cs) = skipBlanks cs :=
  skipBlanks_append fun _ => isBlankChar_of_mem_newLine

/-- A value is read in the same way behind some blanks. -/
theorem readValue_append {blanks : List Char} (h : ∀ c ∈ blanks, isBlankChar c = true) (steps : Nat)
    (cs : List Char) : readValue steps (blanks ++ cs) = readValue steps cs := by
  cases steps with
  | zero => simp only [readValue]
  | succ steps => simp only [readValue, skipBlanks_append h]

theorem readValue_newLine (steps level : Nat) (cs : List Char) :
    readValue steps (newLine level ++ cs) = readValue steps cs :=
  readValue_append (fun _ => isBlankChar_of_mem_newLine) steps cs

/-! ## Where a value begins, and what comes after it -/

/-- A value begins neither with a blank nor with a closing bracket. -/
theorem WellSpelled.exists_indentedChars_eq {v : Json} (h : v.WellSpelled) (level : Nat) :
    ∃ c cs, indentedChars level v = c :: cs ∧ isBlankChar c = false ∧ c ≠ ']' := by
  cases h with
  | null => exact ⟨'n', _, rfl, rfl, by decide⟩
  | bool b =>
    cases b with
    | false => exact ⟨'f', _, rfl, rfl, by decide⟩
    | true => exact ⟨'t', _, rfl, rfl, by decide⟩
  | @number n h =>
    obtain ⟨c, cs, hchars, hfirst⟩ := h.exists_chars_eq
    refine ⟨c, cs, hchars, ?_⟩
    rcases hfirst with rfl | hdigit
    · decide
    · have hblank : isBlankChar c = true → False := by
        simp only [isBlankChar, Bool.or_eq_true, decide_eq_true_eq]
        rintro (((rfl | rfl) | rfl) | rfl) <;> exact absurd hdigit (by decide)
      refine ⟨Bool.eq_false_iff.2 hblank, ?_⟩
      rintro rfl
      exact absurd hdigit (by decide)
  | text s => exact ⟨'"', _, rfl, rfl, by decide⟩
  | @array items h =>
    cases items with
    | nil => exact ⟨'[', _, rfl, rfl, by decide⟩
    | cons item items => exact ⟨'[', _, rfl, rfl, by decide⟩
  | @object fields h =>
    cases fields with
    | nil => exact ⟨'\x7b', _, rfl, rfl, by decide⟩
    | cons field fields => exact ⟨'\x7b', _, rfl, rfl, by decide⟩

theorem ends_indentedItems (level : Nat) (items : List Json) (rest : List Char) :
    Ends (indentedItems level items ++ rest) := by
  cases items with
  | nil => exact ends_cons (by decide)
  | cons item items => exact ends_cons (by decide)

theorem ends_indentedMembers (level : Nat) (members : List (List TextUnit × Json))
    (rest : List Char) : Ends (indentedMembers level members ++ rest) := by
  cases members with
  | nil => exact ends_cons (by decide)
  | cons member members => exact ends_cons (by decide)

/-! ## One step of the reader -/

theorem readValue_text {steps : Nat} (s : String) (rest : List Char) :
    readValue (steps + 1) (quoted (unitsOf s) ++ rest) = some (.text (unitsOf s), rest) := by
  have hread := readQuoted_quoted s rest
  show readValue (steps + 1) ('"' :: ((quoted (unitsOf s)).tail ++ rest)) = _
  simp only [readValue, skipBlanks_cons (show isBlankChar '"' = false from rfl), hread]

/-- A value that begins with a minus or with a digit is a numeral. -/
theorem readValue_numeral {steps : Nat} {c : Char} {cs : List Char}
    (h : c = '-' ∨ c.isDigit = true) {n : Numeral} {rest : List Char}
    (hread : readNumeral (c :: cs) = some (n, rest)) :
    readValue (steps + 1) (c :: cs) = some (.number n, rest) := by
  have hnot : ∀ c', c'.isDigit = false → c' ≠ '-' → c ≠ c' := by
    rintro c' hdigit hminus rfl
    rcases h with hc | hc
    · exact hminus hc
    · rw [hdigit] at hc
      exact nomatch hc
  have hblank : isBlankChar c = false := by
    simp only [isBlankChar, Bool.or_eq_false_iff, decide_eq_false_iff_not]
    exact ⟨⟨⟨hnot _ rfl (by decide), hnot _ rfl (by decide)⟩, hnot _ rfl (by decide)⟩,
      hnot _ rfl (by decide)⟩
  unfold readValue
  rw [skipBlanks_cons hblank]
  split
  · next heq => exact absurd (List.cons.inj heq).1 (hnot 'n' rfl (by decide))
  · next heq => exact absurd (List.cons.inj heq).1 (hnot 't' rfl (by decide))
  · next heq => exact absurd (List.cons.inj heq).1 (hnot 'f' rfl (by decide))
  · next heq => exact absurd (List.cons.inj heq).1 (hnot '"' rfl (by decide))
  · next heq => exact absurd (List.cons.inj heq).1 (hnot '[' rfl (by decide))
  · next heq => exact absurd (List.cons.inj heq).1 (hnot '\x7b' rfl (by decide))
  · rw [hread]

theorem readValue_items {steps : Nat} {cs rest rest' : List Char} {item : Json} {items : List Json}
    (hfirst : ∀ cs', skipBlanks cs ≠ ']' :: cs') (hitem : readValue steps cs = some (item, rest))
    (hitems : readItems steps rest = some (items, rest')) :
    readValue (steps + 1) ('[' :: cs) = some (.array (item :: items), rest') := by
  -- the case of the empty list is left out because of `hfirst`
  simp only [readValue, skipBlanks_cons (show isBlankChar '[' = false from rfl), hitem, hitems]

theorem readValue_members {steps : Nat} {cs rest rest' : List Char} {member : List TextUnit × Json}
    {members : List (List TextUnit × Json)} (hfirst : ∀ cs', skipBlanks cs ≠ '\x7d' :: cs')
    (hmember : readMember steps cs = some (member, rest))
    (hmembers : readMembers steps rest = some (members, rest')) :
    readValue (steps + 1) ('\x7b' :: cs) = some (.object (member :: members), rest') := by
  simp only [readValue, skipBlanks_cons (show isBlankChar '\x7b' = false from rfl), hmember,
    hmembers]

/-! ## Items and members -/

/-- The value is read back from a text that begins with it. -/
def IsReadBack (v : Json) : Prop :=
  ∀ (level steps : Nat) (rest : List Char), (indentedChars level v).length ≤ steps → Ends rest →
    readValue steps (indentedChars level v ++ rest) = some (v, rest)

/-- **The items of a list** are read back, if each of them is. -/
theorem readItems_indentedItems {items : List Json} (h : ∀ v ∈ items, v.IsReadBack)
    {level steps : Nat} (rest : List Char) (hsteps : (indentedItems level items).length ≤ steps) :
    readItems steps (indentedItems level items ++ rest) = some (items, rest) := by
  induction items generalizing steps with
  | nil =>
    cases steps with
    | zero => exact nomatch hsteps
    | succ steps =>
      have hskip : skipBlanks (indentedItems level [] ++ rest) = ']' :: rest := by
        rw [indentedItems, List.append_assoc, skipBlanks_newLine]
        rfl
      simp only [readItems, hskip]
  | cons item items ih =>
    obtain ⟨hitem, hitems⟩ := List.forall_mem_cons.1 h
    cases steps with
    | zero => exact nomatch hsteps
    | succ steps =>
      rw [indentedItems, List.length_cons, List.length_append, List.length_append] at hsteps
      have hread : readValue steps (newLine (level + 1) ++ indentedChars (level + 1) item ++
          indentedItems level items ++ rest) = some (item, indentedItems level items ++ rest) := by
        rw [List.append_assoc, List.append_assoc, readValue_newLine]
        exact hitem _ _ _ (by omega) (ends_indentedItems level items rest)
      have hrest : readItems steps (indentedItems level items ++ rest) = some (items, rest) :=
        ih hitems (by omega)
      rw [indentedItems, List.cons_append, readItems,
        skipBlanks_cons (show isBlankChar ',' = false from rfl)]
      simp only [hread, hrest]

theorem readMember_indented {v : Json} (h : v.IsReadBack) (name : String)
    {level steps : Nat} {rest : List Char} (hrest : Ends rest)
    (hsteps : (indentedChars (level + 1) v).length < steps) :
    readMember steps (newLine (level + 1) ++ (quoted (unitsOf name) ++ ':' :: ' ' ::
      (indentedChars (level + 1) v ++ rest))) = some ((unitsOf name, v), rest) := by
  cases steps with
  | zero => exact nomatch hsteps
  | succ steps =>
    have hname := readQuoted_quoted name (':' :: ' ' :: (indentedChars (level + 1) v ++ rest))
    have hskip : skipBlanks (newLine (level + 1) ++ (quoted (unitsOf name) ++ ':' :: ' ' ::
        (indentedChars (level + 1) v ++ rest))) = '"' :: ((quoted (unitsOf name)).tail ++
          ':' :: ' ' :: (indentedChars (level + 1) v ++ rest)) := by
      rw [skipBlanks_newLine]
      exact skipBlanks_cons rfl
    have hvalue : readValue steps (' ' :: (indentedChars (level + 1) v ++ rest)) = some (v, rest) :=
      (readValue_append (List.forall_mem_singleton.2 (show isBlankChar ' ' = true from rfl))
        steps _).trans (h _ _ _ (Nat.le_of_lt_succ hsteps) hrest)
    simp only [readMember, hskip, hname, skipBlanks_cons (show isBlankChar ':' = false from rfl),
      hvalue]

/-- **The members of an object** are read back, if each of their values is. -/
theorem readMembers_indentedMembers {fields : List (String × Json)}
    (h : ∀ f ∈ fields, f.2.IsReadBack) {level steps : Nat} (rest : List Char)
    (hsteps : (indentedMembers level (fields.map fun f => (unitsOf f.1, f.2))).length ≤ steps) :
    readMembers steps (indentedMembers level (fields.map fun f => (unitsOf f.1, f.2)) ++ rest) =
      some (fields.map fun f => (unitsOf f.1, f.2), rest) := by
  induction fields generalizing steps with
  | nil =>
    cases steps with
    | zero => exact nomatch hsteps
    | succ steps =>
      have hskip : skipBlanks (indentedMembers level [] ++ rest) = '\x7d' :: rest := by
        rw [indentedMembers, List.append_assoc, skipBlanks_newLine]
        rfl
      simp only [List.map_nil, readMembers, hskip]
  | cons field fields ih =>
    obtain ⟨hfield, hfields⟩ := List.forall_mem_cons.1 h
    cases steps with
    | zero => exact nomatch hsteps
    | succ steps =>
      rw [List.map_cons, indentedMembers] at hsteps ⊢
      simp only [List.length_cons, List.length_append] at hsteps
      have hread := readMember_indented hfield field.1
        (ends_indentedMembers level (fields.map fun f => (unitsOf f.1, f.2)) rest)
        (show (indentedChars (level + 1) field.2).length < steps by omega)
      have hrest : readMembers steps (indentedMembers level (fields.map fun f =>
          (unitsOf f.1, f.2)) ++ rest) = some (fields.map fun f => (unitsOf f.1, f.2), rest) :=
        ih hfields (by omega)
      rw [List.cons_append, readMembers, skipBlanks_cons (show isBlankChar ',' = false from rfl)]
      simp only [List.append_assoc, List.cons_append, hread, hrest]

/-! ## All values -/

/-- **A value is read back** from the beginning of a text. -/
theorem WellSpelled.readValue_eq {v : Json} (h : v.WellSpelled) : v.IsReadBack := by
  induction h with
  | null =>
    intro level steps rest hsteps hrest
    cases steps with
    | zero => exact nomatch hsteps
    | succ steps => simp [indentedChars, nullChars, readValue, skipBlanks, isBlankChar]
  | bool b =>
    intro level steps rest hsteps hrest
    cases steps with
    | zero => cases b <;> exact nomatch hsteps
    | succ steps =>
      cases b <;> simp [indentedChars, boolChars, readValue, skipBlanks, isBlankChar]
  | @number n h =>
    intro level steps rest hsteps hrest
    obtain ⟨c, cs, hchars, hfirst⟩ := h.exists_chars_eq
    have hread := readNumeral_chars h hrest
    rw [indentedChars, hchars] at hsteps ⊢
    rw [hchars] at hread
    cases steps with
    | zero => exact nomatch hsteps
    | succ steps => exact readValue_numeral hfirst hread
  | text s =>
    intro level steps rest hsteps hrest
    cases steps with
    | zero => exact nomatch hsteps
    | succ steps => exact readValue_text s rest
  | @array items h ih =>
    intro level steps rest hsteps hrest
    cases steps with
    | zero => cases items <;> exact nomatch hsteps
    | succ steps =>
      cases items with
      | nil => simp [indentedChars, readValue, skipBlanks, isBlankChar]
      | cons item items =>
        obtain ⟨hitem, hitems⟩ := List.forall_mem_cons.1 ih
        obtain ⟨c, cs, hchars, hblank, hbracket⟩ :=
          (h item List.mem_cons_self).exists_indentedChars_eq (level + 1)
        rw [indentedChars] at hsteps ⊢
        simp only [List.length_cons, List.length_append] at hsteps
        rw [List.cons_append, List.append_assoc, List.append_assoc]
        have hread : readValue steps (newLine (level + 1) ++ (indentedChars (level + 1) item ++
            (indentedItems level items ++ rest))) =
              some (item, indentedItems level items ++ rest) := by
          rw [readValue_newLine]
          exact hitem _ _ _ (by omega) (ends_indentedItems level items rest)
        refine readValue_items ?_ hread (readItems_indentedItems hitems rest (by omega))
        intro cs' hskip
        rw [skipBlanks_newLine, hchars, List.cons_append, skipBlanks_cons hblank] at hskip
        exact hbracket (List.cons.inj hskip).1
  | @object fields h ih =>
    intro level steps rest hsteps hrest
    cases steps with
    | zero => cases fields <;> exact nomatch hsteps
    | succ steps =>
      cases fields with
      | nil => simp [ofFields, indentedChars, readValue, skipBlanks, isBlankChar]
      | cons field fields =>
        obtain ⟨hfield, hfields⟩ := List.forall_mem_cons.1 ih
        rw [ofFields, List.map_cons, indentedChars] at hsteps ⊢
        simp only [List.length_cons, List.length_append] at hsteps
        simp only [List.cons_append, List.append_assoc]
        refine readValue_members ?_ (readMember_indented hfield field.1
          (ends_indentedMembers level _ rest) (by omega))
          (readMembers_indentedMembers hfields rest (by omega))
        intro cs' hskip
        rw [skipBlanks_newLine] at hskip
        exact nomatch hskip

/-- **A value is read back** from a text of its own. -/
theorem WellSpelled.read?_indented {v : Json} (h : v.WellSpelled) : read? v.indented = some v := by
  have hread := h.readValue_eq 0 (v.indented.toList.length + 1) [] ?_ ends_nil
  · rw [List.append_nil] at hread
    unfold read?
    simp only [indented, String.toList_ofList] at hread ⊢
    simp only [hread, skipBlanks, List.dropWhile_nil, List.isEmpty_nil, if_true]
  · rw [indented, String.toList_ofList]
    exact Nat.le_succ _

end Json
end LlmSession
