import LlmSession.Text.Utf8
import Mathlib.Data.List.TakeWhile

/-!
# Well-formed UTF-8

`Utf8.shape` looks at lead bytes only, `Utf8.decodeLossy` reads strictly.  On the bytes of a
text the two agree, and this file is that agreement.

## Characters do not run into each other

The bytes of a character are a lead byte and as many continuation bytes as it announces
(`exists_utf8EncodeChar_eq`), and no continuation byte is a lead byte.  So a scan that starts
between two characters always knows whether it stands between two characters, and from there
three facts follow that everything about streams of bytes hangs on:

* what is left of a well-formed sequence behind well-formed bytes is well-formed
  (`wellFormed_encode_append_iff`);
* a beginning of a well-formed sequence is a text and at most one unfinished character
  (`Completable.exists_split`);
* a text inside a well-formed sequence begins between two characters
  (`WellFormed.of_append_encode`).

## Main definitions

* `WellFormed`: the bytes of a text.
* `Completable`: a beginning of a well-formed sequence.
* `Unfinished`: a part of one character's bytes, from the first one on.
-/

namespace LlmSession
namespace Utf8

/-- The bytes of some text. -/
def WellFormed (bytes : List UInt8) : Prop := ∃ s : String, encode s = bytes

/-- A beginning of a well-formed sequence: its last character may lack bytes. -/
def Completable (bytes : List UInt8) : Prop := ∃ rest, WellFormed (bytes ++ rest)

/-- The first bytes of one character, but not all of them. -/
def Unfinished (bytes : List UInt8) : Prop :=
  bytes ≠ [] ∧ ∃ (c : Char) (rest : List UInt8), rest ≠ [] ∧ String.utf8EncodeChar c = bytes ++ rest

/-! ## The bytes of a text -/

@[simp] theorem encode_empty : encode "" = [] := rfl

@[simp] theorem encode_append (s t : String) : encode (s ++ t) = encode s ++ encode t := by
  simp [encode]

theorem encode_eq_nil_iff {s : String} : encode s = [] ↔ s = "" := by
  rw [encode, List.flatMap_eq_nil_iff]
  constructor
  · intro h
    have hnil : s.toList = [] :=
      List.eq_nil_iff_forall_not_mem.2 fun c hc => String.utf8EncodeChar_ne_nil (h c hc)
    exact String.toList_eq_nil_iff.1 hnil
  · rintro rfl
    simp

theorem wellFormed_encode (s : String) : WellFormed (encode s) := ⟨s, rfl⟩

theorem wellFormed_nil : WellFormed [] := ⟨"", rfl⟩

theorem WellFormed.completable {bytes : List UInt8} (h : WellFormed bytes) : Completable bytes :=
  ⟨[], by rwa [List.append_nil]⟩

/-- A beginning of a beginning is one. -/
theorem Completable.of_prefix {part bytes : List UInt8} (h : Completable bytes)
    (hp : part <+: bytes) : Completable part := by
  obtain ⟨rest, h⟩ := h
  obtain ⟨more, rfl⟩ := hp
  exact ⟨more ++ rest, by rwa [← List.append_assoc]⟩

/-- A shorter beginning of a character is unfinished too. -/
theorem Unfinished.of_prefix {part bytes : List UInt8} (h : Unfinished bytes)
    (hne : part ≠ []) (hp : part <+: bytes) : Unfinished part := by
  obtain ⟨-, c, rest, hrest, hc⟩ := h
  obtain ⟨more, rfl⟩ := hp
  exact ⟨hne, c, more ++ rest, by simp [hrest], by rw [hc, List.append_assoc]⟩

/-! ## The bytes of a character -/

/-- What is true of the bytes one after the other is true of every byte. -/
theorem forall_byte {P : UInt8 → Prop} (h : ∀ n < 256, P (UInt8.ofNat n)) (b : UInt8) : P b := by
  simpa using h b.toNat b.toNat_lt

theorem announced?_one : ∀ k < 0x80, announced? (UInt8.ofNat k) = some 0 := by decide

theorem announced?_two : ∀ k < 0x20, announced? (UInt8.ofNat (k + 0xC0)) = some 1 := by decide

theorem announced?_three : ∀ k < 0x10, announced? (UInt8.ofNat (k + 0xE0)) = some 2 := by decide

theorem announced?_four : ∀ k < 0x08, announced? (UInt8.ofNat (k + 0xF0)) = some 3 := by decide

theorem isContinuation_ofNat : ∀ k < 0x40, IsContinuation (UInt8.ofNat (k + 0x80)) := by decide

/-- No continuation byte leads. -/
theorem announced?_eq_none_of_isContinuation {b : UInt8} (h : IsContinuation b) :
    announced? b = none :=
  forall_byte (P := fun b => IsContinuation b → announced? b = none) (by decide +kernel) b h

/-- **The bytes of a character**: a lead byte, and the continuation bytes that it announces. -/
theorem exists_utf8EncodeChar_eq (c : Char) :
    ∃ b tail, String.utf8EncodeChar c = b :: tail ∧ announced? b = some tail.length ∧
      ∀ d ∈ tail, IsContinuation d := by
  have hk (n : Nat) : IsContinuation (UInt8.ofNat (n % 64 + 128)) :=
    isContinuation_ofNat _ (Nat.mod_lt _ (by decide))
  fun_cases String.utf8EncodeChar c with
  | case1 v h => exact ⟨_, _, rfl, announced?_one _ (by omega), by simp⟩
  | case2 v _ h =>
    refine ⟨_, _, rfl, announced?_two _ (by omega), ?_⟩
    simp only [List.mem_singleton, forall_eq]
    exact hk _
  | case3 v _ _ h =>
    refine ⟨_, _, rfl, announced?_three _ (by omega), ?_⟩
    simp only [List.mem_cons, List.not_mem_nil, or_false, forall_eq_or_imp, forall_eq]
    exact ⟨hk _, hk _⟩
  | case4 v _ _ h =>
    refine ⟨_, _, rfl, announced?_four _ (by omega), ?_⟩
    simp only [List.mem_cons, List.not_mem_nil, or_false, forall_eq_or_imp, forall_eq]
    exact ⟨hk _, hk _, hk _⟩

/-! ## The strict reading of a text -/

/-- Whether `d` can stand right after the lead `b`. -/
def CanFollow (b d : UInt8) : Prop := (secondBounds b).1 ≤ d ∧ d ≤ (secondBounds b).2

instance (b d : UInt8) : Decidable (CanFollow b d) :=
  inferInstanceAs (Decidable ((secondBounds b).1 ≤ d ∧ d ≤ (secondBounds b).2))

theorem strict_one : ∀ k < 0x80,
    tailLength? (UInt8.ofNat k) = some 0 ∧ leadPayload (UInt8.ofNat k) = k := by decide

theorem strict_two : ∀ k < 0x20, 2 ≤ k →
    tailLength? (UInt8.ofNat (k + 0xC0)) = some 1 ∧ leadPayload (UInt8.ofNat (k + 0xC0)) = k := by
  decide

theorem strict_three : ∀ k < 0x10,
    tailLength? (UInt8.ofNat (k + 0xE0)) = some 2 ∧ leadPayload (UInt8.ofNat (k + 0xE0)) = k := by
  decide

theorem strict_four : ∀ k < 0x05,
    tailLength? (UInt8.ofNat (k + 0xF0)) = some 3 ∧ leadPayload (UInt8.ofNat (k + 0xF0)) = k := by
  decide

theorem canFollow_two : ∀ k < 0x20, 2 ≤ k → ∀ j < 0x40,
    CanFollow (UInt8.ofNat (k + 0xC0)) (UInt8.ofNat (j + 0x80)) := by decide +kernel

/-- The first exception keeps overlong forms out, the second the surrogates. -/
theorem canFollow_three : ∀ k < 0x10, ∀ j < 0x40, (k = 0 → 0x20 ≤ j) → (k = 0xD → j < 0x20) →
    CanFollow (UInt8.ofNat (k + 0xE0)) (UInt8.ofNat (j + 0x80)) := by decide +kernel

/-- The first exception keeps overlong forms out, the second what lies past the last plane. -/
theorem canFollow_four : ∀ k < 0x05, ∀ j < 0x40, (k = 0 → 0x10 ≤ j) → (k = 4 → j < 0x10) →
    CanFollow (UInt8.ofNat (k + 0xF0)) (UInt8.ofNat (j + 0x80)) := by decide +kernel

theorem toNat_mod_ofNat : ∀ k < 0x40, (UInt8.ofNat (k + 0x80)).toNat % 0x40 = k := by decide

/-- A lead byte takes the continuation bytes that it asks for. -/
theorem continuation_append {b d : UInt8} {tail rest : List UInt8}
    (hlen : tailLength? b = some (d :: tail).length) (hd : CanFollow b d)
    (htail : ∀ e ∈ tail, IsContinuation e) : continuation b (d :: tail ++ rest) = d :: tail := by
  have htake : (d :: tail ++ rest).take ((tailLength? b).getD 0) = d :: tail := by
    rw [hlen, Option.getD_some, List.take_left]
  have hall : tail.takeWhile (fun e => decide (IsContinuation e)) = tail :=
    List.takeWhile_eq_self_iff.2 fun e he => decide_eq_true (htail e he)
  rw [continuation, htake]
  simp only [hall]
  exact if_pos hd

/-- A character is read back. -/
theorem decodeLossy_char_append {c : Char} {b : UInt8} {tail rest : List UInt8}
    (hcont : continuation b (tail ++ rest) = tail) (hlen : tailLength? b = some tail.length)
    (hcode : codePoint b tail = c.toNat) :
    decodeLossy (b :: tail ++ rest) = c :: decodeLossy rest := by
  have hhead : headChar b (tail ++ rest) = c := by
    rw [headChar, hcont, if_pos hlen, hcode, Char.ofNat_toNat]
  rw [List.cons_append, decodeLossy_cons, hhead, hcont, List.drop_left]

/-- **A character that opens a sequence is read back**, whatever follows. -/
theorem decodeLossy_utf8EncodeChar_append (c : Char) (rest : List UInt8) :
    decodeLossy (String.utf8EncodeChar c ++ rest) = c :: decodeLossy rest := by
  have hk (n : Nat) : IsContinuation (UInt8.ofNat (n % 64 + 128)) :=
    isContinuation_ofNat _ (Nat.mod_lt _ (by decide))
  have hp (n : Nat) : (UInt8.ofNat (n % 64 + 128)).toNat % 0x40 = n % 64 :=
    toNat_mod_ofNat _ (Nat.mod_lt _ (by decide))
  have hvalid : c.val.toNat < 0xD800 ∨ 0xDFFF < c.val.toNat ∧ c.val.toNat < 0x110000 := c.valid
  have hval : c.val.toNat = c.toNat := rfl
  fun_cases String.utf8EncodeChar c with
  | case1 v h =>
    obtain ⟨hlen, hlead⟩ := strict_one v (by omega)
    exact decodeLossy_char_append (by simp [continuation, hlen]) hlen
      (by simp only [codePoint, List.foldl_nil]; omega)
  | case2 v h₁ h =>
    obtain ⟨hlen, hlead⟩ := strict_two (v / 64 % 32) (by omega) (by omega)
    refine decodeLossy_char_append ?_ hlen ?_
    · exact continuation_append hlen
        (canFollow_two _ (by omega) (by omega) _ (by omega)) (by simp)
    · simp only [codePoint, List.foldl_cons, List.foldl_nil, hlead, hp]
      omega
  | case3 v h₁ h₂ h =>
    obtain ⟨hlen, hlead⟩ := strict_three (v / 4096 % 16) (by omega)
    refine decodeLossy_char_append ?_ hlen ?_
    · refine continuation_append hlen
        (canFollow_three _ (by omega) _ (by omega) (by omega) (by omega)) ?_
      simp only [List.mem_singleton, forall_eq]
      exact hk _
    · simp only [codePoint, List.foldl_cons, List.foldl_nil, hlead, hp]
      omega
  | case4 v h₁ h₂ h =>
    obtain ⟨hlen, hlead⟩ := strict_four (v / 262144 % 8) (by omega)
    refine decodeLossy_char_append ?_ hlen ?_
    · refine continuation_append hlen
        (canFollow_four _ (by omega) _ (by omega) (by omega) (by omega)) ?_
      simp only [List.mem_cons, List.not_mem_nil, or_false, forall_eq_or_imp, forall_eq]
      exact ⟨hk _, hk _⟩
    · simp only [codePoint, List.foldl_cons, List.foldl_nil, hlead, hp]
      omega

theorem decodeLossy_flatMap_append (cs : List Char) (rest : List UInt8) :
    decodeLossy (cs.flatMap String.utf8EncodeChar ++ rest) = cs ++ decodeLossy rest := by
  induction cs with
  | nil => rfl
  | cons c cs ih =>
    rw [List.flatMap_cons, List.append_assoc, decodeLossy_utf8EncodeChar_append, ih,
      List.cons_append]

/-- A text that opens a sequence is read back, whatever follows. -/
theorem decodeLossy_encode_append (s : String) (rest : List UInt8) :
    decodeLossy (encode s ++ rest) = s.toList ++ decodeLossy rest :=
  decodeLossy_flatMap_append s.toList rest

/-- **The bytes of a text are read as that text.** -/
@[simp] theorem text_encode (s : String) : text (encode s) = s := by
  have h := decodeLossy_encode_append s []
  rw [List.append_nil, decodeLossy_nil, List.append_nil] at h
  rw [text, h, String.ofList_toList]

theorem encode_injective {s t : String} (h : encode s = encode t) : s = t := by
  rw [← text_encode s, h, text_encode]

theorem toByteArray_eq_encode (s : String) : ByteArray.mk (encode s).toArray = s.toByteArray := by
  have hdata : (encode s).toByteArray.data = (encode s).toArray := List.data_toByteArray
  calc ByteArray.mk (encode s).toArray = (encode s).toByteArray := ByteArray.ext hdata.symm
    _ = s.toByteArray := String.utf8Encode_toList

/-- A reader that takes no ill-formed bytes takes those of a text. -/
@[simp] theorem decode?_encode (s : String) : decode? (encode s) = some s := by
  rw [decode?, toByteArray_eq_encode]
  unfold String.fromUTF8?
  rw [dif_pos s.isValidUTF8]
  rfl

theorem WellFormed.encode_text {bytes : List UInt8} (h : WellFormed bytes) :
    encode (text bytes) = bytes := by
  obtain ⟨s, rfl⟩ := h
  rw [text_encode]

/-- **Behind a text stands a well-formed sequence** exactly when the whole is well-formed. -/
theorem wellFormed_encode_append_iff {s : String} {bytes : List UInt8} :
    WellFormed (encode s ++ bytes) ↔ WellFormed bytes := by
  constructor
  · rintro ⟨t, ht⟩
    -- reading both sides strictly takes the text off
    have h : t.toList = s.toList ++ decodeLossy bytes := by
      rw [← decodeLossy_encode_append, ← ht, ← List.append_nil (encode t),
        decodeLossy_encode_append, decodeLossy_nil, List.append_nil]
    have hst : t = s ++ String.ofList (decodeLossy bytes) := by
      rw [← String.toList_inj, h, String.toList_append, String.toList_ofList]
    rw [hst, encode_append] at ht
    exact ⟨_, List.append_cancel_left ht⟩
  · rintro ⟨t, rfl⟩
    exact ⟨s ++ t, encode_append s t⟩

theorem completable_encode_append_iff {s : String} {bytes : List UInt8} :
    Completable (encode s ++ bytes) ↔ Completable bytes := by
  simp only [Completable, List.append_assoc, wellFormed_encode_append_iff]

/-! ## The shape of a text -/

/-- Continuation bytes that are owed are taken, and the scan goes on behind them. -/
theorem shapeFrom_append {owed : Nat} {tail rest : List UInt8} (hle : tail.length ≤ owed)
    (htail : ∀ d ∈ tail, IsContinuation d) :
    shapeFrom owed (tail ++ rest) = shapeFrom (owed - tail.length) rest := by
  induction tail generalizing owed with
  | nil => rfl
  | cons d tail ih =>
    rw [List.length_cons] at hle
    obtain ⟨n, rfl⟩ : ∃ n, owed = n + 1 := ⟨owed - 1, by omega⟩
    rw [List.cons_append, shapeFrom_succ_cons, if_pos (htail d List.mem_cons_self),
      ih (by omega) fun e he => htail e (List.mem_cons_of_mem d he), List.length_cons,
      Nat.add_sub_add_right]

theorem shape_cons_append {b : UInt8} {n : Nat} {tail rest : List UInt8}
    (hb : announced? b = some n) (hle : tail.length ≤ n) (htail : ∀ d ∈ tail, IsContinuation d) :
    shape (b :: tail ++ rest) = shapeFrom (n - tail.length) rest := by
  have h : shape (b :: (tail ++ rest)) = shapeFrom n (tail ++ rest) := by
    simp only [shape, shapeFrom, hb]
  rw [List.cons_append, h, shapeFrom_append hle htail]

/-- A text that opens a sequence has no part in its shape. -/
theorem shape_encode_append (s : String) (rest : List UInt8) :
    shape (encode s ++ rest) = shape rest := by
  rw [encode]
  induction s.toList with
  | nil => rfl
  | cons c cs ih =>
    obtain ⟨b, tail, hc, hb, htail⟩ := exists_utf8EncodeChar_eq c
    rw [List.flatMap_cons, List.append_assoc, hc, shape_cons_append hb le_rfl htail,
      Nat.sub_self]
    exact ih

theorem WellFormed.shape_eq {bytes : List UInt8} (h : WellFormed bytes) :
    shape bytes = .complete := by
  obtain ⟨s, rfl⟩ := h
  simpa using shape_encode_append s []

/-- Of an unfinished character the lead is there, and fewer bytes than it announces. -/
theorem Unfinished.exists_cons {bytes : List UInt8} (h : Unfinished bytes) :
    ∃ b n tail, bytes = b :: tail ∧ announced? b = some n ∧ tail.length < n ∧
      ∀ d ∈ tail, IsContinuation d := by
  obtain ⟨hne, c, rest, hrest, hc⟩ := h
  obtain ⟨b, tail, hbt, hb, htail⟩ := exists_utf8EncodeChar_eq c
  obtain ⟨b', tail', rfl⟩ := List.exists_cons_of_ne_nil hne
  rw [hbt, List.cons_append, List.cons.injEq] at hc
  obtain ⟨rfl, rfl⟩ := hc
  have hlen : 0 < rest.length := List.length_pos_iff.2 hrest
  refine ⟨b, _, tail', rfl, hb, ?_, fun d hd => htail d (List.mem_append_left _ hd)⟩
  rw [List.length_append]
  omega

theorem Unfinished.shape_eq {bytes : List UInt8} (h : Unfinished bytes) :
    shape bytes = .incomplete := by
  obtain ⟨b, n, tail, rfl, hb, hlt, htail⟩ := h.exists_cons
  have hs : shape (b :: tail) = shapeFrom (n - tail.length) [] := by
    rw [← shape_cons_append hb hlt.le htail, List.append_nil]
  obtain ⟨k, hk⟩ : ∃ k, n - tail.length = k + 1 := ⟨n - tail.length - 1, by omega⟩
  rw [hs, hk, shapeFrom_succ_nil]

theorem Unfinished.not_wellFormed {bytes : List UInt8} (h : Unfinished bytes) :
    ¬ WellFormed bytes := by
  intro hw
  have := hw.shape_eq
  rw [h.shape_eq] at this
  exact absurd this (by decide)

/-- A text cannot stand behind an unfinished character. -/
theorem Unfinished.not_wellFormed_append_encode {bytes rest : List UInt8} {s : String}
    (h : Unfinished bytes) (hs : s ≠ "") : ¬ WellFormed (bytes ++ encode s ++ rest) := by
  intro hw
  obtain ⟨b, n, tail, rfl, hb, hlt, htail⟩ := h.exists_cons
  obtain ⟨c, cs, hcs⟩ : ∃ c cs, s.toList = c :: cs :=
    List.exists_cons_of_ne_nil fun hnil => hs (by simpa using hnil)
  obtain ⟨lead, more, hc, hlead, -⟩ := exists_utf8EncodeChar_eq c
  have hno : ¬ IsContinuation lead := by
    intro hcont
    rw [announced?_eq_none_of_isContinuation hcont] at hlead
    exact absurd hlead (by simp)
  have hshape := hw.shape_eq
  obtain ⟨k, hk⟩ : ∃ k, n - tail.length = k + 1 := ⟨n - tail.length - 1, by omega⟩
  rw [List.append_assoc, shape_cons_append hb hlt.le htail, hk, encode, hcs, List.flatMap_cons,
    hc, List.cons_append, List.cons_append, shapeFrom_succ_cons, if_neg hno] at hshape
  exact absurd hshape (by decide)

/-! ## Beginnings of well-formed sequences -/

theorem exists_split_of_prefix_flatMap {cs : List Char} {bytes : List UInt8}
    (h : bytes <+: cs.flatMap String.utf8EncodeChar) :
    ∃ (s : String) (t : List UInt8), bytes = encode s ++ t ∧ (t = [] ∨ Unfinished t) := by
  induction cs generalizing bytes with
  | nil => exact ⟨"", [], by simpa using h, Or.inl rfl⟩
  | cons c cs ih =>
    obtain ⟨rest, hrest⟩ := h
    rw [List.flatMap_cons] at hrest
    rcases List.append_eq_append_iff.1 hrest with ⟨more, hc, -⟩ | ⟨part, rfl, hpart⟩
    · -- the part ends inside the first character
      by_cases hne : bytes = []
      · exact ⟨"", bytes, rfl, Or.inl hne⟩
      by_cases hmore : more = []
      · exact ⟨String.ofList [c], [], by simp [encode, hc, hmore], Or.inl rfl⟩
      · exact ⟨"", bytes, rfl, Or.inr ⟨hne, c, more, hmore, hc⟩⟩
    · obtain ⟨s, t, rfl, ht⟩ := ih ⟨rest, hpart.symm⟩
      refine ⟨String.ofList [c] ++ s, t, ?_, ht⟩
      simp [encode]

/-- **A beginning of a well-formed sequence** is a text and at most one unfinished
character. -/
theorem Completable.exists_split {bytes : List UInt8} (h : Completable bytes) :
    ∃ (s : String) (t : List UInt8), bytes = encode s ++ t ∧ (t = [] ∨ Unfinished t) := by
  obtain ⟨rest, s, hs⟩ := h
  have hp : bytes <+: s.toList.flatMap String.utf8EncodeChar := ⟨rest, hs.symm⟩
  exact exists_split_of_prefix_flatMap hp

theorem WellFormed.append_unfinished {bytes t : List UInt8} (h : WellFormed bytes)
    (ht : Unfinished t) : Completable (bytes ++ t) := by
  obtain ⟨s, rfl⟩ := h
  obtain ⟨-, c, rest, -, hc⟩ := ht
  refine completable_encode_append_iff.2 ⟨rest, String.ofList [c], ?_⟩
  simp [encode, hc]

/-- Of a beginning of a well-formed sequence the shape says whether it is one itself. -/
theorem Completable.shape_cases {bytes : List UInt8} (h : Completable bytes) :
    WellFormed bytes ∧ shape bytes = .complete ∨
      ¬ WellFormed bytes ∧ shape bytes = .incomplete := by
  obtain ⟨s, t, rfl, rfl | ht⟩ := h.exists_split
  · rw [List.append_nil]
    exact Or.inl ⟨wellFormed_encode s, (wellFormed_encode s).shape_eq⟩
  · refine Or.inr ⟨fun hw => ?_, ?_⟩
    · exact ht.not_wellFormed (wellFormed_encode_append_iff.1 hw)
    · rw [shape_encode_append, ht.shape_eq]

/-- No well-formed beginning reaches into an unfinished character at the end. -/
theorem WellFormed.length_le_of_prefix {bytes t part : List UInt8} (h : WellFormed bytes)
    (ht : Unfinished t) (hpart : WellFormed part) (hp : part <+: bytes ++ t) :
    part.length ≤ bytes.length := by
  by_contra hlt
  obtain ⟨more, rfl⟩ : bytes <+: part :=
    List.prefix_of_prefix_length_le (List.prefix_append bytes t) hp (by omega)
  obtain ⟨s, rfl⟩ := h
  have hmore : more ≠ [] := by
    rintro rfl
    simp at hlt
  have hun : Unfinished more :=
    ht.of_prefix hmore ((List.prefix_append_right_inj _).1 hp)
  exact hun.not_wellFormed (wellFormed_encode_append_iff.1 hpart)

/-- **A text inside a well-formed sequence begins between two characters.** -/
theorem WellFormed.of_append_encode {before rest : List UInt8} {s : String} (hs : s ≠ "")
    (h : WellFormed (before ++ encode s ++ rest)) : WellFormed before := by
  have hc : Completable before := ⟨encode s ++ rest, by rwa [← List.append_assoc]⟩
  obtain ⟨p, t, rfl, rfl | ht⟩ := hc.exists_split
  · rw [List.append_nil]
    exact wellFormed_encode p
  · rw [List.append_assoc, List.append_assoc, wellFormed_encode_append_iff,
      ← List.append_assoc] at h
    exact absurd h (ht.not_wellFormed_append_encode hs)

/-- **Texts contain a text exactly where their bytes contain its bytes.** -/
theorem encode_infix_encode_iff {m s : String} :
    encode m <:+: encode s ↔ m.toList <:+: s.toList := by
  constructor
  · rintro ⟨before, rest, h⟩
    by_cases hm : m = ""
    · subst hm
      exact List.nil_infix
    have hbefore : WellFormed before :=
      WellFormed.of_append_encode hm (by rw [h]; exact wellFormed_encode s)
    obtain ⟨p, rfl⟩ := hbefore
    have hrest : WellFormed rest := by
      rw [← wellFormed_encode_append_iff (s := p ++ m), encode_append, h]
      exact wellFormed_encode s
    obtain ⟨q, rfl⟩ := hrest
    rw [← encode_append, ← encode_append] at h
    refine ⟨p.toList, q.toList, ?_⟩
    rw [← encode_injective h, String.toList_append, String.toList_append]
  · rintro ⟨before, rest, h⟩
    refine ⟨encode (String.ofList before), encode (String.ofList rest), ?_⟩
    simp only [encode, String.toList_ofList, ← h, List.flatMap_append]

end Utf8
end LlmSession
