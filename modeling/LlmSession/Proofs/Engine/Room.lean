import LlmSession.Engine.Scripted
import LlmSession.Proofs.Engine.Passes

/-!
# Passes that there is room for

A pass over slots needs room twice: in the batch in which the slots are staged, and in the cache to
which the engine adds them.  The first is the session's own affair.  It cuts its prompts into parts
that fit, so that no batch ever refuses them, and the error of a pass is always one that the engine
gave, worded as a failed pass.

The second is the engine's.  Nothing says how an engine decides, but there is one that decides by
the cache alone: a pass fails where a position lies behind the end of the cache, and only there
(`Engine.FailsPastEnd`).  For such an engine it can be said beforehand which passes go well.

## Main statements

* `TokenBatch.exists_fill_eq_ok`: slots that a batch has room for are staged.
* `Engine.isDecodeFailure_of_prompt`: how a prompt cannot fail.
* `Engine.FailsPastEnd.length_le_of_prompt`: a prompt whose passes go well is no longer than the
  cache.
* `Script.failsPastEnd`: a scripted engine that is told no failures decides by the cache alone.
-/

namespace LlmSession

/-! ## Room in a batch -/

namespace TokenBatch

/-- Slots that fit into one pass. -/
structure HasRoom (b : TokenBatch) (slots : List BatchSlot) : Prop where
  length_le : slots.length ≤ b.capacity
  seqIds_le : ∀ slot ∈ slots, slot.seqIds.length ≤ b.maxSequences

/-- A batch has room for one token of the first sequence. -/
theorem hasRoom_ofToken (b : TokenBatch) (token : Token) (pos : Nat) (logits : Bool) :
    b.HasRoom [.ofToken token pos logits] := by
  refine ⟨b.capacity_pos, fun slot hslot => ?_⟩
  rw [List.mem_singleton.1 hslot]
  exact b.maxSequences_pos

theorem size_of_add_eq_ok {b b' : TokenBatch} {slot : BatchSlot} (h : b.add slot = .ok b') :
    b'.size = b.size + 1 := by
  rw [← length_filled, filled_of_add_eq_ok h, List.length_append, length_filled]
  rfl

theorem exists_add_eq_ok {b : TokenBatch} {slot : BatchSlot} (hsize : b.size < b.capacity)
    (hseq : slot.seqIds.length ≤ b.maxSequences) : ∃ b', b.add slot = .ok b' := by
  unfold add
  rw [dif_neg (Nat.not_le.2 hsize), if_neg (Nat.not_lt.2 hseq)]
  split
  · exact ⟨_, rfl⟩
  · exact ⟨_, rfl⟩

theorem exists_foldlM_add_eq_ok {slots : List BatchSlot} {b : TokenBatch}
    (hlength : b.size + slots.length ≤ b.capacity)
    (hseq : ∀ slot ∈ slots, slot.seqIds.length ≤ b.maxSequences) :
    ∃ b', slots.foldlM add b = .ok b' ∧ b'.capacity = b.capacity ∧
      b'.maxSequences = b.maxSequences := by
  induction slots generalizing b with
  | nil => exact ⟨b, rfl, rfl, rfl⟩
  | cons slot slots ih =>
    rw [List.length_cons] at hlength
    obtain ⟨hslot, hslots⟩ := List.forall_mem_cons.1 hseq
    obtain ⟨b₁, hadd⟩ := exists_add_eq_ok (b := b) (by omega) hslot
    obtain ⟨hcapacity, hsequences⟩ := capacity_of_add_eq_ok hadd
    have hsize := size_of_add_eq_ok hadd
    obtain ⟨b', hfold, hcapacity', hsequences'⟩ :=
      ih (b := b₁) (by omega) (by rwa [hsequences])
    refine ⟨b', ?_, hcapacity'.trans hcapacity, hsequences'.trans hsequences⟩
    rw [List.foldlM_cons, hadd]
    exact hfold

/-- **Slots that a batch has room for** are staged. -/
theorem exists_fill_eq_ok {b : TokenBatch} {slots : List BatchSlot} (h : b.HasRoom slots) :
    ∃ b', b.fill slots = .ok b' ∧ b'.capacity = b.capacity ∧ b'.maxSequences = b.maxSequences := by
  refine exists_foldlM_add_eq_ok (b := b.clear) ?_ h.seqIds_le
  rw [size_clear, capacity_clear, Nat.zero_add]
  exact h.length_le

theorem filled_of_setLogits_eq_ok {b b' : TokenBatch} {index : Nat} {logits : Bool}
    (h : b.setLogits index logits = .ok b') :
    b'.filled = b.filled.modify index fun slot => { slot with logits } := by
  unfold setLogits at h
  split at h
  · cases h
  · cases h
    simp only [filled, Array.toList_modify, List.take_modify]

theorem exists_setLogits_eq_ok {b : TokenBatch} {index : Nat} (h : index < b.size)
    (logits : Bool) :
    ∃ b', b.setLogits index logits = .ok b' ∧ b'.capacity = b.capacity ∧
      b'.maxSequences = b.maxSequences := by
  unfold setLogits
  rw [if_neg (Nat.not_le.2 h)]
  exact ⟨_, rfl, rfl, rfl⟩

end TokenBatch

/-! ## The parts of a prompt -/

/-- A part is no longer than it may be. -/
theorem length_le_of_mem_chunks {α : Type} {n : Nat} (hn : 0 < n) {as part : List α}
    (h : part ∈ chunks n as) : part.length ≤ n := by
  fun_induction chunks n as with
  | case1 => exact absurd h List.not_mem_nil
  | case2 a as ih =>
    rcases List.mem_cons.1 h with rfl | h
    · rw [List.length_cons, List.length_take]
      omega
    · exact ih h

theorem mem_of_mem_chunks {α : Type} {n : Nat} {as part : List α} {a : α}
    (h : part ∈ chunks n as) (ha : a ∈ part) : a ∈ as := by
  rw [← flatten_chunks n as]
  exact List.mem_flatten.2 ⟨part, h, ha⟩

/-- A slot of a prompt is that of one of its tokens, at its place. -/
theorem exists_of_mem_slotsFrom {pos : Nat} {tokens : List Token} {slot : BatchSlot}
    (h : slot ∈ slotsFrom pos tokens) :
    ∃ token logits, ∃ p < pos + tokens.length, slot = .ofToken token p logits := by
  induction tokens generalizing pos with
  | nil => exact absurd h List.not_mem_nil
  | cons token tokens ih =>
    rw [List.length_cons]
    rcases List.mem_cons.1 h with rfl | h
    · exact ⟨token, _, pos, by omega, rfl⟩
    · obtain ⟨token', logits, p, hp, rfl⟩ := ih h
      exact ⟨token', logits, p, by omega, rfl⟩

/-- Every place of a prompt has its slot. -/
theorem exists_mem_slotsFrom (pos : Nat) {k : Nat} {tokens : List Token} (hk : k < tokens.length) :
    ∃ token logits, BatchSlot.ofToken token (pos + k) logits ∈ slotsFrom pos tokens := by
  induction tokens generalizing pos k with
  | nil => exact absurd hk (Nat.not_lt_zero k)
  | cons token tokens ih =>
    cases k with
    | zero => exact ⟨token, _, List.mem_cons_self⟩
    | succ k =>
      obtain ⟨token', logits, hmem⟩ := ih (pos + 1) (Nat.lt_of_succ_lt_succ hk)
      rw [Nat.add_assoc, Nat.add_comm 1 k] at hmem
      exact ⟨token', logits, List.mem_cons_of_mem _ hmem⟩

/-- A batch has room for each part of a prompt. -/
theorem TokenBatch.hasRoom_of_mem_chunks {b : TokenBatch} {tokens : List Token}
    {part : List BatchSlot} (h : part ∈ chunks b.capacity (promptSlots tokens)) :
    b.HasRoom part := by
  refine ⟨length_le_of_mem_chunks b.capacity_pos h, fun slot hslot => ?_⟩
  obtain ⟨token, logits, p, -, rfl⟩ := exists_of_mem_slotsFrom (mem_of_mem_chunks h hslot)
  exact b.maxSequences_pos

/-! ## How a pass fails -/

namespace Engine

variable {E : Engine} {batch batch' : TokenBatch} {context context' : E.Context}
  {w w' : E.World}

/-- Slots that there is room for get to the engine. -/
theorem exists_submitSlots_eq {slots : List BatchSlot} (h : batch.HasRoom slots)
    (context : E.Context) (w : E.World) :
    ∃ b, b.filled = slots ∧ b.capacity = batch.capacity ∧ b.maxSequences = batch.maxSequences ∧
      batch.fill slots = .ok b ∧ E.submitSlots slots batch context w =
        ((E.submit b context w).1, b, (E.submit b context w).2.1, (E.submit b context w).2.2) := by
  obtain ⟨b, hfill, hcapacity, hsequences⟩ := TokenBatch.exists_fill_eq_ok h
  refine ⟨b, TokenBatch.filled_of_fill_eq_ok hfill, hcapacity, hsequences, hfill, ?_⟩
  simp only [submitSlots, hfill]

/-- A pass leaves the batch the room it had. -/
theorem hasRoom_of_submitSlots {part slots : List BatchSlot}
    {outcome : Except SessionError Unit} (hslots : batch.HasRoom slots) (h : batch.HasRoom part)
    (hpass : E.submitSlots slots batch context w = (outcome, batch', context', w')) :
    batch'.HasRoom part := by
  obtain ⟨b, -, hcapacity, hsequences, -, heq⟩ := exists_submitSlots_eq hslots context w
  rw [heq, Prod.mk.injEq, Prod.mk.injEq] at hpass
  obtain ⟨-, rfl, -⟩ := hpass
  exact ⟨by rw [hcapacity]; exact h.length_le, by rw [hsequences]; exact h.seqIds_le⟩

theorem isDecodeFailure_of_submit {e : SessionError}
    (h : E.submit batch context w = (.error e, context', w')) : e.IsDecodeFailure := by
  rcases submit_cases h with ⟨he, -⟩ | ⟨e', he, -⟩
  · exact nomatch he
  · cases he
    exact e'.isDecodeFailure_asDecodeFailure

theorem isDecodeFailure_of_submitSlots {slots : List BatchSlot} {e : SessionError}
    (hroom : batch.HasRoom slots)
    (h : E.submitSlots slots batch context w = (.error e, batch', context', w')) :
    e.IsDecodeFailure := by
  obtain ⟨b, -, -, -, -, hslots⟩ := exists_submitSlots_eq hroom context w
  rw [hslots, Prod.mk.injEq] at h
  exact isDecodeFailure_of_submit (Prod.ext h.1 rfl)

/-- Passes over parts that there is room for fail as a pass does. -/
theorem isDecodeFailure_of_submitAll {parts : List (List BatchSlot)} {e : SessionError}
    (hroom : ∀ part ∈ parts, batch.HasRoom part)
    (h : E.submitAll parts batch context w = (.error e, batch', context', w')) :
    e.IsDecodeFailure := by
  induction parts generalizing batch context w with
  | nil => exact nomatch h
  | cons slots rest ih =>
    obtain ⟨hslots, hrest⟩ := List.forall_mem_cons.1 hroom
    rcases submitAll_cons h with ⟨e', he, hfails⟩ | ⟨batch₁, context₁, w₁, hpass, hlater⟩
    · cases he
      exact isDecodeFailure_of_submitSlots hslots hfails
    · exact ih (fun part hpart => hasRoom_of_submitSlots hslots (hrest part hpart) hpass) hlater

/-- **A prompt that fails** fails as a pass does, whatever its length and whatever the batch. -/
theorem isDecodeFailure_of_prompt {tokens : List Token} {e : SessionError}
    (h : E.submitAll (chunks batch.capacity (promptSlots tokens)) batch context w =
      (.error e, batch', context', w')) : e.IsDecodeFailure :=
  isDecodeFailure_of_submitAll (fun _ => TokenBatch.hasRoom_of_mem_chunks) h

end Engine

/-! ## Room in a cache -/

/-- The place that a slot asks for, which is a word without a sign. -/
def BatchSlot.position (slot : BatchSlot) : Nat := slot.pos.toUInt32.toNat

theorem BatchSlot.position_ofToken (token : Token) (pos : Nat) (logits : Bool) :
    (ofToken token pos logits).position = pos % twoTo 32 := by
  show (Int32.ofNat pos).toUInt32.toNat = pos % 2 ^ 32
  rw [Int32.toUInt32_ofNat', UInt32.toNat_ofNat']

/-- A place is never past the number that was asked for. -/
theorem BatchSlot.position_ofToken_le (token : Token) (pos : Nat) (logits : Bool) :
    (ofToken token pos logits).position ≤ pos := by
  rw [position_ofToken]
  exact Nat.mod_le _ _

/-- The place of a number that is one of a cache is that number. -/
theorem BatchSlot.position_ofToken_of_lt (token : Token) {pos : Nat} (logits : Bool)
    {size : UInt32} (h : pos ≤ size.toNat) : (ofToken token pos logits).position = pos := by
  rw [position_ofToken]
  exact Nat.mod_eq_of_lt (Nat.lt_of_le_of_lt h size.toNat_lt)

/-- The slots of a prompt ask for places in front of its end. -/
theorem position_lt_of_mem_promptSlots {tokens : List Token} {slot : BatchSlot}
    (h : slot ∈ promptSlots tokens) : slot.position < tokens.length := by
  obtain ⟨token, logits, p, hp, rfl⟩ := exists_of_mem_slotsFrom h
  rw [Nat.zero_add] at hp
  exact Nat.lt_of_le_of_lt (BatchSlot.position_ofToken_le token p logits) hp

/-- An engine that decides by the cache alone.  A pass fails if a place lies behind the end of the
cache, and only then; and a cache keeps its size. -/
structure Engine.FailsPastEnd (E : Engine) : Prop where
  decode_eq_ok_iff : ∀ (batch : TokenBatch) (context : E.Context) (w : E.World),
    batch.filled ≠ [] → ((E.decode batch context w).1 = .ok () ↔
      ∀ slot ∈ batch.filled, slot.position < (E.contextSize context).toNat)
  contextSize_decode : ∀ (batch : TokenBatch) (context : E.Context) (w : E.World),
    E.contextSize (E.decode batch context w).2.1 = E.contextSize context

namespace Engine.FailsPastEnd

variable {E : Engine} (hE : E.FailsPastEnd) {batch batch' : TokenBatch}
  {context context' : E.Context} {w w' : E.World}
include hE

theorem contextSize_submitSlots {slots : List BatchSlot} {outcome : Except SessionError Unit}
    (h : E.submitSlots slots batch context w = (outcome, batch', context', w')) :
    E.contextSize context' = E.contextSize context := by
  rcases submitSlots_cases h with ⟨e, -, -, rfl, -⟩ | ⟨-, hsubmit⟩
  · rfl
  have hsize := hE.contextSize_decode batch' context w
  rcases submit_cases hsubmit with ⟨-, hdecode⟩ | ⟨e, -, hdecode⟩
  · rwa [hdecode] at hsize
  · rwa [hdecode] at hsize

theorem position_lt_of_submitSlots {slots : List BatchSlot} (hne : slots ≠ [])
    (h : E.submitSlots slots batch context w = (.ok (), batch', context', w')) :
    ∀ slot ∈ slots, slot.position < (E.contextSize context).toNat := by
  rcases submitSlots_cases h with ⟨e, -, he, -, -⟩ | ⟨hfilled, hsubmit⟩
  · exact nomatch he
  rcases submit_cases hsubmit with ⟨-, hdecode⟩ | ⟨e, he, -⟩
  · have hiff := hE.decode_eq_ok_iff batch' context w (by rwa [hfilled])
    rw [hdecode, hfilled] at hiff
    exact hiff.1 rfl
  · exact nomatch he

/-- Passes that all go well find room for all their slots. -/
theorem position_lt_of_submitAll {parts : List (List BatchSlot)} (hne : ∀ part ∈ parts, part ≠ [])
    (h : E.submitAll parts batch context w = (.ok (), batch', context', w')) :
    (∀ slot ∈ parts.flatten, slot.position < (E.contextSize context).toNat) ∧
      E.contextSize context' = E.contextSize context := by
  induction parts generalizing batch context w with
  | nil =>
    cases h
    exact ⟨fun slot hslot => absurd hslot List.not_mem_nil, rfl⟩
  | cons slots rest ih =>
    obtain ⟨hslots, hrest⟩ := List.forall_mem_cons.1 hne
    rcases submitAll_cons h with ⟨e, he, -⟩ | ⟨batch₁, context₁, w₁, hpass, hlater⟩
    · exact nomatch he
    obtain ⟨hroom, hsize⟩ := ih hrest hlater
    rw [hE.contextSize_submitSlots hpass] at hroom hsize
    refine ⟨fun slot hslot => ?_, hsize⟩
    rw [List.flatten_cons] at hslot
    rcases List.mem_append.1 hslot with hslot | hslot
    · exact hE.position_lt_of_submitSlots hslots hpass slot hslot
    · exact hroom slot hslot

/-- **A prompt whose passes go well** is no longer than the cache. -/
theorem length_le_of_prompt {n : Nat} {tokens : List Token}
    (h : E.submitAll (chunks n (promptSlots tokens)) batch context w =
      (.ok (), batch', context', w')) :
    tokens.length ≤ (E.contextSize context).toNat ∧
      E.contextSize context' = E.contextSize context := by
  obtain ⟨hroom, hsize⟩ := hE.position_lt_of_submitAll (fun _ => ne_nil_of_mem_chunks) h
  refine ⟨Nat.le_of_not_lt fun hlong => ?_, hsize⟩
  -- otherwise the prompt has a slot at the very end of the cache
  obtain ⟨token, logits, hmem⟩ := exists_mem_slotsFrom 0 hlong
  rw [Nat.zero_add] at hmem
  rw [flatten_chunks] at hroom
  have hlt := hroom _ hmem
  rw [BatchSlot.position_ofToken_of_lt token logits (Nat.le_refl _)] at hlt
  exact Nat.lt_irrefl _ hlt

/-- A token whose place is in the cache finds room there. -/
theorem decode_ofToken_eq_ok {token : Token} {pos : Nat} {logits : Bool}
    (hfilled : batch.filled = [.ofToken token pos logits])
    (hpos : pos < (E.contextSize context).toNat) : (E.decode batch context w).1 = .ok () := by
  refine (hE.decode_eq_ok_iff batch context w (by rw [hfilled]; exact List.cons_ne_nil _ _)).2 ?_
  intro slot hslot
  rw [hfilled] at hslot
  rw [List.mem_singleton.1 hslot]
  exact Nat.lt_of_le_of_lt (BatchSlot.position_ofToken_le token pos logits) hpos

end Engine.FailsPastEnd

/-- A scripted engine that is told no failures decides by the cache alone. -/
theorem Script.failsPastEnd {s : Script} (h : s.failDecode = []) : s.engine.FailsPastEnd where
  decode_eq_ok_iff batch context w hne := by
    have hempty : batch.filled.isEmpty = false := List.isEmpty_eq_false_iff.2 hne
    have hcall : context.passes + 1 ∉ s.failDecode := h ▸ List.not_mem_nil
    have hall : batch.filled.all (Context.holds context) = true ↔
        ∀ slot ∈ batch.filled, slot.position < context.size.toNat := by
      rw [List.all_eq_true]
      exact forall₂_congr fun slot _ => decide_eq_true_iff.trans UInt32.lt_iff_toNat_lt
    show (s.decode batch.filled context w).1 = .ok () ↔
      ∀ slot ∈ batch.filled, slot.position < context.size.toNat
    rw [← hall]
    unfold Script.decode
    dsimp only
    rw [if_neg hcall, hempty, if_neg Bool.false_ne_true]
    split
    · next hholds => exact iff_of_true rfl hholds
    · next hholds => exact iff_of_false nofun hholds
  contextSize_decode batch context w := by
    show (s.decode batch.filled context w).2.1.size = context.size
    unfold Script.decode
    dsimp only
    split_ifs <;> rfl

end LlmSession
