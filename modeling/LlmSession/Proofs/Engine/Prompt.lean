import LlmSession.Proofs.Engine.Room

/-!
# A prompt part by part

A session cuts the tokens of a prompt into parts and counts them.  The position of a token is made
from the number of its part and its place in the part.  The flag of the last token is set when its
part has been staged without it, and which part is the last comes from a division.  Nothing in this
says that the positions follow on each other over the ends of the parts, that one token asks for a
distribution and not two, or that no part is refused by the batch.

All of this is one equation.  What the session does is the same, to the batch and to the engine and
in what comes back, as if the slots of the whole prompt had been written down first, with their
positions and the one flag, and had then been cut (`Engine.submitPrompt_eq`).  The parts are full but
for the last, so each begins where the one before it ends; and a flag that is set behind the last
slot is one that the slot was added with (`TokenBatch.setLogits_of_add`).

The equation has no hypothesis.  A part is no longer than the batch, and a batch has room for one
sequence, so neither a token nor the flag of one is ever refused.

## Main statements

* `take_slotsFrom`, `drop_slotsFrom`: how the slots of a prompt are cut.
* `TokenBatch.exists_stageChunk_eq`: one part.
* `Engine.submitPrompt_eq`: all parts.
-/

namespace LlmSession

/-! ## Slots that ask for nothing -/

/-- The slots of the tokens from position `pos` on, none of which asks for a distribution. -/
def quietSlots (pos : Nat) : List Token → List BatchSlot
  | [] => []
  | token :: tokens => .ofToken token pos false :: quietSlots (pos + 1) tokens

@[simp] theorem length_quietSlots (pos : Nat) (tokens : List Token) :
    (quietSlots pos tokens).length = tokens.length := by
  induction tokens generalizing pos with
  | nil => rfl
  | cons token tokens ih => simp [quietSlots, ih]

theorem length_seqIds_of_mem_quietSlots {pos : Nat} {tokens : List Token} {slot : BatchSlot}
    (h : slot ∈ quietSlots pos tokens) : slot.seqIds.length = 1 := by
  induction tokens generalizing pos with
  | nil => exact absurd h List.not_mem_nil
  | cons token tokens ih =>
    rcases List.mem_cons.1 h with rfl | h
    · rfl
    · exact ih h

theorem quietSlots_concat (pos : Nat) (front : List Token) (last : Token) :
    quietSlots pos (front ++ [last]) =
      quietSlots pos front ++ [.ofToken last (pos + front.length) false] := by
  induction front generalizing pos with
  | nil => rfl
  | cons token front ih =>
    rw [List.cons_append, quietSlots, quietSlots, ih, List.cons_append, List.length_cons,
      Nat.add_assoc, Nat.add_comm 1]

/-- Of the slots of a prompt all are quiet but the last. -/
theorem slotsFrom_concat (pos : Nat) (front : List Token) (last : Token) :
    slotsFrom pos (front ++ [last]) =
      quietSlots pos front ++ [.ofToken last (pos + front.length) true] := by
  induction front generalizing pos with
  | nil => rfl
  | cons token front ih =>
    have hmore : (front ++ [last]).isEmpty = false :=
      List.isEmpty_eq_false_iff.2 (List.append_ne_nil_of_right_ne_nil _ (List.cons_ne_nil _ _))
    rw [List.cons_append, slotsFrom, hmore, quietSlots, ih, List.cons_append, List.length_cons,
      Nat.add_assoc, Nat.add_comm 1]

/-- What is cut off in front of the end is quiet. -/
theorem take_slotsFrom (pos : Nat) {k : Nat} {tokens : List Token} (hk : k < tokens.length) :
    (slotsFrom pos tokens).take k = quietSlots pos (tokens.take k) := by
  induction tokens generalizing pos k with
  | nil => exact absurd hk (Nat.not_lt_zero k)
  | cons token tokens ih =>
    cases k with
    | zero => rfl
    | succ k =>
      have hlt : k < tokens.length := Nat.lt_of_succ_lt_succ hk
      have hmore : tokens.isEmpty = false :=
        List.isEmpty_eq_false_iff.2 (List.ne_nil_of_length_pos (Nat.zero_lt_of_lt hlt))
      rw [slotsFrom, hmore, List.take_succ_cons, List.take_succ_cons, quietSlots, ih _ hlt]

/-- What is left behind a cut goes on where it was. -/
theorem drop_slotsFrom (pos k : Nat) (tokens : List Token) :
    (slotsFrom pos tokens).drop k = slotsFrom (pos + k) (tokens.drop k) := by
  induction tokens generalizing pos k with
  | nil => rw [slotsFrom, List.drop_nil, List.drop_nil, slotsFrom]
  | cons token tokens ih =>
    cases k with
    | zero => rfl
    | succ k => rw [slotsFrom, List.drop_succ_cons, List.drop_succ_cons, ih, Nat.add_right_comm]; rfl

/-- The first part, and the others. -/
theorem chunks_of_ne_nil {α : Type} {n : Nat} (hn : 0 < n) {as : List α} (hne : as ≠ []) :
    chunks n as = as.take n :: chunks n (as.drop n) := by
  obtain ⟨m, rfl⟩ := Nat.exists_eq_add_one_of_ne_zero (Nat.pos_iff_ne_zero.1 hn)
  cases as with
  | nil => exact absurd rfl hne
  | cons a as => rw [chunks_cons, List.take_succ_cons, List.drop_succ_cons, Nat.add_sub_cancel]

/-! ## One part -/

namespace TokenBatch

variable {b b' : TokenBatch}

/-- **A flag that is set behind a slot** is one that the slot was added with. -/
theorem setLogits_of_add {slot : BatchSlot} (h : b.add slot = .ok b') (logits : Bool) :
    b'.setLogits b.size logits = b.add { slot with logits } := by
  have hsize : ¬ b'.size ≤ b.size := by
    rw [size_of_add_eq_ok h]
    omega
  rw [setLogits, if_neg hsize]
  unfold add at h ⊢
  split at h
  · cases h
  next hcapacity =>
  rw [dif_neg hcapacity]
  split at h
  · cases h
  next hsequences =>
  rw [if_neg hsequences]
  split at h
  · -- the slot stands where one was left over
    next hlt =>
    cases h
    rw [dif_pos hlt]
    congr 2
    show (b.storage.set b.size slot hlt).modify b.size _ = _
    grind
  · next hlt =>
    cases h
    rw [dif_neg hlt]
    congr 2
    have hend : b.size = b.storage.size :=
      Nat.le_antisymm b.size_le_storage (Nat.le_of_not_lt hlt)
    show (b.storage.push slot).modify b.size _ = _
    grind

theorem fill_concat (b : TokenBatch) (slots : List BatchSlot) (slot : BatchSlot) :
    b.fill (slots ++ [slot]) = b.fill slots >>= fun b => b.add slot := by
  simp only [fill, List.foldlM_append, List.foldlM_cons, List.foldlM_nil, bind_pure]

/-- Tokens that are added one by one are the slots that they stand for. -/
theorem addTokens_of_foldlM_add (start : Nat) {tokens : List Token} {i : Nat}
    (h : (quietSlots (start + i) tokens).foldlM add b = .ok b') :
    addTokens start (tokens.zipIdx i) b = (.ok (), b') := by
  induction tokens generalizing b i with
  | nil =>
    cases h
    rfl
  | cons token tokens ih =>
    rw [quietSlots, List.foldlM_cons] at h
    obtain ⟨b₁, hadd, hrest⟩ := exists_of_bind_eq_ok h
    rw [List.zipIdx_cons, addTokens, hadd]
    exact ih hrest

/-- The slots of one part that begins at a position. -/
def chunkSlots (start : Nat) (isLast : Bool) (chunk : List Token) : List BatchSlot :=
  if isLast then slotsFrom start chunk else quietSlots start chunk

/-- **A part that is no longer than the batch** is staged, and the batch is as if its slots had been
staged as they are in the end. -/
theorem exists_stageChunk_eq {chunk : List Token} (hne : chunk ≠ [])
    (hlength : chunk.length ≤ b.capacity) (start : Nat) (isLast : Bool) :
    ∃ b', b.fill (chunkSlots start isLast chunk) = .ok b' ∧ b'.capacity = b.capacity ∧
      b.stageChunk start isLast chunk = (.ok (), b') := by
  obtain ⟨front, last, rfl⟩ := (List.eq_nil_or_concat chunk).resolve_left hne
  rw [List.concat_eq_append] at hlength ⊢
  have hroom : b.HasRoom (quietSlots start (front ++ [last])) :=
    ⟨by rwa [length_quietSlots], fun slot hslot => by
      rw [length_seqIds_of_mem_quietSlots hslot]
      exact b.maxSequences_pos⟩
  obtain ⟨b₂, hquiet, hcapacity, -⟩ := exists_fill_eq_ok hroom
  have hadded : addTokens start (front ++ [last]).zipIdx b.clear = (.ok (), b₂) :=
    addTokens_of_foldlM_add start hquiet
  cases isLast with
  | false =>
    refine ⟨b₂, hquiet, hcapacity, ?_⟩
    rw [stageChunk, hadded]
    rfl
  | true =>
    -- the last slot was added as a quiet one, and its flag is set now
    rw [quietSlots_concat, fill_concat] at hquiet
    obtain ⟨b₁, hfront, hadd⟩ := exists_of_bind_eq_ok hquiet
    have hsize : b₁.size = (front ++ [last]).length - 1 := by
      rw [← length_filled, filled_of_fill_eq_ok hfront, length_quietSlots, List.length_append]
      rfl
    have hbehind : b₁.size < b₂.size := by
      rw [size_of_add_eq_ok hadd]
      exact Nat.lt_succ_self _
    obtain ⟨b₃, hset, hcapacity₃, -⟩ := exists_setLogits_eq_ok hbehind true
    refine ⟨b₃, ?_, hcapacity₃.trans hcapacity, ?_⟩
    · rw [chunkSlots, if_pos rfl, slotsFrom_concat, fill_concat, hfront]
      exact (setLogits_of_add hadd true).symm.trans hset
    · rw [stageChunk, hadded]
      dsimp only
      rw [if_pos rfl, ← hsize, hset]

end TokenBatch

/-! ## All parts -/

namespace Engine

variable {E : Engine}

/-- The slots of a prompt, cut where its tokens are. -/
theorem chunks_slotsFrom {n : Nat} (hn : 0 < n) {tokens : List Token} (hne : tokens ≠ [])
    (index : Nat) :
    chunks n (slotsFrom (index * n) tokens) =
      TokenBatch.chunkSlots (index * n) (decide (index = index + (tokens.length - 1) / n))
        (tokens.take n) :: chunks n (slotsFrom ((index + 1) * n) (tokens.drop n)) := by
  have hslots : slotsFrom (index * n) tokens ≠ [] := by
    intro hnil
    have hlength := congrArg List.length hnil
    rw [length_slotsFrom] at hlength
    exact hne (List.eq_nil_of_length_eq_zero hlength)
  rw [chunks_of_ne_nil hn hslots, drop_slotsFrom, Nat.succ_mul, TokenBatch.chunkSlots]
  congr 1
  rcases Nat.lt_or_ge n tokens.length with hmore | hall
  · -- another part follows
    have hdiv : 0 < (tokens.length - 1) / n := Nat.div_pos (by omega) hn
    rw [if_neg (by simp; omega), take_slotsFrom _ hmore]
  · have hdiv : (tokens.length - 1) / n = 0 := by
      have := List.length_pos_iff.2 hne
      exact Nat.div_eq_of_lt (by omega)
    rw [hdiv, if_pos (by simp), List.take_of_length_le hall,
      List.take_of_length_le (by rwa [length_slotsFrom])]

/-- The parts from number `index` on. -/
theorem submitChunks_eq {n : Nat} (tokens : List Token) (index : Nat) {batch : TokenBatch}
    (hcapacity : batch.capacity = n) (context : E.Context) (w : E.World) :
    E.submitChunks n (index + (tokens.length - 1) / n) ((chunks n tokens).zipIdx index) batch
        context w =
      E.submitAll (chunks n (slotsFrom (index * n) tokens)) batch context w := by
  have hn : 0 < n := hcapacity ▸ batch.capacity_pos
  induction hlength : tokens.length using Nat.strongRecOn
    generalizing tokens index batch context w with
  | ind length ih =>
  by_cases hne : tokens = []
  · rw [hne, slotsFrom, chunks_nil, chunks_nil]
    rfl
  subst hlength
  have hpos := List.length_pos_iff.2 hne
  have hpart : tokens.take n ≠ [] := by
    rw [← List.length_pos_iff, List.length_take]
    omega
  obtain ⟨b, hfill, hcapacity', hstage⟩ := TokenBatch.exists_stageChunk_eq (b := batch) hpart
    (by rw [List.length_take, hcapacity]; exact Nat.min_le_left _ _) (index * n)
    (decide (index = index + (tokens.length - 1) / n))
  rw [chunks_slotsFrom hn hne, chunks_of_ne_nil hn hne, List.zipIdx_cons, submitChunks, submitAll,
    submitSlots, hstage, hfill]
  dsimp only
  rcases E.submit b context w with ⟨e | _, context', w'⟩
  · rfl
  dsimp only
  rcases Nat.lt_or_ge n tokens.length with hmore | hall
  · have hlast : index + (tokens.length - 1) / n =
        index + 1 + ((tokens.drop n).length - 1) / n := by
      rw [List.length_drop, Nat.div_eq_sub_div hn (Nat.le_sub_one_of_lt hmore), Nat.sub_right_comm]
      omega
    rw [hlast]
    exact ih _ (by rw [List.length_drop]; omega) _ _ (hcapacity'.trans hcapacity) _ _ rfl
  · rw [List.drop_eq_nil_of_le hall, slotsFrom, chunks_nil, chunks_nil]
    rfl

/-- **A prompt goes to the engine as its slots do**, whatever the batch: part after part, each slot
at the position of its token, and the last one of all with a distribution. -/
theorem submitPrompt_eq (tokens : List Token) (batch : TokenBatch) (context : E.Context)
    (w : E.World) :
    E.submitPrompt tokens batch context w =
      E.submitAll (chunks batch.capacity (promptSlots tokens)) batch context w := by
  have h := submitChunks_eq tokens 0 (rfl : batch.capacity = _) context w
  rw [Nat.zero_add, Nat.zero_mul] at h
  exact h

end Engine
end LlmSession
