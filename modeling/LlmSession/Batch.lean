import LlmSession.Error
import LlmSession.Power

/-!
# The batch of one forward pass

A forward pass takes a bounded number of tokens, each at a position of its sequences.  A
`TokenBatch` stages them.  Its slots are storage that is kept and overwritten: `clear` only
sets the count of filled slots back, so what lies past the count is left over from earlier
passes.  The view of a batch is `filled`, the list of the filled slots in the order in which
they were added; nothing else of the storage may show.

## Reservations

A batch is asked for by size before anything is staged, and a size that could not be
reserved is refused.  Two bounds matter: one reservation holds fewer than `2 ^ 63` bytes,
and the address space ends at `2 ^ 47`.

## Main definitions

* `TokenBatch.allocate`: a batch of a given shape, or why there is none.
* `TokenBatch.filled`: the view.
* `TokenBatch.add`, `TokenBatch.setLogits`, `TokenBatch.clear`: the operations, with the view
  of each result.
* `TokenBatch.fill`: clears the batch and adds a list of slots.
-/

namespace LlmSession

/-- The id of a token in the model's vocabulary. -/
structure Token where
  /-- The number that the engine knows the token by. -/
  id : Int32
  deriving DecidableEq, Repr

/-- One token staged for a forward pass. -/
structure BatchSlot where
  /-- The token. -/
  token : Token
  /-- Its position in its sequences. -/
  pos : Int32
  /-- The sequences that it belongs to. -/
  seqIds : List Int32
  /-- Whether the pass should leave a distribution to sample from at this slot. -/
  logits : Bool
  deriving DecidableEq, Repr

/-! ## Reserving memory -/

/-- Refuses a reservation of too many bytes for `what`. -/
def reserve (what : String) (bytes : Nat) : Except SessionError Unit :=
  if twoTo 63 ≤ bytes then
    .error (.allocationFailed (what ++ ": memory allocation failed because " ++
      "the computed capacity exceeded the collection's maximum"))
  else if twoTo 47 ≤ bytes then
    .error (.allocationFailed (what ++ ": memory allocation failed because " ++
      "the memory allocator returned an error"))
  else .ok ()

/-- The bytes that one slot takes in storage. -/
def slotBytes : Nat := 40

/-- The bytes of one embedding value, and of one sequence id. -/
def wordBytes : Nat := 4

/-! ## Batches -/

/-- Staged tokens for one forward pass. -/
structure TokenBatch where
  /-- The number of tokens that one pass may hold. -/
  capacity : Nat
  /-- The number of sequences that one token may belong to. -/
  maxSequences : Nat
  /-- The number of embedding values for each slot; zero for a batch of token ids. -/
  embeddingWidth : Nat
  /-- The slots written so far, in this pass or in an earlier one. -/
  storage : Array BatchSlot := #[]
  /-- The number of slots filled for this pass. -/
  size : Nat := 0
  /-- The embedding values that were written, by index and in ascending order; the others
  are zero. -/
  embeddings : List (Nat × Float32) := []
  /-- A batch has room for a token. -/
  capacity_pos : 0 < capacity
  /-- A token may belong to a sequence. -/
  maxSequences_pos : 0 < maxSequences
  /-- The filled slots have been written. -/
  size_le_storage : size ≤ storage.size := by exact Nat.zero_le _
  /-- No more slots are written than one pass may hold. -/
  storage_le_capacity : storage.size ≤ capacity := by exact Nat.zero_le _

namespace TokenBatch

/-- The number of embedding values that the batch has room for. -/
def embeddingLength (b : TokenBatch) : Nat := b.capacity * b.embeddingWidth

/-- An empty batch of the given shape.  The embedding storage is asked for first, then the
slots, then each slot's sequence ids; the first refusal is the answer. -/
def allocate (capacity embeddingWidth maxSequences : Nat) : Except SessionError TokenBatch :=
  if hc : capacity = 0 then .error (.allocationFailed "batch with zero capacity")
  else if hs : maxSequences = 0 then
    .error (.allocationFailed "batch with zero sequences per slot")
  else if twoTo 64 ≤ capacity * embeddingWidth then
    .error (.allocationFailed "batch embeddings (size overflow)")
  else do
    reserve "batch embeddings" (capacity * embeddingWidth * wordBytes)
    reserve "batch slots" (capacity * slotBytes)
    reserve "batch seq ids" (maxSequences * wordBytes)
    return {
      capacity, maxSequences, embeddingWidth
      capacity_pos := Nat.pos_of_ne_zero hc
      maxSequences_pos := Nat.pos_of_ne_zero hs }

/-- The slots filled for this pass, in the order in which they were added. -/
def filled (b : TokenBatch) : List BatchSlot := b.storage.toList.take b.size

/-- Whether no slot is filled. -/
def isEmpty (b : TokenBatch) : Bool := b.size == 0

/-- Whether the last filled slot asks for a distribution. -/
def lastWantsLogits (b : TokenBatch) : Bool :=
  match b.filled.getLast? with
  | some slot => slot.logits
  | none => false

/-- Starts a new pass: no slot is filled. -/
def clear (b : TokenBatch) : TokenBatch :=
  { b with size := 0, size_le_storage := Nat.zero_le _ }

/-- Stages one more token.  A full batch is the first reason to refuse, too many sequences
the second. -/
@[inline] def add (b : TokenBatch) (slot : BatchSlot) : Except SessionError TokenBatch :=
  if hsize : b.capacity ≤ b.size then .error (.capacityExceeded b.capacity)
  else if b.maxSequences < slot.seqIds.length then
    .error (.tooManySequences b.maxSequences slot.seqIds.length)
  else if h : b.size < b.storage.size then
    .ok { b with
      storage := b.storage.set b.size slot h
      size := b.size + 1
      size_le_storage := by rw [Array.size_set]; omega
      storage_le_capacity := by rw [Array.size_set]; exact b.storage_le_capacity }
  else
    .ok { b with
      storage := b.storage.push slot
      size := b.size + 1
      size_le_storage := by
        have := b.size_le_storage
        rw [Array.size_push]; omega
      storage_le_capacity := by
        have := b.size_le_storage
        rw [Array.size_push]; omega }

/-- Sets whether an already filled slot asks for a distribution. -/
def setLogits (b : TokenBatch) (index : Nat) (logits : Bool) :
    Except SessionError TokenBatch :=
  if b.size ≤ index then .error (.capacityExceeded b.size)
  else .ok { b with
    storage := b.storage.modify index fun slot => { slot with logits }
    size_le_storage := by rw [Array.size_modify]; exact b.size_le_storage
    storage_le_capacity := by rw [Array.size_modify]; exact b.storage_le_capacity }

/-- Clears the batch and stages the given slots in their order. -/
def fill (b : TokenBatch) (slots : List BatchSlot) : Except SessionError TokenBatch :=
  slots.foldlM add b.clear

/-- Writes one embedding value; an index past the end changes nothing. -/
def setEmbedding (b : TokenBatch) (index : Nat) (value : Float32) : TokenBatch :=
  if index < b.embeddingLength then
    { b with
      embeddings := b.embeddings.takeWhile (fun e => decide (e.1 < index)) ++ (index, value) ::
        b.embeddings.dropWhile (fun e => decide (e.1 ≤ index)) }
  else b

/-- The sum of the embedding values, in their order. -/
def embeddingSum (b : TokenBatch) : Float32 :=
  b.embeddings.foldl (fun sum e => sum + e.2) 0

/-! ## The view of each operation -/

@[simp] theorem length_filled (b : TokenBatch) : b.filled.length = b.size := by
  have := b.size_le_storage
  simp only [filled, List.length_take, Array.length_toList]
  omega

@[simp] theorem filled_clear (b : TokenBatch) : b.clear.filled = [] := rfl

@[simp] theorem size_clear (b : TokenBatch) : b.clear.size = 0 := rfl

@[simp] theorem capacity_clear (b : TokenBatch) : b.clear.capacity = b.capacity := rfl

@[simp] theorem maxSequences_clear (b : TokenBatch) :
    b.clear.maxSequences = b.maxSequences := rfl

/-- A slot that is added stands after those that were there. -/
theorem filled_of_add_eq_ok {b b' : TokenBatch} {slot : BatchSlot} (h : b.add slot = .ok b') :
    b'.filled = b.filled ++ [slot] := by
  have hle := b.size_le_storage
  unfold add at h
  split at h
  · exact nomatch h
  split at h
  · exact nomatch h
  split at h
  · -- the slot takes the place of one that was left over
    rename_i hlt
    obtain rfl := Except.ok.inj h
    have hlen : b.size < b.storage.toList.length := by simpa using hlt
    simp only [filled, Array.toList_set]
    rw [List.take_set, List.take_succ_eq_append_getElem hlen,
      List.set_append_right _ _ (by rw [List.length_take]; omega)]
    have : b.size - (b.storage.toList.take b.size).length = 0 := by
      rw [List.length_take]; omega
    rw [this]
    rfl
  · -- the storage grows by the slot
    rename_i hlt
    obtain rfl := Except.ok.inj h
    have hsize : b.size = b.storage.toList.length := by simp; omega
    simp only [filled, Array.toList_push]
    rw [hsize, List.take_length, List.take_of_length_le (by simp)]

theorem capacity_of_add_eq_ok {b b' : TokenBatch} {slot : BatchSlot} (h : b.add slot = .ok b') :
    b'.capacity = b.capacity ∧ b'.maxSequences = b.maxSequences := by
  unfold add at h
  split at h
  · exact nomatch h
  split at h
  · exact nomatch h
  split at h <;> (obtain rfl := Except.ok.inj h; exact ⟨rfl, rfl⟩)

end TokenBatch
end LlmSession
