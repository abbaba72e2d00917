import LlmSession.Proofs.Engine.Room
import Mathlib.Data.List.Basic

/-!
# A batch is a bounded list

The slots of a batch are storage that is kept from one pass to the next.  Clearing sets a count
back, adding writes over what stands behind the count, and a flag is set in place.  So behind the
count there is nearly always something left of earlier passes: tokens, their sequences, flags that
ask for a distribution.

A caller is to see none of that.  For him a batch is a list that a token is added to as long as
there is room, and `BoundedSlots` is that list, with its bounds in its type.  The two are tied by
what the batch shows (`TokenBatch.Shows`).  Each call is answered alike by both and leaves the batch
showing what the list then is, and so does any number of calls.  The list knows nothing of what was
in it before it was emptied, and hence neither does the batch.

## Main statements

* `TokenBatch.Shows.stage`, `TokenBatch.Shows.stageAll`: one call, and any number of them.
* `TokenBatch.refines_boundedSlots`: what a batch answers and shows after any calls.
-/

namespace LlmSession

/-- A call that stages tokens for a pass. -/
inductive StagingCall where
  /-- One more token is staged. -/
  | add (slot : BatchSlot)
  /-- A token that was staged is to ask for a distribution, or not to. -/
  | setLogits (index : Nat) (logits : Bool)
  /-- A new pass begins. -/
  | clear
  deriving DecidableEq, Repr

/-- The answer to a call and what it leaves, which is the old if the call was refused. -/
def settle {α : Type} (old : α) : Except SessionError α → Except SessionError Unit × α
  | .ok new => (.ok (), new)
  | .error e => (.error e, old)

/-- The answers to calls, one after the other, and what they leave. -/
def stageAll {α : Type} (stage : α → StagingCall → Except SessionError Unit × α) (a : α) :
    List StagingCall → List (Except SessionError Unit) × α
  | [] => ([], a)
  | call :: calls =>
    ((stage a call).1 :: (stageAll stage (stage a call).2 calls).1,
      (stageAll stage (stage a call).2 calls).2)

theorem stageAll_append {α : Type} (stage : α → StagingCall → Except SessionError Unit × α) (a : α)
    (calls calls' : List StagingCall) :
    stageAll stage a (calls ++ calls') =
      ((stageAll stage a calls).1 ++ (stageAll stage (stageAll stage a calls).2 calls').1,
        (stageAll stage (stageAll stage a calls).2 calls').2) := by
  induction calls generalizing a with
  | nil => rfl
  | cons call calls ih => simp only [List.cons_append, stageAll, ih]

/-! ## The list -/

/-- A list of slots that has room for so many, each of which belongs to so many sequences at
most. -/
structure BoundedSlots where
  /-- The number of slots that there is room for. -/
  capacity : Nat
  /-- The number of sequences that a slot may belong to. -/
  maxSequences : Nat
  /-- The slots. -/
  slots : List BatchSlot := []
  /-- There are no more slots than there is room for. -/
  length_le : slots.length ≤ capacity := by exact Nat.zero_le _
  /-- No slot belongs to more sequences than it may. -/
  seqIds_le : ∀ slot ∈ slots, slot.seqIds.length ≤ maxSequences := by exact nofun

namespace BoundedSlots

/-- Adds a slot at the end.  A full list is the first reason to refuse, too many sequences the
second. -/
def add (m : BoundedSlots) (slot : BatchSlot) : Except SessionError BoundedSlots :=
  if hlength : m.slots.length < m.capacity then
    if hseq : slot.seqIds.length ≤ m.maxSequences then
      .ok { m with
        slots := m.slots ++ [slot]
        length_le := by rw [List.length_append]; exact hlength
        seqIds_le := by
          rw [List.forall_mem_append]
          exact ⟨m.seqIds_le, List.forall_mem_singleton.2 hseq⟩ }
    else .error (.tooManySequences m.maxSequences slot.seqIds.length)
  else .error (.capacityExceeded m.capacity)

/-- Overwrites the flag of the slot at an index, if the list has that slot. -/
def setLogits (m : BoundedSlots) (index : Nat) (logits : Bool) : Except SessionError BoundedSlots :=
  if h : index < m.slots.length then
    .ok { m with
      slots := m.slots.set index { m.slots[index] with logits }
      length_le := by rw [List.length_set]; exact m.length_le
      seqIds_le := by
        intro slot hslot
        rcases List.mem_or_eq_of_mem_set hslot with hslot | rfl
        · exact m.seqIds_le slot hslot
        · exact m.seqIds_le m.slots[index] (List.getElem_mem h) }
  else .error (.capacityExceeded m.slots.length)

/-- Makes one call. -/
def stage (m : BoundedSlots) : StagingCall → Except SessionError Unit × BoundedSlots
  | .add slot => settle m (m.add slot)
  | .setLogits index logits => settle m (m.setLogits index logits)
  | .clear => (.ok (), { capacity := m.capacity, maxSequences := m.maxSequences })

/-- No call changes the bounds. -/
theorem bounds_stage (m : BoundedSlots) (call : StagingCall) :
    (m.stage call).2.capacity = m.capacity ∧ (m.stage call).2.maxSequences = m.maxSequences := by
  cases call with
  | add slot =>
    rw [stage, add]
    split_ifs <;> exact ⟨rfl, rfl⟩
  | setLogits index logits =>
    rw [stage, setLogits]
    split_ifs <;> exact ⟨rfl, rfl⟩
  | clear => exact ⟨rfl, rfl⟩

theorem bounds_stageAll (m : BoundedSlots) (calls : List StagingCall) :
    (stageAll stage m calls).2.capacity = m.capacity ∧
      (stageAll stage m calls).2.maxSequences = m.maxSequences := by
  induction calls generalizing m with
  | nil => exact ⟨rfl, rfl⟩
  | cons call calls ih =>
    obtain ⟨hcapacity, hsequences⟩ := m.bounds_stage call
    obtain ⟨hcapacity', hsequences'⟩ := ih (m.stage call).2
    exact ⟨hcapacity'.trans hcapacity, hsequences'.trans hsequences⟩

end BoundedSlots

/-! ## The batch -/

namespace TokenBatch

variable {b : TokenBatch} {m : BoundedSlots}

/-- Makes one call. -/
def stage (b : TokenBatch) : StagingCall → Except SessionError Unit × TokenBatch
  | .add slot => settle b (b.add slot)
  | .setLogits index logits => settle b (b.setLogits index logits)
  | .clear => (.ok (), b.clear)

/-- What the batch shows is the list, and its bounds are those of the list. -/
structure Shows (b : TokenBatch) (m : BoundedSlots) : Prop where
  filled_eq : b.filled = m.slots
  capacity_eq : b.capacity = m.capacity
  maxSequences_eq : b.maxSequences = m.maxSequences

theorem Shows.size_eq (h : b.Shows m) : b.size = m.slots.length := by
  rw [← length_filled, h.filled_eq]

/-- Both refuse a slot for the same reason, or both take it. -/
theorem Shows.add (h : b.Shows m) (slot : BatchSlot) :
    (∃ e, b.add slot = .error e ∧ m.add slot = .error e) ∨
      ∃ b' m', b.add slot = .ok b' ∧ m.add slot = .ok m' ∧ b'.Shows m' := by
  by_cases hroom : b.size < b.capacity
  · by_cases hseq : slot.seqIds.length ≤ b.maxSequences
    · obtain ⟨b', hadd⟩ := exists_add_eq_ok hroom hseq
      obtain ⟨hcapacity, hsequences⟩ := capacity_of_add_eq_ok hadd
      have hfilled := filled_of_add_eq_ok hadd
      rw [h.size_eq, h.capacity_eq] at hroom
      rw [h.maxSequences_eq] at hseq
      refine Or.inr ⟨b', _, hadd, by rw [BoundedSlots.add, dif_pos hroom, dif_pos hseq], ?_⟩
      exact ⟨by rw [hfilled, h.filled_eq], hcapacity.trans h.capacity_eq,
        hsequences.trans h.maxSequences_eq⟩
    · refine Or.inl ⟨_, by rw [TokenBatch.add, dif_neg (Nat.not_le.2 hroom),
        if_pos (Nat.lt_of_not_le hseq)], ?_⟩
      rw [h.size_eq, h.capacity_eq] at hroom
      rw [h.maxSequences_eq] at hseq ⊢
      rw [BoundedSlots.add, dif_pos hroom, dif_neg hseq]
  · refine Or.inl ⟨_, by rw [TokenBatch.add, dif_pos (Nat.le_of_not_lt hroom)], ?_⟩
    rw [h.size_eq, h.capacity_eq] at hroom
    rw [BoundedSlots.add, dif_neg hroom, h.capacity_eq]

/-- Both refuse to set a flag for the same reason, or both set it. -/
theorem Shows.setLogits (h : b.Shows m) (index : Nat) (logits : Bool) :
    (∃ e, b.setLogits index logits = .error e ∧ m.setLogits index logits = .error e) ∨
      ∃ b' m', b.setLogits index logits = .ok b' ∧ m.setLogits index logits = .ok m' ∧
        b'.Shows m' := by
  by_cases hindex : index < b.size
  · obtain ⟨b', hset, hcapacity, hsequences⟩ := exists_setLogits_eq_ok hindex logits
    have hfilled := filled_of_setLogits_eq_ok hset
    rw [h.size_eq] at hindex
    refine Or.inr ⟨b', _, hset, by rw [BoundedSlots.setLogits, dif_pos hindex], ?_⟩
    refine ⟨?_, hcapacity.trans h.capacity_eq, hsequences.trans h.maxSequences_eq⟩
    rw [hfilled, h.filled_eq, List.modify_eq_set_get _ hindex]
    rfl
  · refine Or.inl ⟨_, by rw [TokenBatch.setLogits, if_pos (Nat.le_of_not_lt hindex)], ?_⟩
    rw [h.size_eq] at hindex
    rw [BoundedSlots.setLogits, dif_neg hindex, h.size_eq]

/-- What is left of a call that both refuse for the same reason, or both carry out. -/
theorem Shows.settle (h : b.Shows m) {made : Except SessionError TokenBatch}
    {listed : Except SessionError BoundedSlots}
    (hmade : (∃ e, made = .error e ∧ listed = .error e) ∨
      ∃ b' m', made = .ok b' ∧ listed = .ok m' ∧ b'.Shows m') :
    (settle b made).1 = (LlmSession.settle m listed).1 ∧
      (LlmSession.settle b made).2.Shows (LlmSession.settle m listed).2 := by
  rcases hmade with ⟨e, rfl, rfl⟩ | ⟨b', m', rfl, rfl, h'⟩
  · exact ⟨rfl, h⟩
  · exact ⟨rfl, h'⟩

/-- **One call** is answered alike, and leaves the batch showing the list. -/
theorem Shows.stage (h : b.Shows m) (call : StagingCall) :
    (b.stage call).1 = (m.stage call).1 ∧ (b.stage call).2.Shows (m.stage call).2 := by
  cases call with
  | add slot => exact h.settle (h.add slot)
  | setLogits index logits => exact h.settle (h.setLogits index logits)
  | clear => exact ⟨rfl, b.filled_clear, h.capacity_eq, h.maxSequences_eq⟩

/-- **Any number of calls.** -/
theorem Shows.stageAll (h : b.Shows m) (calls : List StagingCall) :
    (stageAll TokenBatch.stage b calls).1 = (LlmSession.stageAll BoundedSlots.stage m calls).1 ∧
      (LlmSession.stageAll TokenBatch.stage b calls).2.Shows
        (LlmSession.stageAll BoundedSlots.stage m calls).2 := by
  induction calls generalizing b m with
  | nil => exact ⟨rfl, h⟩
  | cons call calls ih =>
    obtain ⟨hanswer, hnext⟩ := h.stage call
    obtain ⟨hanswers, hlast⟩ := ih hnext
    exact ⟨congrArg₂ List.cons hanswer hanswers, hlast⟩

/-- A batch that was just allocated shows the empty list. -/
theorem shows_of_allocate {capacity embeddingWidth maxSequences : Nat}
    (h : allocate capacity embeddingWidth maxSequences = .ok b) :
    b.Shows { capacity, maxSequences } := by
  unfold allocate at h
  split_ifs at h
  obtain ⟨-, -, h⟩ := exists_of_bind_eq_ok h
  obtain ⟨-, -, h⟩ := exists_of_bind_eq_ok h
  obtain ⟨-, -, h⟩ := exists_of_bind_eq_ok h
  cases h
  exact ⟨rfl, rfl, rfl⟩

/-- A call that is refused leaves the batch as it is. -/
theorem stage_of_error {call : StagingCall} {e : SessionError} (h : (b.stage call).1 = .error e) :
    (b.stage call).2 = b := by
  have hsettle {made : Except SessionError TokenBatch} (hmade : (settle b made).1 = .error e) :
      (settle b made).2 = b := by
    cases made with
    | error e' => rfl
    | ok b' => exact nomatch hmade
  cases call with
  | add slot => exact hsettle h
  | setLogits index logits => exact hsettle h
  | clear => exact nomatch h

/-- **A batch is a bounded list.**  Whatever calls are made on a batch that was allocated, it
answers them as the list does, and shows what is in the list.  So it never shows more slots than its
capacity, which stays what it was, and none with more sequences than were asked for.  A call that it
refuses leaves it as it is.  After it was cleared it answers and shows as if it were new, whatever
was staged before. -/
theorem refines_boundedSlots {capacity embeddingWidth maxSequences : Nat}
    (h : allocate capacity embeddingWidth maxSequences = .ok b) (calls : List StagingCall) :
    let batch := LlmSession.stageAll stage b calls
    let list := LlmSession.stageAll BoundedSlots.stage { capacity, maxSequences } calls
    batch.1 = list.1 ∧ batch.2.filled = list.2.slots ∧
    batch.2.size = list.2.slots.length ∧ batch.2.isEmpty = list.2.slots.isEmpty ∧
    batch.2.lastWantsLogits = (list.2.slots.getLast?.map BatchSlot.logits).getD false ∧
    batch.2.capacity = capacity ∧ batch.2.maxSequences = maxSequences ∧
    batch.2.size ≤ capacity ∧ (∀ slot ∈ batch.2.filled, slot.seqIds.length ≤ maxSequences) ∧
    (∀ call e, (batch.2.stage call).1 = .error e → (batch.2.stage call).2 = batch.2) ∧
    ∀ before rest, calls = before ++ .clear :: rest →
      let fresh := LlmSession.stageAll stage b rest
      batch.2.filled = fresh.2.filled ∧
        batch.1 = (LlmSession.stageAll stage b before).1 ++ .ok () :: fresh.1 := by
  intro batch list
  have hfresh := shows_of_allocate h
  obtain ⟨hanswers, hshows⟩ := hfresh.stageAll calls
  obtain ⟨hcapacity, hsequences⟩ := BoundedSlots.bounds_stageAll { capacity, maxSequences } calls
  refine ⟨hanswers, hshows.filled_eq, hshows.size_eq, ?_, ?_, hshows.capacity_eq.trans hcapacity,
    hshows.maxSequences_eq.trans hsequences, ?_, ?_, fun call e => stage_of_error, ?_⟩
  · show (batch.2.size == 0) = list.2.slots.isEmpty
    rw [hshows.size_eq]
    cases list.2.slots <;> rfl
  · show batch.2.lastWantsLogits = _
    rw [lastWantsLogits, hshows.filled_eq]
    cases list.2.slots.getLast? <;> rfl
  · rw [hshows.size_eq]
    exact Nat.le_trans list.2.length_le (Nat.le_of_eq hcapacity)
  · rw [hshows.filled_eq]
    exact fun slot hslot => Nat.le_trans (list.2.seqIds_le slot hslot) (Nat.le_of_eq hsequences)
  · rintro before rest rfl
    -- what was staged before shows the list before it is emptied, which then is the new list
    have hbefore := (hfresh.stageAll before).2
    obtain ⟨hcapacity', hsequences'⟩ :=
      BoundedSlots.bounds_stageAll { capacity, maxSequences } before
    have hcleared : (LlmSession.stageAll stage b before).2.clear.Shows
        { capacity, maxSequences } :=
      ⟨filled_clear _, hbefore.capacity_eq.trans hcapacity',
        hbefore.maxSequences_eq.trans hsequences'⟩
    obtain ⟨hagain, hagainShows⟩ := hcleared.stageAll rest
    obtain ⟨hnew, hnewShows⟩ := hfresh.stageAll rest
    have hsplit : batch = ((LlmSession.stageAll stage b before).1 ++ .ok () ::
          (LlmSession.stageAll stage (LlmSession.stageAll stage b before).2.clear rest).1,
        (LlmSession.stageAll stage (LlmSession.stageAll stage b before).2.clear rest).2) :=
      stageAll_append stage b before (.clear :: rest)
    rw [hsplit]
    exact ⟨hagainShows.filled_eq.trans hnewShows.filled_eq.symm, by rw [hagain, hnew]⟩

/-- Room for two slots of one sequence each.  A third slot is refused for want of room although it
also has too many sequences, and so is a flag that there is no slot for.  After the batch was
cleared there is one slot again, over the storage of the first; the second is still in storage, and
its flag cannot be set. -/
theorem refines_boundedSlots_of_used_storage :
    let slot := fun (id : Int32) => BatchSlot.ofToken ⟨id⟩ 0 true
    let wide : BatchSlot := { slot 3 with seqIds := [0, 1] }
    let calls : List StagingCall := [.add (slot 1), .add (slot 2), .add wide, .setLogits 2 true,
      .clear, .add wide, .add (slot 4), .setLogits 1 false, .setLogits 0 false]
    ∃ b, allocate 2 0 1 = .ok b ∧
      (LlmSession.stageAll stage b calls).1 = [.ok (), .ok (), .error (.capacityExceeded 2),
        .error (.capacityExceeded 2), .ok (), .error (.tooManySequences 1 2), .ok (),
        .error (.capacityExceeded 1), .ok ()] ∧
      (LlmSession.stageAll stage b calls).2.filled = [{ slot 4 with logits := false }] := by
  intro slot wide calls
  have hroom : (allocate 2 0 1).isOk = true := by decide +kernel
  cases h : allocate 2 0 1 with
  | error e =>
    rw [h] at hroom
    exact nomatch hroom
  | ok b =>
    obtain ⟨hanswers, hfilled, -⟩ := refines_boundedSlots h calls
    refine ⟨b, rfl, hanswers.trans ?_, hfilled.trans ?_⟩
    · decide +kernel
    · decide +kernel

end TokenBatch
end LlmSession
