import LlmSession.Engine.Transcript
import LlmSession.Proofs.Engine.Cache
import LlmSession.Proofs.Engine.Room
import Mathlib.Data.List.TakeDrop
import Mathlib.Data.List.TakeWhile

/-!
# Filling a cache place by place

A prompt may be longer than a batch, and then it goes to the engine in several passes.  Whether that
can be seen afterwards depends on what a pass does that finds no place for one of its slots.  An
engine that refuses such a pass as a whole shows where the prompt was cut: what it holds is what the
passes before held.  An engine that takes the slots one by one, up to the first that has no place,
does not.  `Engine.SlotCache` is a reader for caches of the second kind.

## The law of a list of slots

For such an engine the outcome of several passes is a function of their slots in a row
(`Engine.SlotCache.Fills`).  It holds of one pass by the law of the engine, and of a pass that is
followed by others because of two facts about `List.takeWhile`: a list that it takes wholly lets it
go on to the next, and a list that it does not take wholly stops it.

## Main statements

* `Engine.SlotCache.fills_submitAll`: passes leave what their slots in a row say.
* `takeWhile_fits_promptSlots`: the slots of a prompt that a cache has places for.
* `promptPasses_chunks`: how many passes a prompt takes, how long they are, and which slot asks for
  a distribution.
* `Script.slotCache`: the reader for an engine that follows a script without failures.
-/

namespace LlmSession

/-- Whether a cache with so many places has one for the slot. -/
def BatchSlot.fits (size : UInt32) (slot : BatchSlot) : Bool :=
  decide (slot.position < size.toNat)

/-- A reader for caches to which a pass adds its slots one by one, up to the first that has no
place. -/
structure Engine.SlotCache (E : Engine) extends Engine.Cache E where
  /-- The error of a pass that finds no place for one of its slots. -/
  full : SessionError
  /-- Whether there is a distribution to draw from. -/
  ready : E.Context → Bool
  /-- A pass fails for want of a place, and for nothing else. -/
  failsPastEnd : E.FailsPastEnd
  /-- What a pass leaves that fails. -/
  of_decode_eq_error : ∀ {batch context w e context' w'}, batch.filled ≠ [] →
    E.decode batch context w = (.error e, context', w') → e = full ∧
      records context' = records context ++
        batch.filled.takeWhile (BatchSlot.fits (E.contextSize context))
  /-- A pass that goes well leaves a distribution if its last slot asks for one. -/
  ready_decode : ∀ {batch context w context' w'},
    E.decode batch context w = (.ok (), context', w') → ready context' = batch.lastWantsLogits

/-! ## The parts of a prompt -/

/-- There are as many parts as it takes. -/
theorem length_chunks {α : Type} {n : Nat} (hn : 0 < n) (as : List α) :
    (chunks n as).length = (as.length + n - 1) / n := by
  fun_induction chunks n as with
  | case1 =>
    rw [List.length_nil, List.length_nil, Nat.zero_add]
    exact (Nat.div_eq_of_lt (Nat.sub_lt hn Nat.one_pos)).symm
  | case2 a as ih =>
    have hdiv : (as.length + 1 + n - 1) / n = as.length / n + 1 := by
      rw [Nat.add_right_comm, Nat.add_sub_cancel, Nat.add_div_right _ hn]
    rw [List.length_cons, List.length_cons, ih, List.length_drop, hdiv]
    congr 1
    rcases Nat.lt_or_ge as.length (n - 1) with hshort | hlong
    · -- the part takes all that is left
      rw [Nat.sub_eq_zero_of_le hshort.le, Nat.zero_add,
        Nat.div_eq_of_lt (Nat.sub_lt hn Nat.one_pos),
        Nat.div_eq_of_lt (Nat.lt_of_lt_of_le hshort (Nat.sub_le n 1))]
    · rw [Nat.add_sub_assoc hn, Nat.sub_add_cancel hlong]

/-- Of the slots of a prompt a cache takes as many as it has places. -/
theorem takeWhile_fits_slotsFrom {size : UInt32} {pos : Nat} (hpos : pos ≤ size.toNat)
    (tokens : List Token) :
    (slotsFrom pos tokens).takeWhile (BatchSlot.fits size) =
      (slotsFrom pos tokens).take (size.toNat - pos) := by
  induction tokens generalizing pos with
  | nil => rw [slotsFrom, List.takeWhile_nil, List.take_nil]
  | cons token tokens ih =>
    have hplace := BatchSlot.position_ofToken_of_lt token tokens.isEmpty hpos
    rcases Nat.lt_or_eq_of_le hpos with hlt | heq
    · have hfits : BatchSlot.fits size (.ofToken token pos tokens.isEmpty) = true := by
        rw [BatchSlot.fits, hplace]
        exact decide_eq_true hlt
      rw [slotsFrom, List.takeWhile_cons_of_pos hfits, ih hlt,
        show size.toNat - pos = size.toNat - (pos + 1) + 1 by omega, List.take_succ_cons]
    · have hfull : ¬ BatchSlot.fits size (.ofToken token pos tokens.isEmpty) = true := by
        rw [BatchSlot.fits, hplace, heq, decide_eq_true_iff]
        exact Nat.lt_irrefl _
      rw [slotsFrom, List.takeWhile_cons_of_neg hfull, heq, Nat.sub_self, List.take_zero]

theorem takeWhile_fits_promptSlots (size : UInt32) (tokens : List Token) :
    (promptSlots tokens).takeWhile (BatchSlot.fits size) = (promptSlots tokens).take size.toNat :=
  takeWhile_fits_slotsFrom (Nat.zero_le _) tokens

/-- A cache has places for all of a prompt if it has as many places as the prompt has tokens. -/
theorem all_fits_promptSlots_iff {size : UInt32} {tokens : List Token} :
    (promptSlots tokens).all (BatchSlot.fits size) = true ↔ tokens.length ≤ size.toNat := by
  rw [List.all_eq_true, ← List.takeWhile_eq_self_iff, takeWhile_fits_promptSlots,
    List.take_eq_self_iff, promptSlots, length_slotsFrom]

/-- **One slot of a prompt asks for a distribution**, that of its last token. -/
theorem filter_logits_slotsFrom (pos : Nat) {tokens : List Token} (hne : tokens ≠ []) :
    ∃ token, (slotsFrom pos tokens).filter (·.logits) =
      [.ofToken token (pos + tokens.length - 1) true] := by
  induction tokens generalizing pos with
  | nil => exact absurd rfl hne
  | cons token tokens ih =>
    cases tokens with
    | nil => exact ⟨token, rfl⟩
    | cons next tokens =>
      obtain ⟨last, hlast⟩ := ih (pos + 1) (List.cons_ne_nil _ _)
      have hends : pos + 1 + (next :: tokens).length - 1 =
          pos + (token :: next :: tokens).length - 1 := by
        simp only [List.length_cons]
        omega
      rw [hends] at hlast
      exact ⟨last, hlast⟩

/-- Passes that hand over a prompt of `n` tokens with a batch of the given capacity. -/
structure PromptPasses (capacity n : Nat) (passes : List (List BatchSlot)) : Prop where
  /-- As many passes as it takes. -/
  length_eq : passes.length = (n + capacity - 1) / capacity
  /-- None is empty, none is too long. -/
  length_mem : ∀ slots ∈ passes, 1 ≤ slots.length ∧ slots.length ≤ capacity
  /-- One slot of all asks for a distribution, that at the last position. -/
  filter_logits : ∃ slot, passes.flatten.filter (·.logits) = [slot] ∧ slot.position = n - 1

theorem promptPasses_chunks {capacity : Nat} (hcapacity : 0 < capacity) {tokens : List Token}
    (hne : tokens ≠ []) {size : UInt32} (hfits : tokens.length ≤ size.toNat) :
    PromptPasses capacity tokens.length (chunks capacity (promptSlots tokens)) where
  length_eq := by rw [length_chunks hcapacity, promptSlots, length_slotsFrom]
  length_mem slots hslots :=
    ⟨List.length_pos_iff.2 (ne_nil_of_mem_chunks hslots),
      length_le_of_mem_chunks hcapacity hslots⟩
  filter_logits := by
    obtain ⟨token, hfilter⟩ := filter_logits_slotsFrom 0 hne
    rw [Nat.zero_add] at hfilter
    refine ⟨_, by rw [flatten_chunks]; exact hfilter, ?_⟩
    exact BatchSlot.position_ofToken_of_lt token true (Nat.le_trans (Nat.sub_le _ 1) hfits)

namespace Engine

variable {E : Engine} {batch batch' : TokenBatch} {context context' context₁ : E.Context}
  {w w' : E.World} {slots rest : List BatchSlot} {outcome : Except SessionError Unit}

namespace SlotCache

variable (cache : E.SlotCache)

/-- What passes over these slots leave, in however many passes they went. -/
structure Fills (slots : List BatchSlot) (context : E.Context)
    (outcome : Except SessionError Unit) (context' : E.Context) : Prop where
  contextSize_eq : E.contextSize context' = E.contextSize context
  records_eq : cache.records context' =
    cache.records context ++ slots.takeWhile (BatchSlot.fits (E.contextSize context))
  outcome_eq : outcome = if slots.all (BatchSlot.fits (E.contextSize context)) then .ok ()
    else .error cache.full.asDecodeFailure

variable {cache}

/-- Slots that went well can be followed by others. -/
theorem Fills.append (h : cache.Fills slots context (.ok ()) context₁)
    (hrest : cache.Fills rest context₁ outcome context') :
    cache.Fills (slots ++ rest) context outcome context' := by
  obtain ⟨hsize, hrecords, hok⟩ := h
  obtain ⟨hsize', hrecords', houtcome⟩ := hrest
  have hall : slots.all (BatchSlot.fits (E.contextSize context)) = true := by
    by_contra hsome
    rw [if_neg hsome] at hok
    exact nomatch hok
  have htaken : ∀ slot ∈ slots, BatchSlot.fits (E.contextSize context) slot = true :=
    List.all_eq_true.1 hall
  rw [hsize] at hsize' hrecords' houtcome
  refine ⟨hsize', ?_, ?_⟩
  · rw [hrecords', hrecords, List.takeWhile_eq_self_iff.2 htaken, List.append_assoc,
      List.takeWhile_append_of_pos htaken]
  · rw [houtcome, List.all_append, hall, Bool.true_and]

/-- Slots of which one finds no place are the end, whatever was to follow. -/
theorem Fills.append_of_error {e : SessionError} (h : cache.Fills slots context (.error e) context')
    (rest : List BatchSlot) : cache.Fills (slots ++ rest) context (.error e) context' := by
  obtain ⟨hsize, hrecords, herror⟩ := h
  have hsome : slots.all (BatchSlot.fits (E.contextSize context)) = false := by
    by_contra hall
    rw [if_pos (eq_true_of_ne_false hall)] at herror
    exact nomatch herror
  have hstops :
      (slots.takeWhile (BatchSlot.fits (E.contextSize context))).length ≠ slots.length := by
    intro hlength
    have hself := (List.takeWhile_prefix _).eq_of_length hlength
    rw [List.all_eq_true.2 (List.takeWhile_eq_self_iff.1 hself)] at hsome
    exact nomatch hsome
  refine ⟨hsize, ?_, ?_⟩
  · rw [hrecords, List.takeWhile_append, if_neg hstops]
  · rw [herror, List.all_append, hsome, Bool.false_and]

/-- **One pass** over slots that the batch has room for. -/
theorem fills_submitSlots (hne : slots ≠ []) (hroom : batch.HasRoom slots)
    (h : E.submitSlots slots batch context w = (outcome, batch', context', w')) :
    cache.Fills slots context outcome context' := by
  have hsize := cache.failsPastEnd.contextSize_submitSlots h
  obtain ⟨b, hfilled, -, -, -, heq⟩ := exists_submitSlots_eq hroom context w
  rw [heq, Prod.mk.injEq, Prod.mk.injEq] at h
  obtain ⟨rfl, rfl, h⟩ := h
  have hsubmit : E.submit b context w = ((E.submit b context w).1, context', w') := Prod.ext rfl h
  have hiff := cache.failsPastEnd.decode_eq_ok_iff b context w (by rwa [hfilled])
  have hall : slots.all (BatchSlot.fits (E.contextSize context)) = true ↔
      ∀ slot ∈ slots, slot.position < (E.contextSize context).toNat := by
    rw [List.all_eq_true]
    exact forall₂_congr fun slot _ => decide_eq_true_iff
  rw [hfilled, ← hall] at hiff
  rcases submit_cases hsubmit with ⟨hok, hdecode⟩ | ⟨e, herror, hdecode⟩
  · rw [hdecode] at hiff
    have hfits := hiff.1 rfl
    refine ⟨hsize, ?_, ?_⟩
    · rw [cache.records_decode hdecode, hfilled,
        List.takeWhile_eq_self_iff.2 (List.all_eq_true.1 hfits)]
    · rw [hok, if_pos hfits]
  · rw [hdecode] at hiff
    have hsome : ¬ slots.all (BatchSlot.fits (E.contextSize context)) = true :=
      fun hfits => nomatch hiff.2 hfits
    obtain ⟨rfl, hrecords⟩ := cache.of_decode_eq_error (by rwa [hfilled]) hdecode
    rw [hfilled] at hrecords
    exact ⟨hsize, hrecords, by rw [herror, if_neg hsome]⟩

/-- **Passes leave what their slots in a row say**, however they were cut. -/
theorem fills_submitAll {parts : List (List BatchSlot)} (hne : ∀ part ∈ parts, part ≠ [])
    (hroom : ∀ part ∈ parts, batch.HasRoom part)
    (h : E.submitAll parts batch context w = (outcome, batch', context', w')) :
    cache.Fills parts.flatten context outcome context' := by
  induction parts generalizing batch context w with
  | nil =>
    cases h
    exact ⟨rfl, (List.append_nil _).symm, rfl⟩
  | cons slots rest ih =>
    obtain ⟨hslots, hrest⟩ := List.forall_mem_cons.1 hne
    obtain ⟨hroom, hrooms⟩ := List.forall_mem_cons.1 hroom
    rw [List.flatten_cons]
    rcases submitAll_cons h with ⟨e, rfl, hpass⟩ | ⟨batch₁, context₁, w₁, hpass, hlater⟩
    · exact (fills_submitSlots hslots hroom hpass).append_of_error _
    · exact (fills_submitSlots hslots hroom hpass).append
        (ih hrest (fun part hpart => hasRoom_of_submitSlots hroom (hrooms part hpart) hpass) hlater)

/-- **The slots of a prompt**, in passes of the batch's size. -/
theorem fills_prompt {tokens : List Token}
    (h : E.submitAll (chunks batch.capacity (promptSlots tokens)) batch context w =
      (outcome, batch', context', w')) :
    cache.Fills (promptSlots tokens) context outcome context' := by
  have hfills : cache.Fills (chunks batch.capacity (promptSlots tokens)).flatten context outcome
      context' :=
    fills_submitAll (fun _ => ne_nil_of_mem_chunks) (fun _ => TokenBatch.hasRoom_of_mem_chunks) h
  rwa [flatten_chunks] at hfills

/-! ## What there is to draw from -/

theorem ready_of_submitSlots {slot : BatchSlot} (hlast : slots.getLast? = some slot)
    (h : E.submitSlots slots batch context w = (.ok (), batch', context', w')) :
    cache.ready context' = slot.logits := by
  rcases submitSlots_cases h with ⟨e, -, he, -, -⟩ | ⟨hfilled, hsubmit⟩
  · exact nomatch he
  rcases submit_cases hsubmit with ⟨-, hdecode⟩ | ⟨e, he, -⟩
  · rw [cache.ready_decode hdecode, TokenBatch.lastWantsLogits, hfilled, hlast]
  · exact nomatch he

/-- After passes that go well there is a distribution if the last slot of all asks for one. -/
theorem ready_of_submitAll {parts : List (List BatchSlot)} {slot : BatchSlot}
    (hne : ∀ part ∈ parts, part ≠ []) (hlast : parts.flatten.getLast? = some slot)
    (h : E.submitAll parts batch context w = (.ok (), batch', context', w')) :
    cache.ready context' = slot.logits := by
  induction parts generalizing batch context w with
  | nil => exact nomatch hlast
  | cons slots rest ih =>
    rcases submitAll_cons h with ⟨e, he, -⟩ | ⟨batch₁, context₁, w₁, hpass, hlater⟩
    · exact nomatch he
    rw [List.flatten_cons] at hlast
    cases rest with
    | nil =>
      rw [List.flatten_nil, List.append_nil] at hlast
      cases hlater
      exact ready_of_submitSlots hlast hpass
    | cons part rest =>
      obtain ⟨-, hrest⟩ := List.forall_mem_cons.1 hne
      refine ih hrest ?_ hlater
      have hpart : (part :: rest).flatten ≠ [] := by
        rw [List.flatten_cons]
        exact List.append_ne_nil_of_left_ne_nil (hrest part List.mem_cons_self) _
      rw [List.getLast?_append, List.getLast?_eq_some_getLast hpart, Option.some_or] at hlast
      rw [List.getLast?_eq_some_getLast hpart, hlast]

/-- After a prompt that went well there is a distribution. -/
theorem ready_of_prompt {n : Nat} {tokens : List Token} (hne : tokens ≠ [])
    (h : E.submitAll (chunks n (promptSlots tokens)) batch context w =
      (.ok (), batch', context', w')) : cache.ready context' = true := by
  obtain ⟨slot, hlast, hlogits⟩ := exists_getLast?_slotsFrom 0 hne
  rw [← hlogits]
  refine ready_of_submitAll (fun _ => ne_nil_of_mem_chunks) ?_ h
  rw [flatten_chunks]
  exact hlast

/-! ## The reader under observation -/

/-- A cache is read in the same way while the engine is observed. -/
def recorded (cache : E.SlotCache) : E.recorded.SlotCache where
  records := cache.records
  records_newContext := by
    intro model config w context w' h
    have hcontext : (E.newContext model config w.1).1 = .ok context := congrArg Prod.fst h
    exact cache.records_newContext (Prod.ext hcontext rfl)
  records_clearMemory := by
    intro full context w context' w' h
    have hcontext : (E.clearMemory full context w.1).1 = context' := congrArg Prod.fst h
    exact cache.records_clearMemory (Prod.ext hcontext rfl)
  records_decode := by
    intro batch context w context' w' h
    have hok : (E.decode batch context w.1).1 = .ok () := congrArg Prod.fst h
    have hcontext : (E.decode batch context w.1).2.1 = context' := congrArg (·.2.1) h
    exact cache.records_decode (Prod.ext hok (Prod.ext hcontext rfl))
  full := cache.full
  ready := cache.ready
  failsPastEnd := ⟨fun batch context w => cache.failsPastEnd.decode_eq_ok_iff batch context w.1,
    fun batch context w => cache.failsPastEnd.contextSize_decode batch context w.1⟩
  of_decode_eq_error := by
    intro batch context w e context' w' hne h
    have herror : (E.decode batch context w.1).1 = .error e := congrArg Prod.fst h
    have hcontext : (E.decode batch context w.1).2.1 = context' := congrArg (·.2.1) h
    exact cache.of_decode_eq_error hne (Prod.ext herror (Prod.ext hcontext rfl))
  ready_decode := by
    intro batch context w context' w' h
    have hok : (E.decode batch context w.1).1 = .ok () := congrArg Prod.fst h
    have hcontext : (E.decode batch context w.1).2.1 = context' := congrArg (·.2.1) h
    exact cache.ready_decode (Prod.ext hok (Prod.ext hcontext rfl))

end SlotCache
end Engine

/-! ## The cache of a script, place by place -/

/-- The reader for a scripted engine that is told no failures. -/
def Script.slotCache (s : Script) (h : s.failDecode = []) : s.engine.SlotCache where
  toCache := s.cache
  full := .decodeFailed "KV cache full"
  ready context := (show Script.Context from context).logitsReady
  failsPastEnd := failsPastEnd h
  of_decode_eq_error := by
    intro batch context w e context' w' hne hdecode
    have hcall : context.passes + 1 ∉ s.failDecode := h ▸ List.not_mem_nil
    have hfits : Context.holds context = BatchSlot.fits context.size := by
      funext slot
      exact decide_eq_decide.2 UInt32.lt_iff_toNat_lt
    simp only [engine, decode, if_neg hcall, List.isEmpty_eq_false_iff.2 hne,
      if_neg Bool.false_ne_true] at hdecode
    split at hdecode
    · exact nomatch hdecode
    · cases hdecode
      refine ⟨rfl, ?_⟩
      show (context.records ++ batch.filled.takeWhile (Context.holds context)).toList = _
      rw [hfits, Array.toList_appendList]
      rfl
  ready_decode := by
    intro batch context w context' w' hdecode
    simp only [engine, decode] at hdecode
    split at hdecode
    · exact nomatch hdecode
    split at hdecode
    · exact nomatch hdecode
    split at hdecode
    · cases hdecode
      show batch.filled.getLast?.any (·.logits) = batch.lastWantsLogits
      unfold TokenBatch.lastWantsLogits
      cases batch.filled.getLast? <;> rfl
    · exact nomatch hdecode

end LlmSession
