import LlmSession.Proofs.Engine.Filling
import LlmSession.Proofs.Session.Admission

/-!
# The size of the batch cannot be seen

How many tokens go to the engine at once is a matter of memory and speed.  It must not matter for
what is then in the cache, and a caller should not be able to tell it from the answer.  For a prompt
that fits this is no surprise.  For one that does not it is: the passes in front of the end have
been made, and the one that reaches the end fails, so that what is left depends on the size of the
batch unless the engine takes slots one by one.  For an engine that does
(`Engine.SlotCache`) a prompt is answered, and leaves slots in the cache, by rules that do not know
the batch (`PrefillReport.answer`, `PrefillReport.placed`).

## Main statements

* `Loaded.Prefills.answer_eq`: the rules.
* `Session.prefill_eq_of_batch`: two sessions that differ in their batches.
-/

namespace LlmSession

namespace PrefillReport

/-- The answer to a prompt on an engine that fails with `full` where it has no place. -/
def answer (report : PrefillReport) (rejectLongPrompts : Bool) (full : SessionError) :
    Except SessionError PrefillReport :=
  match report.refusal? rejectLongPrompts with
  | some e => .error e
  | none => if report.promptTokens ≤ report.contextSize then .ok report
    else .error (.decodeFailed full.failureDetail)

/-- The number of slots that such a prompt finds places for. -/
def placed (report : PrefillReport) (rejectLongPrompts : Bool) : Nat :=
  if (report.refusal? rejectLongPrompts).isSome then 0 else report.contextSize

theorem promptTokens_le_of_answer_eq_ok {report report' : PrefillReport} {rejectLongPrompts : Bool}
    {full : SessionError} (h : report.answer rejectLongPrompts full = .ok report') :
    report.promptTokens ≤ report.contextSize := by
  unfold answer at h
  split at h
  · exact nomatch h
  split at h
  · assumption
  · exact nomatch h

end PrefillReport

namespace Loaded

variable {E : Engine} {l l' : Loaded E} {rejectLongPrompts : Bool} {id : Nat} {prompt : String}
  {parseControl : Bool} {maxNewTokens : Nat} {w w' : E.World} {tokens : List Token}
  {answer : Except SessionError PrefillReport} (cache : E.SlotCache)

/-- **What becomes of a prompt that has tokens**, told without the batch. -/
theorem Prefills.answer_eq
    (hp : l.Prefills rejectLongPrompts id prompt parseControl maxNewTokens w (answer, l', w'))
    (htokens : l.promptTokens? prompt parseControl w = some tokens) (hne : tokens ≠ []) :
    let report := PrefillReport.ofCounts id tokens.length maxNewTokens
      (E.contextSize l.context).toNat
    answer = report.answer rejectLongPrompts cache.full ∧
      cache.records l'.context =
        cache.records l.context ++ (promptSlots tokens).take (report.placed rejectLongPrompts) := by
  intro report
  rcases hp.refused_or_tried htokens hne with
    ⟨e, hrefused, rfl, hcontext⟩ | ⟨htried, outcome, batch, w₁, -, hpasses, rfl⟩
  · have hanswer : report.answer rejectLongPrompts cache.full = .error e := by
      rw [PrefillReport.answer, hrefused]
    have hplaced : report.placed rejectLongPrompts = 0 := by
      rw [PrefillReport.placed, hrefused]
      rfl
    rw [hcontext, hanswer, hplaced, List.take_zero, List.append_nil]
    exact ⟨rfl, rfl⟩
  · have hfills : cache.Fills _ _ _ _ := Engine.SlotCache.fills_prompt hpasses
    have hplaced : report.placed rejectLongPrompts = (E.contextSize l.context).toNat := by
      rw [PrefillReport.placed, htried]
      rfl
    rw [PrefillReport.answer, htried, hplaced, hfills.records_eq, takeWhile_fits_promptSlots,
      hfills.outcome_eq, SessionError.asDecodeFailure_eq]
    refine ⟨?_, rfl⟩
    by_cases hfits : tokens.length ≤ (E.contextSize l.context).toNat
    · rw [if_pos (all_fits_promptSlots_iff.2 hfits)]
      exact (if_pos hfits).symm
    · rw [if_neg (mt all_fits_promptSlots_iff.1 hfits)]
      exact (if_neg hfits).symm

/-- The calls of a prompt that is in the cache: texts are read, then one pass is made for each
part, and then there is a distribution. -/
theorem Prefills.calls_eq {E : Engine} {l l' : Loaded E.recorded} {w w' : E.recorded.World}
    {report : PrefillReport} (cache : E.recorded.SlotCache)
    (hp : l.Prefills rejectLongPrompts id prompt parseControl maxNewTokens w (.ok report, l', w'))
    (htokens : l.promptTokens? prompt parseControl w = some tokens) :
    cache.ready l'.context = true ∧
      ∃ reads, (∀ call ∈ reads, call.IsReading) ∧ Engine.callsIn w' = Engine.callsIn w ++ reads ++
        (chunks l.batch.capacity (promptSlots tokens)).map fun slots => .decode slots true := by
  cases hp with
  | begun hstop hread hne hreport htried hpasses =>
    rw [promptTokens?_eq_some hstop hread] at htokens
    cases htokens
    obtain ⟨reads, hreads, hall⟩ :=
      (onlyGot_of_prepareStop (P := EngineCall.IsReading) (fun _ _ => trivial) hstop).trans
        (Engine.onlyGot_of_one (Engine.callsIn_of_tokenize hread) trivial)
    refine ⟨Engine.SlotCache.ready_of_prompt hne hpasses, reads, hall, ?_⟩
    rw [Engine.callsIn_of_submitAll_eq_ok hpasses, hreads]

end Loaded

namespace Session

variable {E : Engine} {prompt : String} {parseControl : Bool} {tokens : List Token}

/-- **A prompt in parts is the prompt as a whole.**  Two sessions with empty caches of one size may
differ in their batches, and in their worlds.  To a prompt that has the same tokens for both they
give the same answer, and they are left with the same slots in their caches, in the same order, also
if the prompt is refused, and if it finds places for some of its tokens only.  One of the batches
may well have room for the whole prompt.

If the turn begins, so many passes were made as it takes to hand over that many tokens with a batch
of that size.  None was empty, none was longer than the batch, and of all their slots only the one
at the last position asked for a distribution, which is there to draw from. -/
theorem prefill_eq_of_batch (cache : E.SlotCache) {s s' : Session E.recorded}
    {l l' : Loaded E.recorded} (hl : s.phase = .loaded l) (hl' : s'.phase = .loaded l')
    (hreject : s'.options.rejectLongPrompts = s.options.rejectLongPrompts)
    (hid : s'.nextTurnId = s.nextTurnId)
    (hsize : E.contextSize l'.context = E.contextSize l.context)
    (hempty : cache.records l.context = []) (hempty' : cache.records l'.context = [])
    (htokens : s.promptTokens? prompt parseControl = some tokens)
    (htokens' : s'.promptTokens? prompt parseControl = some tokens) (hne : tokens ≠ [])
    (maxNewTokens : Nat) :
    let n := tokens.length
    let capacity := l.batch.capacity
    let slots : List BatchSlot := tokens.mapIdx fun i token =>
      { token, pos := Int32.ofNat i, seqIds := [0], logits := decide (i + 1 = n) }
    let result := s.prefill prompt parseControl maxNewTokens
    let result' := s'.prefill prompt parseControl maxNewTokens
    let report : PrefillReport :=
      ⟨s.nextTurnId, n, n + maxNewTokens, (E.contextSize l.context).toNat⟩
    result'.1 = result.1 ∧ result.1 = report.answer s.options.rejectLongPrompts cache.full ∧
    ∃ after after', result.2.phase = .loaded after ∧ result'.2.phase = .loaded after' ∧
      cache.records after'.context = cache.records after.context ∧
      cache.records after.context = slots.take (report.placed s.options.rejectLongPrompts) ∧
      (∀ told, result.1 = .ok told → cache.ready after.context = true ∧
        ∃ (reads : List EngineCall) (passes : List (List BatchSlot)),
          (∀ call ∈ reads, call.IsReading) ∧ PromptPasses capacity n passes ∧
          passes.flatten = slots ∧
          result.2.calls = s.calls ++ reads ++ passes.map fun slots => .decode slots true) := by
  intro n capacity slots result result' report
  have hslots : promptSlots tokens = slots := promptSlots_eq_mapIdx tokens
  obtain ⟨after, hafter, hp⟩ := exists_prefills_of_loaded hl prompt parseControl maxNewTokens
  obtain ⟨after', hafter', hp'⟩ := exists_prefills_of_loaded hl' prompt parseControl maxNewTokens
  rw [promptTokens?_of_loaded hl] at htokens
  rw [promptTokens?_of_loaded hl'] at htokens'
  obtain ⟨hanswer, hrecords⟩ := hp.answer_eq cache.recorded htokens hne
  obtain ⟨hanswer', hrecords'⟩ := hp'.answer_eq cache.recorded htokens' hne
  -- the rules speak of the same report for both
  rw [hreject, hid, show E.recorded.contextSize l'.context = E.contextSize l.context from hsize]
    at hanswer' hrecords'
  rw [show cache.recorded.records l.context = [] from hempty, List.nil_append] at hrecords
  rw [show cache.recorded.records l'.context = [] from hempty', List.nil_append] at hrecords'
  refine ⟨hanswer'.trans hanswer.symm, hanswer, after, after', hafter, hafter',
    hrecords'.trans hrecords.symm, hslots ▸ hrecords, fun told htold => ?_⟩
  have hfits : tokens.length ≤ (E.contextSize l.context).toNat :=
    PrefillReport.promptTokens_le_of_answer_eq_ok (hanswer.symm.trans htold)
  rw [show (s.prefill prompt parseControl maxNewTokens).1 = .ok told from htold] at hp
  obtain ⟨hready, reads, hreads, hcalls⟩ := hp.calls_eq cache.recorded htokens
  exact ⟨hready, reads, _, hreads, promptPasses_chunks l.batch.capacity_pos hne hfits,
    (flatten_chunks _ _).trans hslots, hcalls⟩

/-- A cache of six places.  A prompt of five tokens goes to it in three passes, or in one.  Of a
prompt of nine tokens six are there when it fails, although the batch of two slots has then made
three passes that went well, and the batch that holds all of it none. -/
theorem prefill_eq_of_batch_of_two_slots :
    let script : Script := { contextSize := some 6 }
    let small := (observed (E := script.engine) { context := { batchCapacity := 2 } }
      ({} : Script.World)).after [.load "model"]
    let large := (observed (E := script.engine) {} ({} : Script.World)).after [.load "model"]
    let places := fun (s : Session script.engine.recorded) => s.loaded?.map fun l =>
      ((script.slotCache rfl).records l.context).map BatchSlot.place
    (small.prefill "abcd" false 8).1 = .ok ⟨1, 5, 13, 6⟩ ∧
      (large.prefill "abcd" false 8).1 = .ok ⟨1, 5, 13, 6⟩ ∧
      (small.prefill "abcdefgh" false 8).1 = .error (.decodeFailed "KV cache full") ∧
      (large.prefill "abcdefgh" false 8).1 = .error (.decodeFailed "KV cache full") ∧
      places (large.prefill "abcdefgh" false 8).2 = places (small.prefill "abcdefgh" false 8).2 ∧
      places (small.prefill "abcdefgh" false 8).2 =
        some (placesOf (Token.opening :: "abcde".toList.map fun c => .ofByte c.toUInt8)) := by
  intro script small large places
  have hsmall : small.loaded?.map (fun l => (script.engine.contextSize l.context,
      (script.slotCache rfl).records l.context)) = some (6, []) := by decide +kernel
  have hlarge : large.loaded?.map (fun l => (script.engine.contextSize l.context,
      (script.slotCache rfl).records l.context)) = some (6, []) := by decide +kernel
  obtain ⟨l, hloaded, hl⟩ := Option.map_eq_some_iff.1 hsmall
  obtain ⟨l', hloaded', hl'⟩ := Option.map_eq_some_iff.1 hlarge
  obtain ⟨hsize, hempty⟩ := Prod.mk.inj hl
  obtain ⟨hsize', hempty'⟩ := Prod.mk.inj hl'
  have hboth (prompt : String) (tokens : List Token)
      (htokens : small.promptTokens? prompt false = some tokens)
      (htokens' : large.promptTokens? prompt false = some tokens) (hne : tokens ≠ []) :=
    prefill_eq_of_batch (script.slotCache rfl) (phase_eq_of_loaded? hloaded)
      (phase_eq_of_loaded? hloaded') (by decide +kernel) (by decide +kernel)
      (hsize'.trans hsize.symm) hempty hempty' htokens htokens' hne 8
  obtain ⟨hfits, -⟩ := hboth "abcd" (Token.opening :: "abcd".toList.map fun c => .ofByte c.toUInt8)
    (by decide +kernel) (by decide +kernel) (List.cons_ne_nil _ _)
  obtain ⟨hfails, -, after, after', hafter, hafter', hsame, hrecords, -⟩ := hboth "abcdefgh"
    (Token.opening :: "abcdefgh".toList.map fun c => .ofByte c.toUInt8)
    (by decide +kernel) (by decide +kernel) (List.cons_ne_nil _ _)
  have hfive : (small.prefill "abcd" false 8).1 = .ok ⟨1, 5, 13, 6⟩ := by decide +kernel
  have hnine : (small.prefill "abcdefgh" false 8).1 = .error (.decodeFailed "KV cache full") := by
    decide +kernel
  refine ⟨hfive, hfits.trans hfive, hnine, hfails.trans hnine, ?_, ?_⟩
  · simp only [places, loaded?, hafter, hafter', Option.map_some, hsame]
  · simp only [places, loaded?, hafter, Option.map_some, hrecords, hsize]
    decide +kernel

end Session
end LlmSession
