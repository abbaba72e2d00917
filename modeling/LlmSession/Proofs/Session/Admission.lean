import LlmSession.Proofs.Engine.Room
import LlmSession.Proofs.Session.Cache
import LlmSession.Proofs.Session.Draws
import LlmSession.Proofs.Session.TurnIds

/-!
# Prompts that are refused for their length

A session may be told to refuse a prompt if the turn could not have its full length in the cache.
It adds the new tokens to those of the prompt and compares the sum with the places that there are.
The refusal has an error of its own, and no other way to fail looks like it: a pass that fails is
worded as a failed pass, whatever the engine says about it, and no part of a prompt is too long for
the batch.

## The sum has to be a word

Both numbers are words of 64 bits, and so their sum has to be.  Nothing bounds the number of new
tokens, which a caller may set to the greatest word there is in order to have no limit.  Then there
is no sum, and the operation is given up where it would have been formed.  So nothing that has no
room is ever taken; but of the prompts that are to be refused as too long these are not, and it is
just these that are not (`promptTooLong_iff`, the third part).

## Main statements

* `Loaded.Prefills.admits`: what becomes of a prompt that has tokens.
* `Loaded.Prefills.onlyGot_isReading`: what is done for a prompt that is not tried.
* `Session.promptTooLong_iff`: which of them are refused.
-/

namespace LlmSession

namespace Loaded

variable {E : Engine} {l l' : Loaded E} {rejectLongPrompts : Bool} {id : Nat} {prompt : String}
  {parseControl : Bool} {maxNewTokens : Nat} {w w' : E.World} {tokens : List Token}
  {answer : Except SessionError PrefillReport}

/-- A prompt that has tokens is not tried, or it is, and then a pass may fail. -/
inductive Admits (rejectLongPrompts : Bool) (report : PrefillReport) :
    Except SessionError PrefillReport → Prop where
  | refused {e : SessionError} (hrefused : report.refusal? rejectLongPrompts = some e) :
    Admits rejectLongPrompts report (.error e)
  | failed {e : SessionError} (htried : report.refusal? rejectLongPrompts = none)
    (he : e.IsDecodeFailure) : Admits rejectLongPrompts report (.error e)
  | begun (htried : report.refusal? rejectLongPrompts = none) :
    Admits rejectLongPrompts report (.ok report)

/-- These are the tokens of a prompt, read once the stop tokens were there. -/
def Reads (l : Loaded E) (prompt : String) (parseControl : Bool) (w : E.World)
    (tokens : List Token) (w' : E.World) : Prop :=
  ∃ stop w₁, l.prepareStop w = (.ok stop, w₁) ∧
    E.tokenize l.context prompt true parseControl w₁ = (.ok tokens, w')

/-- A prompt that has tokens is not tried and leaves the context alone, or goes to the engine in
parts. -/
theorem Prefills.refused_or_tried
    (hp : l.Prefills rejectLongPrompts id prompt parseControl maxNewTokens w (answer, l', w'))
    (htokens : l.promptTokens? prompt parseControl w = some tokens) (hne : tokens ≠ []) :
    let report := PrefillReport.ofCounts id tokens.length maxNewTokens
      (E.contextSize l.context).toNat
    (∃ e, report.refusal? rejectLongPrompts = some e ∧ answer = .error e ∧
        l'.context = l.context) ∨
      report.refusal? rejectLongPrompts = none ∧ ∃ outcome batch w₁,
        l.Reads prompt parseControl w tokens w₁ ∧
          E.submitAll (chunks l.batch.capacity (promptSlots tokens)) l.batch l.context w₁ =
            (outcome, batch, l'.context, w') ∧ answer = outcome.map fun _ => report := by
  intro report
  cases hp with
  | unprepared hstop =>
    simp only [promptTokens?, hstop] at htokens
    cases htokens
  | unread hstop hread =>
    simp only [promptTokens?, hstop, hread] at htokens
    cases htokens
  | empty hstop hread =>
    rw [promptTokens?_eq_some hstop hread] at htokens
    exact absurd (Option.some.inj htokens).symm hne
  | refused hstop hread _ hreport hrefused =>
    rw [promptTokens?_eq_some hstop hread] at htokens
    cases htokens
    rw [hreport] at hrefused
    exact Or.inl ⟨_, hrefused, rfl, rfl⟩
  | lost hstop hread _ hreport htried hpasses =>
    rw [promptTokens?_eq_some hstop hread] at htokens
    cases htokens
    rw [hreport] at htried
    exact Or.inr ⟨htried, _, _, _, ⟨_, _, hstop, hread⟩, hpasses, rfl⟩
  | begun hstop hread _ hreport htried hpasses =>
    rw [promptTokens?_eq_some hstop hread] at htokens
    cases htokens
    rw [hreport] at htried ⊢
    exact Or.inr ⟨htried, _, _, _, ⟨_, _, hstop, hread⟩, hpasses, rfl⟩

/-- **What becomes of a prompt that has tokens.** -/
theorem Prefills.admits
    (hp : l.Prefills rejectLongPrompts id prompt parseControl maxNewTokens w (answer, l', w'))
    (htokens : l.promptTokens? prompt parseControl w = some tokens) (hne : tokens ≠ []) :
    Admits rejectLongPrompts
      (.ofCounts id tokens.length maxNewTokens (E.contextSize l.context).toNat) answer := by
  rcases hp.refused_or_tried htokens hne with
    ⟨e, hrefused, rfl, -⟩ | ⟨htried, e | _, batch, w₁, -, hpasses, rfl⟩
  · exact .refused hrefused
  · exact .failed htried (Engine.isDecodeFailure_of_prompt hpasses)
  · exact .begun htried

/-- A prompt that is not tried has been read, if at all, and no more. -/
theorem Prefills.onlyGot_isReading {E : Engine} {l l' : Loaded E.recorded}
    {w w' : E.recorded.World} {e : SessionError}
    (hp : l.Prefills rejectLongPrompts id prompt parseControl maxNewTokens w (.error e, l', w'))
    (he : ¬ e.IsDecodeFailure) :
    l'.context = l.context ∧ Engine.OnlyGot EngineCall.IsReading w w' := by
  have hread {stop : StopConditions} {w₁ w₂ : E.recorded.World}
      {outcome : Except SessionError (List Token)} (hstop : l.prepareStop w = (.ok stop, w₁))
      (htokens : E.recorded.tokenize l.context prompt true parseControl w₁ = (outcome, w₂)) :
      Engine.OnlyGot EngineCall.IsReading w w₂ :=
    (onlyGot_of_prepareStop (fun _ _ => trivial) hstop).trans
      (Engine.onlyGot_of_one (Engine.callsIn_of_tokenize htokens) trivial)
  cases hp with
  | unprepared hstop => exact ⟨rfl, onlyGot_of_prepareStop (fun _ _ => trivial) hstop⟩
  | unread hstop htokens => exact ⟨rfl, hread hstop htokens⟩
  | empty hstop htokens => exact ⟨rfl, hread hstop htokens⟩
  | refused hstop htokens _ _ _ => exact ⟨rfl, hread hstop htokens⟩
  | lost _ _ _ _ _ hpasses => exact absurd (Engine.isDecodeFailure_of_prompt hpasses) he

end Loaded

namespace Session

variable {E : Engine} {s : Session E} {l : Loaded E} {prompt : String} {parseControl : Bool}
  {tokens : List Token}

/-- The beginning of a turn, for a session that is loaded. -/
theorem exists_prefills_of_loaded (hl : s.phase = .loaded l) (prompt : String)
    (parseControl : Bool) (maxNewTokens : Nat) :
    ∃ l', (s.prefill prompt parseControl maxNewTokens).2.phase = .loaded l' ∧
      l.Prefills s.options.rejectLongPrompts s.nextTurnId prompt parseControl maxNewTokens s.world
        ((s.prefill prompt parseControl maxNewTokens).1, l',
          (s.prefill prompt parseControl maxNewTokens).2.world) := by
  have hp := l.prefills s.options.rejectLongPrompts s.nextTurnId prompt parseControl maxNewTokens
    s.world
  unfold prefill
  simp only [hl]
  rcases hr : l.prefill s.options.rejectLongPrompts s.nextTurnId prompt parseControl
    maxNewTokens s.world with ⟨e | report, l', w⟩
  · rw [hr] at hp
    exact ⟨l', rfl, hp⟩
  · rw [hr] at hp
    exact ⟨l', rfl, hp⟩

/-- A prompt that has tokens, for a session that is loaded. -/
theorem admits_of_loaded (hl : s.phase = .loaded l)
    (htokens : s.promptTokens? prompt parseControl = some tokens) (hne : tokens ≠ [])
    (maxNewTokens : Nat) :
    Loaded.Admits s.options.rejectLongPrompts
      (.ofCounts s.nextTurnId tokens.length maxNewTokens (E.contextSize l.context).toNat)
      (s.prefill prompt parseControl maxNewTokens).1 := by
  rw [promptTokens?_of_loaded hl] at htokens
  obtain ⟨l', -, hp⟩ := exists_prefills_of_loaded hl prompt parseControl maxNewTokens
  exact hp.admits htokens hne

/-- Refused for its length. -/
def IsTooLong (answer : Except SessionError PrefillReport) : Prop :=
  ∃ required available, answer = .error (.promptTooLong required available)

/-- A session that refuses long prompts does so if the sum is a word and there is no room for it. -/
theorem isTooLong_iff_of_admits {report : PrefillReport}
    {answer : Except SessionError PrefillReport} (h : Loaded.Admits true report answer) :
    IsTooLong answer ↔ report.required < twoTo 64 ∧ report.exceedsContext = true := by
  cases h with
  | refused hrefused =>
    rcases PrefillReport.refusal?_cases hrefused with ⟨rfl, hword⟩ | ⟨rfl, hword, -, hlong⟩
    · exact iff_of_false (fun ⟨_, _, h⟩ => nomatch h) fun h => Nat.not_lt.2 hword h.1
    · exact iff_of_true ⟨_, _, rfl⟩ ⟨hword, hlong⟩
  | failed htried he =>
    obtain ⟨-, hroom⟩ := PrefillReport.refusal?_eq_none_iff.1 htried
    refine iff_of_false ?_ fun h => Bool.eq_false_iff.1 (hroom rfl) h.2
    rintro ⟨required, available, h⟩
    cases h
    obtain ⟨detail, hdetail⟩ := he
    exact nomatch hdetail
  | begun htried =>
    obtain ⟨-, hroom⟩ := PrefillReport.refusal?_eq_none_iff.1 htried
    exact iff_of_false (fun ⟨_, _, h⟩ => nomatch h) fun h => Bool.eq_false_iff.1 (hroom rfl) h.2

/-- Any session gives the beginning of a turn up if the sum is no word. -/
theorem eq_overflow_iff_of_admits {rejectLongPrompts : Bool} {report : PrefillReport}
    {answer : Except SessionError PrefillReport}
    (h : Loaded.Admits rejectLongPrompts report answer) :
    answer = .error .overflow ↔ twoTo 64 ≤ report.required := by
  cases h with
  | refused hrefused =>
    rcases PrefillReport.refusal?_cases hrefused with ⟨rfl, hword⟩ | ⟨rfl, hword, -, -⟩
    · exact iff_of_true rfl hword
    · exact iff_of_false nofun (Nat.not_le.2 hword)
  | failed htried he =>
    refine iff_of_false ?_ (Nat.not_le.2 (PrefillReport.refusal?_eq_none_iff.1 htried).1)
    intro h
    cases h
    obtain ⟨detail, hdetail⟩ := he
    exact nomatch hdetail
  | begun htried =>
    exact iff_of_false nofun (Nat.not_le.2 (PrefillReport.refusal?_eq_none_iff.1 htried).1)

/-- What is said of a prompt that is too long. -/
theorem eq_promptTooLong_of_admits {rejectLongPrompts : Bool} {report : PrefillReport}
    {answer : Except SessionError PrefillReport}
    (h : Loaded.Admits rejectLongPrompts report answer) (hlong : IsTooLong answer) :
    answer = .error (.promptTooLong report.required report.contextSize) := by
  obtain ⟨required, available, rfl⟩ := hlong
  cases h with
  | refused hrefused =>
    rcases PrefillReport.refusal?_cases hrefused with ⟨h, -⟩ | ⟨h, -⟩
    · exact nomatch h
    · rw [h]
  | failed htried he =>
    obtain ⟨detail, h⟩ := he
    exact nomatch h

/-- What is said of a prompt that is taken, by a session that refuses long prompts. -/
theorem eq_of_admits_ok {report told : PrefillReport} (h : Loaded.Admits true report (.ok told)) :
    told = report ∧ report.exceedsContext = false := by
  cases h with
  | begun htried => exact ⟨rfl, (PrefillReport.refusal?_eq_none_iff.1 htried).2 rfl⟩

/-- **Which prompts are refused for their length.**  Those whose tokens and new tokens together are
more than the places of the cache, as long as their number is a word.  If it is not, the prompt is
not refused, although it could not have room in any cache, but the operation is given up in the
middle.  No prompt is taken that has no room, and the report on one that is taken says what it
needs.  For a prompt that has no room no pass is made, and the context stays as it is. -/
theorem promptTooLong_iff {s : Session E.recorded} {l : Loaded E.recorded}
    (hl : s.phase = .loaded l) (hreject : s.options.rejectLongPrompts = true)
    (htokens : s.promptTokens? prompt parseControl = some tokens) (hne : tokens ≠ [])
    (maxNewTokens : Nat) :
    let needed := tokens.length + maxNewTokens
    let places := (E.recorded.contextSize l.context).toNat
    let result := s.prefill prompt parseControl maxNewTokens
    (IsTooLong result.1 ↔ places < needed ∧ needed < twoTo 64) ∧
    (result.1 = .error .overflow ↔ twoTo 64 ≤ needed) ∧
    (places < needed ∧ ¬ IsTooLong result.1 ↔ twoTo 64 ≤ needed) ∧
    (∀ report, result.1 = .ok report →
      needed ≤ places ∧ report.required = needed ∧ report.exceedsContext = false) ∧
    (IsTooLong result.1 → result.1 = .error (.promptTooLong needed places)) ∧
    (places < needed →
      (∃ l', result.2.phase = .loaded l' ∧ l'.context = l.context ∧ l'.turn = none) ∧
      ∃ new, result.2.calls = s.calls ++ new ∧ ∀ call ∈ new, call.IsReading) := by
  intro needed places result
  have hadmits := admits_of_loaded hl htokens hne maxNewTokens
  rw [hreject] at hadmits
  have hlong : IsTooLong result.1 ↔ places < needed ∧ needed < twoTo 64 :=
    (isTooLong_iff_of_admits hadmits).trans (and_comm.trans (and_congr_left' decide_eq_true_iff))
  have hover : result.1 = .error .overflow ↔ twoTo 64 ≤ needed := eq_overflow_iff_of_admits hadmits
  have hplaces : places < twoTo 64 :=
    Nat.lt_trans (UInt32.toNat_lt _) (show 2 ^ 32 < twoTo 64 by decide)
  refine ⟨hlong, hover, ?_, ?_, eq_promptTooLong_of_admits hadmits, ?_⟩
  · rw [hlong]
    omega
  · intro told htold
    rw [show (s.prefill prompt parseControl maxNewTokens).1 = .ok told from htold] at hadmits
    obtain ⟨rfl, hroom⟩ := eq_of_admits_ok hadmits
    exact ⟨Nat.le_of_not_lt (of_decide_eq_false hroom), rfl, hroom⟩
  · intro hneeded
    obtain ⟨e, herror, he⟩ : ∃ e, result.1 = .error e ∧ ¬ e.IsDecodeFailure := by
      rcases Nat.lt_or_ge needed (twoTo 64) with hword | hword
      · obtain ⟨required, available, herror⟩ := hlong.2 ⟨hneeded, hword⟩
        exact ⟨_, herror, fun ⟨_, h⟩ => nomatch h⟩
      · exact ⟨_, hover.2 hword, fun ⟨_, h⟩ => nomatch h⟩
    obtain ⟨l', hl', hp⟩ := exists_prefills_of_loaded hl prompt parseControl maxNewTokens
    rw [show (s.prefill prompt parseControl maxNewTokens).1 = .error e from herror] at hp
    obtain ⟨hcontext, hcalls⟩ := hp.onlyGot_isReading he
    exact ⟨⟨l', hl', hcontext, hp.turn_of_error⟩, hcalls⟩

/-- A prompt of three tokens before a cache of 1024 places.  With 1021 new tokens it is taken, with
1022 it is refused, and with as many as a word can say it is neither. -/
theorem promptTooLong_iff_of_greatest_word :
    let script : Script := {}
    let s := (observed (E := script.engine) { rejectLongPrompts := true } ({} : Script.World)).after
      [.load "model"]
    let answer := fun maxNewTokens => (s.prefill "Hi" false maxNewTokens).1
    s.promptTokens? "Hi" false = some [.opening, .ofByte 0x48, .ofByte 0x69] ∧
      s.contextSize? = some 1024 ∧ s.options.rejectLongPrompts = true ∧
      answer 1021 = .ok ⟨1, 3, 1024, 1024⟩ ∧ answer 1022 = .error (.promptTooLong 1025 1024) ∧
      answer (twoTo 64 - 1) = .error .overflow ∧ ¬ IsTooLong (answer (twoTo 64 - 1)) := by
  intro script s answer
  have htokens : s.promptTokens? "Hi" false = some [.opening, .ofByte 0x48, .ofByte 0x69] := by
    decide +kernel
  have hsize : s.contextSize? = some 1024 := by decide +kernel
  have hreject : s.options.rejectLongPrompts = true := by decide +kernel
  obtain ⟨l, hloaded, hplaces⟩ := Option.map_eq_some_iff.1 hsize
  have hl : s.phase = .loaded l := phase_eq_of_loaded? hloaded
  have hneeds (n : Nat) := promptTooLong_iff hl hreject htokens (List.cons_ne_nil _ _) n
  rw [hplaces] at hneeds
  obtain ⟨hlong, -, -, -, herror, -⟩ := hneeds 1022
  obtain ⟨-, hover, hwrong, -⟩ := hneeds (twoTo 64 - 1)
  refine ⟨htokens, hsize, hreject, by decide +kernel, herror (hlong.2 ?_), hover.2 ?_,
    (hwrong.2 ?_).2⟩
  · decide
  · decide
  · decide

end Session
end LlmSession
