import LlmSession.Proofs.Session.Admission
import LlmSession.Proofs.Session.Course

/-!
# What is foretold of a turn

The report on a turn that has begun says whether the turn may run out of places in the cache.  A
session can also be told to refuse such a turn beforehand.  Whether this comes true depends on the
engine, so it is asked of one that decides by the cache alone, and of a turn that nothing ends
earlier.

## The length that is not looked at

What is foretold adds the new tokens to those of the prompt.  That is the length of a turn, if its
length does not count the prompt, and then what is foretold comes true.  If the length does count
the prompt, the sum is more than the turn can need, because the prompt counts twice.  Between the
two lies a range of caches in which the turn has its full length although the opposite was foretold,
and in which it is refused although it has room.

## Main statements

* `Loaded.Undisturbed.of_drawsOn`: what the engine does for a turn that has room.
* `Session.contextSize?_stepped`: the cache keeps its size.
* `Session.forecast_iff`: when it comes true.
-/

namespace LlmSession

namespace Loaded

variable {E : Engine} {l l' : Loaded E} {limit : LengthLimit} {places : Nat} {t : Turn}
  {w w' : E.World}

theorem Steps.contextSize_eq (hE : E.FailsPastEnd) {outcome : Except SessionError Step}
    (hs : l.Steps limit t w (outcome, l', w')) :
    E.contextSize l'.context = E.contextSize l.context := by
  cases hs with
  | verdict hv => rfl
  | noBytes hv hd => rfl
  | marker hv hd hm => rfl
  | taken hv hd hm hp => exact hE.contextSize_submitSlots hp
  | lost hv hd hm hp => exact hE.contextSize_submitSlots hp

/-- **A token that there is room for** is not disturbed. -/
theorem Undisturbed.of_drawsOn (hE : E.FailsPastEnd) (h : l.DrawsOn limit t w)
    (hplaces : (E.contextSize l.context).toNat = places) : l.Undisturbed places limit t w where
  toDrawsOn := h
  places_eq := hplaces
  decode_eq_ok hv _ hfill :=
    hE.decode_ofToken_eq_ok (TokenBatch.filled_of_fill_eq_ok hfill) (cursor_lt_of_verdict hv).2

section

variable {rejectLongPrompts : Bool} {id : Nat} {prompt : String} {parseControl : Bool}
  {maxNewTokens : Nat} {report : PrefillReport}

/-- A prompt that is in the cache has room there, and leaves the cache the size it had. -/
theorem Prefills.fits (hE : E.FailsPastEnd)
    (hp : l.Prefills rejectLongPrompts id prompt parseControl maxNewTokens w (.ok report, l', w')) :
    report.promptTokens ≤ report.contextSize ∧
      (E.contextSize l'.context).toNat = report.contextSize := by
  cases hp with
  | begun hstop htokens hne hreport htried hpasses =>
    obtain ⟨hlength, hsize⟩ := hE.length_le_of_prompt hpasses
    rw [hreport]
    exact ⟨hlength, congrArg UInt32.toNat hsize⟩

end

end Loaded

namespace Session

variable {E : Engine}

theorem contextSize?_perform_step (hE : E.FailsPastEnd) (s : Session E) :
    (s.perform .step).2.contextSize? = s.contextSize? := by
  by_cases hrun : ∃ l t, s.phase = .loaded l ∧ l.turn = some t ∧ t.finished = none
  · obtain ⟨l, t, hl, ht, hf⟩ := hrun
    obtain ⟨outcome, l', w', hstep, hdecode⟩ := decodeStep_of_running hl ht hf
    rw [perform, hdecode]
    simp only [contextSize?, loaded?, hl, Option.map_some, hstep.contextSize_eq hE]
  · have hsame : s.decodeStep.2 = s := by
      refine (decodeStep_of_not_running ?_).1
      rintro stop t ⟨l, hl, -, ht⟩ hf
      exact hrun ⟨l, t, hl, ht, hf⟩
    rw [perform, hsame]

/-- The cache keeps its size. -/
theorem contextSize?_stepped (hE : E.FailsPastEnd) (s : Session E) (k : Nat) :
    (s.stepped k).contextSize? = s.contextSize? := by
  induction k with
  | zero => rfl
  | succ k ih => rw [stepped_succ, contextSize?_perform_step hE, ih]

/-- **A turn that has begun** on the cache of such an engine runs without being disturbed. -/
theorem runs_of_failsPastEnd (hE : E.FailsPastEnd) {s₀ s : Session E} {prompt : String}
    {parseControl : Bool} {maxNewTokens : Nat} {report : PrefillReport}
    (hprefill : s₀.prefill prompt parseControl maxNewTokens = (.ok report, s))
    (hdraws : ∀ k, (s.stepped k).Meets Loaded.DrawsOn) :
    s.Runs ⟨s₀.options.lengthLimit, report.promptTokens, maxNewTokens, report.contextSize⟩ := by
  obtain ⟨l₀, l', -, hl', -, hp⟩ := exists_prefills_of_prefill hprefill
  obtain ⟨hfits, hplaces⟩ := hp.fits hE
  refine runs_of_prefill hprefill hfits fun k l hloaded t ht hf => ?_
  refine .of_drawsOn hE (hdraws k l hloaded t ht hf) ?_
  -- the size is what it was when the turn began
  have hbegun : s.contextSize? = some (E.contextSize l'.context) := by
    simp only [contextSize?, loaded?, hl', Option.map_some]
  have hlater : (s.stepped k).contextSize? = some (E.contextSize l.context) := by
    rw [contextSize?, hloaded]
    rfl
  rw [contextSize?_stepped hE, hbegun] at hlater
  exact (congrArg UInt32.toNat (Option.some.inj hlater).symm).trans hplaces

/-- A session like this one that refuses long prompts. -/
def refusing (s : Session E) : Session E :=
  { s with options := { s.options with rejectLongPrompts := true } }

/-- It refuses just the turns of which the report says that they may run out of places. -/
theorem isTooLong_refusing_iff {s₀ s : Session E} {prompt : String} {parseControl : Bool}
    {maxNewTokens : Nat} {report : PrefillReport}
    (hprefill : s₀.prefill prompt parseControl maxNewTokens = (.ok report, s)) :
    IsTooLong (s₀.refusing.prefill prompt parseControl maxNewTokens).1 ↔
      report.exceedsContext = true := by
  obtain ⟨l, l', hl, -, -, hp⟩ := exists_prefills_of_prefill hprefill
  obtain ⟨tokens, htokens, hne, hreport, hword⟩ := hp.exists_tokens
  have hread : s₀.refusing.promptTokens? prompt parseControl = some tokens :=
    (promptTokens?_of_loaded (s := s₀.refusing) hl prompt parseControl).trans htokens
  have hadmits := admits_of_loaded (s := s₀.refusing) hl hread hne maxNewTokens
  rw [hreport] at hword ⊢
  exact (isTooLong_iff_of_admits hadmits).trans (and_iff_right hword)

/-- **When it comes true** what is foretold of a turn.  The turn ends for its length if the cache
has places for that, and else for the cache.  If it ends for the cache, this was foretold.  The
converse holds unless the length counts the prompt, the cache has places for it, and the prompt
counted twice would be too much.  A session that refuses what may run out of places goes by what is
foretold. -/
theorem forecast_iff (hE : E.FailsPastEnd) {s₀ s : Session E} {prompt : String}
    {parseControl : Bool} {maxNewTokens : Nat} {report : PrefillReport}
    (hprefill : s₀.prefill prompt parseControl maxNewTokens = (.ok report, s))
    (hdraws : ∀ k, (s.stepped k).Meets Loaded.DrawsOn) :
    let limit := s₀.options.lengthLimit
    let length := if limit = .generated then report.promptTokens + maxNewTokens else maxNewTokens
    let ending := if length ≤ report.contextSize then StopReason.maxLength else .contextFull
    (∃ k, s.EndsWith (List.replicate k .step) ending) ∧
    (∀ k reason, s.EndsWith (List.replicate k .step) reason → reason = ending) ∧
    (ending = .contextFull → report.exceedsContext = true) ∧
    ((report.exceedsContext = true ↔ ending = .contextFull) ↔
      ¬ (limit = .absolute ∧ maxNewTokens ≤ report.contextSize ∧
        report.contextSize < report.promptTokens + maxNewTokens)) ∧
    (IsTooLong (s₀.refusing.prefill prompt parseControl maxNewTokens).1 ↔
      report.exceedsContext = true) := by
  intro limit length ending
  have hruns := runs_of_failsPastEnd hE hprefill hdraws
  obtain ⟨tokens, -, -, -, hrequired, -⟩ := exists_tokens_of_prefill hprefill
  have hforecast : report.exceedsContext = true ↔
      report.contextSize < report.promptTokens + maxNewTokens := by
    rw [PrefillReport.exceedsContext, decide_eq_true_iff, hrequired]
  have hending : ending = .contextFull ↔ report.contextSize < length := by
    show (if length ≤ report.contextSize then StopReason.maxLength else .contextFull) =
      .contextFull ↔ _
    split
    · next hle => exact iff_of_false nofun (Nat.not_lt.2 hle)
    · next hlt => exact iff_of_true rfl (Nat.lt_of_not_le hlt)
  refine ⟨⟨_, hruns.ends.2 _ (Nat.lt_succ_self _)⟩,
    fun k reason hends => (hruns.ends.1 k reason hends).1, ?_, ?_, isTooLong_refusing_iff hprefill⟩
  · rw [hending, hforecast]
    intro hlt
    refine Nat.lt_of_lt_of_le hlt ?_
    show (if limit = .generated then _ else _) ≤ _
    split
    · exact Nat.le_refl _
    · exact Nat.le_add_left _ _
  · rw [hending, hforecast]
    show (_ ↔ _ < if limit = .generated then _ else _) ↔ _
    cases hlimit : limit with
    | generated => exact iff_of_true Iff.rfl fun h => nomatch h.1
    | absolute =>
      rw [if_neg nofun]
      simp only [true_and]
      omega

/-- A turn of six tokens, three of which are its prompt, before a cache of eight places.  It is
foretold that it may run out of them, and a session that goes by that refuses it.  But it has its
full length. -/
theorem forecast_iff_of_prompt_counted_twice :
    let script : Script := { filler := .ofByte 0x61, contextSize := some 8 }
    let s₀ := ({ options := { lengthLimit := .absolute }, world := ({} : Script.World) } :
      Session script.engine).after [.load "model"]
    let s := (s₀.prefill "Hi" false 6).2
    let report : PrefillReport := ⟨1, 3, 9, 8⟩
    s₀.prefill "Hi" false 6 = (.ok report, s) ∧ report.exceedsContext = true ∧
      (∃ k, s.EndsWith (List.replicate k .step) .maxLength) ∧
      (∀ k reason, s.EndsWith (List.replicate k .step) reason → reason = .maxLength) ∧
      IsTooLong (s₀.refusing.prefill "Hi" false 6).1 := by
  intro script s₀ s report
  have hprefill : s₀.prefill "Hi" false 6 = (.ok report, s) :=
    prefill_eq_of_fst (by decide +kernel)
  have hE : script.engine.FailsPastEnd := Script.failsPastEnd rfl
  have hexceeds : report.exceedsContext = true := by decide
  have hbefore : ∀ k < 4, (s.stepped k).Meets Loaded.DrawsOn := by decide +kernel
  have hover : (s.stepped 4).turn?.map Turn.finished = some (some .maxLength) := by
    decide +kernel
  obtain ⟨t, ht, hf⟩ := Option.map_eq_some_iff.1 hover
  have hlimit : s₀.options.lengthLimit = .absolute := by decide +kernel
  obtain ⟨hends, honly, -, -, hrefused⟩ :=
    forecast_iff hE hprefill (meets_stepped hbefore ht hf)
  rw [hlimit] at hends honly
  exact ⟨hprefill, hexceeds, hends, honly, hrefused.2 hexceeds⟩

end Session
end LlmSession
