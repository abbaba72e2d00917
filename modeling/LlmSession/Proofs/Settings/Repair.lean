import LlmSession.Proofs.Batch.Staging
import LlmSession.Proofs.Session.Reloads
import LlmSession.Proofs.Settings.Persistence

/-!
# Settings that a session can work with

The repair of settings has a rule for each field: some values are replaced, some raised, some
clamped, and from a list some members are left out, after which the whole list may have to be
replaced.  `SessionSettings.Workable` says which settings need none of this.  It speaks of what the
settings are, and not of the rules.  A bit pattern that is no number is workable, since it is
neither below a bound nor above one.

## What a session needs

To load a model is to make a context, a batch and the conditions under which replies end.  An engine
may fail to make the context.  The batch is made here, and what it may fail for are its sizes: there
has to be a slot, and a sequence for it, and there have to be bytes for all of them.  Workable
settings have the first two, and any two words have the third.

## Main statements

* `SessionSettings.validate_eq_iff`: the settings that the repair leaves as they are.
* `TokenBatch.exists_allocate_eq_ok`: a batch whose sizes are words can be had.
* `Session.load_of_workable`: a load with workable settings fails only if the engine does.
-/

namespace LlmSession

/-! ## What needs no repair -/

/-- Neither below a range nor above it. -/
structure Binary32.Within (x lo hi : Binary32) : Prop where
  not_below : x.below lo = false
  not_above : hi.below x = false

theorem Binary32.clamp_eq_iff {lo hi x : Binary32} (h : hi.below lo = false) :
    clamp lo hi x = x ↔ x.Within lo hi := by
  refine ⟨fun heq => ?_, fun hx => clamp_of_not_below hx.not_below hx.not_above⟩
  rcases clamp_cases lo hi x with hhi | hlo | ⟨-, hlow, hhigh⟩
  · obtain rfl : x = hi := heq.symm.trans hhi
    exact ⟨h, below_self x⟩
  · obtain rfl : x = lo := heq.symm.trans hlo
    exact ⟨below_self x, h⟩
  · exact ⟨hlow, hhigh⟩

/-- The settings of a sampler that need no repair. -/
structure SamplerConfig.Workable (c : SamplerConfig) : Prop where
  temperature : c.temperature.Within .zero .two
  topP : c.topP.Within .zero .one
  minP : c.minP.Within .zero .one
  penaltyLastN : -1 ≤ c.penaltyLastN

theorem SamplerConfig.validate_eq_iff {c : SamplerConfig} : c.validate = c ↔ c.Workable := by
  have hlast : (if c.penaltyLastN < -1 then -1 else c.penaltyLastN) = c.penaltyLastN ↔
      -1 ≤ c.penaltyLastN := by
    split_ifs with h
    · exact ⟨fun heq => absurd heq.symm (Int32.ne_of_lt h),
        fun hle => absurd h (Int32.not_lt.2 hle)⟩
    · exact ⟨fun _ => Int32.not_lt.1 h, fun _ => rfl⟩
  have hone : Binary32.one.below .zero = false := rfl
  have htwo : Binary32.two.below .zero = false := rfl
  rcases c with ⟨temperature, topP, minP, penaltyLastN⟩
  simp only [validate, mk.injEq, Binary32.clamp_eq_iff hone, Binary32.clamp_eq_iff htwo, and_true]
  constructor
  · rintro ⟨htemperature, htopP, hminP, h⟩
    exact ⟨htemperature, htopP, hminP, hlast.1 h⟩
  · rintro ⟨htemperature, htopP, hminP, h⟩
    exact ⟨htemperature, htopP, hminP, hlast.2 h⟩

theorem nonEmpty_eq_iff {texts : List String} : nonEmpty texts = texts ↔ ∀ t ∈ texts, t ≠ "" := by
  simp [nonEmpty, List.filter_eq_self]

/-- A list of markers is left as it is if there are some and none is empty.  A list of empty ones is
not, for what takes its place has a marker. -/
theorem validMarkers_eq_iff {markers : List String} :
    validMarkers markers = markers ↔ markers ≠ [] ∧ ∀ m ∈ markers, m ≠ "" := by
  unfold validMarkers
  split_ifs with h
  · constructor
    · rintro rfl
      exact absurd h (by decide)
    · rintro ⟨hne, hall⟩
      rw [nonEmpty_eq_iff.2 hall] at h
      exact absurd h hne
  · rw [nonEmpty_eq_iff]
    refine ⟨fun hall => ⟨?_, hall⟩, And.right⟩
    rintro rfl
    exact h rfl

theorem orIfZero_eq_iff {α : Type} [DecidableEq α] [OfNat α 0] {n other : α} (h : other ≠ 0) :
    orIfZero n other = n ↔ n ≠ 0 := by
  unfold orIfZero
  split_ifs with hzero
  · exact ⟨fun heq => absurd (heq.trans hzero) h, fun hne => absurd hzero hne⟩
  · exact ⟨fun _ => hzero, fun _ => rfl⟩

theorem max_eq_left_iff_le {m n : UInt32} : max m n = m ↔ n ≤ m := by
  rw [← UInt32.toNat_inj, UInt32.toNat_max, UInt32.le_iff_toNat_le]
  omega

/-- The settings that need no repair. -/
structure SessionSettings.Workable (s : SessionSettings) : Prop where
  threads : s.threads ≠ some 0
  contextSize : minContextSize ≤ s.contextSize
  batchCapacity : s.batchCapacity ≠ 0
  maxSequences : s.maxSequences ≠ 0
  maxNewTokens : s.maxNewTokens ≠ 0
  stopMarkers : s.stopMarkers ≠ []
  stopMarkers_ne : ∀ m ∈ s.stopMarkers, m ≠ ""
  stopStrings_ne : ∀ t ∈ s.stopStrings, t ≠ ""
  sampler : s.sampler.Workable

namespace SessionSettings

/-- **What needs no repair** is what the repair leaves as it is. -/
theorem validate_eq_iff {s : SessionSettings} : s.validate = s ↔ s.Workable := by
  have hthreads : s.threads.filter (· ≠ 0) = s.threads ↔ s.threads ≠ some 0 := by
    cases s.threads with
    | none => simp
    | some n => by_cases h : n = 0 <;> simp [Option.filter, h]
  rcases s with ⟨threads⟩
  simp only [validate, mk.injEq, true_and, max_eq_left_iff_le, validMarkers_eq_iff,
    nonEmpty_eq_iff, SamplerConfig.validate_eq_iff,
    orIfZero_eq_iff (show (512 : UInt32) ≠ 0 by decide),
    orIfZero_eq_iff (show (1 : UInt32) ≠ 0 by decide),
    orIfZero_eq_iff (show (512 : UInt64) ≠ 0 by decide)]
  constructor
  · rintro ⟨ht, hcontext, hbatch, hsequences, htokens, hstrings, ⟨hmarkers, hmarkers'⟩, hsampler⟩
    exact ⟨hthreads.1 ht, hcontext, hbatch, hsequences, htokens, hmarkers, hmarkers', hstrings,
      hsampler⟩
  · rintro ⟨ht, hcontext, hbatch, hsequences, htokens, hmarkers, hmarkers', hstrings, hsampler⟩
    exact ⟨hthreads.2 ht, hcontext, hbatch, hsequences, htokens, hstrings, ⟨hmarkers, hmarkers'⟩,
      hsampler⟩

theorem workable_validate (s : SessionSettings) : s.validate.Workable :=
  validate_eq_iff.1 (validate_validate s)

end SessionSettings

/-! ## What a session needs -/

theorem reserve_eq_ok {what : String} {bytes : Nat} (h : bytes < twoTo 47) :
    reserve what bytes = .ok () := by
  have hle : twoTo 47 ≤ twoTo 63 := by decide
  rw [reserve, if_neg (by omega), if_neg (by omega)]

/-- **A batch can be had** if it has a slot and a sequence, and if its sizes are words. -/
theorem TokenBatch.exists_allocate_eq_ok {capacity maxSequences : Nat} (hcapacity : capacity ≠ 0)
    (hsequences : maxSequences ≠ 0) (hword : capacity < twoTo 32)
    (hword' : maxSequences < twoTo 32) : ∃ b, allocate capacity 0 maxSequences = .ok b := by
  have hsize : twoTo 32 = 4294967296 := rfl
  have hmemory : twoTo 47 = 140737488355328 := rfl
  have hnone : capacity * 0 * wordBytes < twoTo 47 := by
    rw [Nat.mul_zero, Nat.zero_mul]
    exact twoTo_pos 47
  have hslots : capacity * slotBytes < twoTo 47 := by
    rw [slotBytes]
    omega
  have hids : maxSequences * wordBytes < twoTo 47 := by
    rw [wordBytes]
    omega
  unfold allocate
  rw [dif_neg hcapacity, dif_neg hsequences,
    if_neg (Nat.not_le.2 (by rw [Nat.mul_zero]; exact twoTo_pos 64)), reserve_eq_ok hnone,
    reserve_eq_ok hslots, reserve_eq_ok hids]
  exact ⟨_, rfl⟩

namespace Session

variable {E : Engine} {s : Session E}

/-- **A load with workable settings** fails only if the engine does, and all that the session then
holds is made from the settings. -/
theorem load_of_workable {settings : SessionSettings} (hidle : s.phase = .idle)
    (hoptions : s.options = settings.sessionOptions) (hworkable : settings.Workable) {path : String}
    {model : E.Model} {context : E.Context} {w₁ w₂ : E.World}
    (hmodel : E.loadModel path s.options.gpuLayers s.world = (.ok model, w₁))
    (hcontext : E.newContext model s.options.context w₁ = (.ok context, w₂)) :
    ∃ l, (s.load path).1 = .ok l.summary ∧ (s.load path).2.phase = .loaded l ∧
      l.IsNew s.options ∧ l.context = context := by
  obtain ⟨batch, hbatch⟩ : ∃ batch, TokenBatch.allocate s.options.context.batchCapacity.toNat 0
      s.options.context.maxSequences.toNat = .ok batch := by
    rw [hoptions]
    exact TokenBatch.exists_allocate_eq_ok
      (fun h => hworkable.batchCapacity (UInt32.toNat_inj.1 h))
      (fun h => hworkable.maxSequences (UInt32.toNat_inj.1 h))
      settings.batchCapacity.toNat_lt settings.maxSequences.toNat_lt
  simp only [load, hidle, allocate, hmodel, hcontext, hbatch]
  exact ⟨_, rfl, rfl, ⟨rfl, hbatch, rfl, rfl⟩, rfl⟩

end Session
end LlmSession
