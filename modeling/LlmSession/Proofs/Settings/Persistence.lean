import LlmSession.Proofs.Json.Records
import LlmSession.Proofs.Text.WellFormed
import LlmSession.Storage

/-!
# Settings that are saved and loaded again

Settings that came from a file are repaired, and to repair them again changes nothing
(`SessionSettings.validate_validate`).  So they should come back from a file that they were saved
to, and they do, field by field, with one exception.

## The numbers that do not come back

A number in a file is read as a double and then narrowed, and a decimal past the greatest
single-precision number is narrowed to infinity.  Infinity has no spelling; it is saved as `null`,
and `null` is no number, so that the whole file cannot be loaded any more.  The repair keeps the
temperature and the two shares in their ranges, which are finite.  The three penalties it leaves as
they are.

## Main statements

* `SessionSettings.validate_validate`: what is repaired needs no repair.
* `SamplerConfig.ofJson?_toJson`, `SessionSettings.ofJson?_toJson`: what the spelling of settings
  spells.
* `SessionSettings.ofFile_saved_iff`: which settings come back from a file.
-/

namespace LlmSession

/-! ## What is repaired needs no repair -/

namespace Binary32

variable {lo hi x : Binary32}

theorem below_self (x : Binary32) : x.below x = false := by simp [below]

theorem clamp_cases (lo hi x : Binary32) :
    clamp lo hi x = hi ∨ clamp lo hi x = lo ∨
      clamp lo hi x = x ∧ x.below lo = false ∧ hi.below x = false := by
  unfold clamp
  dsimp only
  by_cases hlow : x.below lo = true
  · rw [if_pos hlow]
    split
    · exact Or.inl rfl
    · exact Or.inr (Or.inl rfl)
  · rw [if_neg hlow]
    split
    · exact Or.inl rfl
    · next hhigh =>
      exact Or.inr (Or.inr ⟨rfl, Bool.eq_false_iff.2 hlow, Bool.eq_false_iff.2 hhigh⟩)

/-- A number in the range is left as it is. -/
theorem clamp_of_not_below (hlow : x.below lo = false) (hhigh : hi.below x = false) :
    clamp lo hi x = x := by
  unfold clamp
  simp only [hlow, hhigh, Bool.false_eq_true, if_false]

theorem clamp_clamp (h : hi.below lo = false) (x : Binary32) :
    clamp lo hi (clamp lo hi x) = clamp lo hi x := by
  rcases clamp_cases lo hi x with heq | heq | ⟨heq, hlow, hhigh⟩
  · rw [heq]
    exact clamp_of_not_below h (below_self hi)
  · rw [heq]
    exact clamp_of_not_below (below_self lo) h
  · rw [heq, heq]

theorem natAbs_key (x : Binary32) : x.key.natAbs = x.magnitude := by
  unfold key
  split
  · rw [Int.natAbs_neg, Int.natAbs_natCast]
  · rw [Int.natAbs_natCast]

/-- **The repair of a number** gives a finite one, or none at all if there was none. -/
theorem isFinite_clamp (hlo : lo.isFinite = true) (hhi : hi.isFinite = true)
    (hnumber : (clamp lo hi x).isNaN = false) : (clamp lo hi x).isFinite = true := by
  rcases clamp_cases lo hi x with heq | heq | ⟨heq, hlow, hhigh⟩
  · rwa [heq]
  · rwa [heq]
  · rw [heq] at hnumber ⊢
    have hlo' : lo.magnitude < infinityMagnitude := of_decide_eq_true hlo
    have hhi' : hi.magnitude < infinityMagnitude := of_decide_eq_true hhi
    have hnan : lo.isNaN = false := decide_eq_false (by omega)
    have hnan' : hi.isNaN = false := decide_eq_false (by omega)
    simp only [below, hnumber, hnan, hnan', Bool.not_false, Bool.true_and,
      decide_eq_false_iff_not] at hlow hhigh
    have hkey := natAbs_key x
    have hkey' := natAbs_key lo
    have hkey'' := natAbs_key hi
    exact decide_eq_true (by omega)

end Binary32

@[simp] theorem SamplerConfig.validate_validate (c : SamplerConfig) :
    c.validate.validate = c.validate := by
  unfold validate
  congr 1
  · exact Binary32.clamp_clamp rfl c.temperature
  · exact Binary32.clamp_clamp rfl c.topP
  · exact Binary32.clamp_clamp rfl c.minP
  · split_ifs <;> simp_all

theorem nonEmpty_nonEmpty (texts : List String) : nonEmpty (nonEmpty texts) = nonEmpty texts := by
  simp [nonEmpty]

theorem validMarkers_validMarkers (markers : List String) :
    validMarkers (validMarkers markers) = validMarkers markers := by
  unfold validMarkers
  by_cases h : nonEmpty markers = []
  · rw [if_pos h]
    decide
  · rw [if_neg h, nonEmpty_nonEmpty, if_neg h]

theorem orIfZero_orIfZero {α : Type} [DecidableEq α] [OfNat α 0] {other : α} (h : other ≠ 0)
    (n : α) : orIfZero (orIfZero n other) other = orIfZero n other := by
  unfold orIfZero
  by_cases hzero : n = 0
  · rw [if_pos hzero, if_neg h]
  · rw [if_neg hzero, if_neg hzero]

theorem max_max_right (m n : UInt32) : max (max m n) n = max m n := by
  by_cases h : m ≤ n
  · have hmax : max m n = n := if_pos h
    rw [hmax]
    exact if_pos (UInt32.le_refl n)
  · have hmax : max m n = m := if_neg h
    rw [hmax, hmax]

namespace SessionSettings

/-- **What is repaired needs no repair.** -/
@[simp] theorem validate_validate (s : SessionSettings) : s.validate.validate = s.validate := by
  have hthreads : (s.threads.filter (· ≠ 0)).filter (· ≠ 0) = s.threads.filter (· ≠ 0) := by
    cases s.threads with
    | none => rfl
    | some n => by_cases h : n = 0 <;> simp [Option.filter, h]
  simp only [validate, hthreads, max_max_right, nonEmpty_nonEmpty, validMarkers_validMarkers,
    SamplerConfig.validate_validate,
    orIfZero_orIfZero (show (512 : UInt32) ≠ 0 by decide),
    orIfZero_orIfZero (show (1 : UInt32) ≠ 0 by decide),
    orIfZero_orIfZero (show (512 : UInt64) ≠ 0 by decide)]

/-- Settings that come from a file need no repair. -/
theorem validate_eq_of_ofFile {file : FileState} {s : SessionSettings} (h : ofFile file = .ok s) :
    s.validate = s := by
  unfold ofFile at h
  split at h
  · cases h
    decide +kernel
  · exact nomatch h
  · split at h
    · exact nomatch h
    · split at h
      · cases h
        exact validate_validate _
      · exact nomatch h

end SessionSettings

/-! ## What the spelling of settings spells -/

/-- The single-precision numbers of a sampler's settings. -/
def SamplerConfig.numbers (c : SamplerConfig) : List Binary32 :=
  [c.temperature, c.topP, c.minP, c.repeatPenalty, c.frequencyPenalty, c.presencePenalty]

theorem ite_some_bind {α β : Type} {p : Prop} [Decidable p] (a : α) (f : α → Option β) :
    (if p then some a else none).bind f = if p then f a else none := by
  split <;> rfl

/-- **The settings of a sampler** are read back if all their numbers are finite, and otherwise the
spelling spells none. -/
theorem SamplerConfig.ofJson?_toJson {c : SamplerConfig} (h : ∀ x ∈ c.numbers, x.ReadsBack) :
    ofJson? c.toJson = if ∀ x ∈ c.numbers, x.isFinite = true then some c else none := by
  simp only [numbers, List.forall_mem_cons, List.not_mem_nil, false_implies, implies_true,
    and_true] at h ⊢
  obtain ⟨htemperature, htopP, hminP, hrepeat, hfrequency, hpresence⟩ := h
  rw [ofJson?, toJson, Json.fields?_ofFields]
  · simp only [Option.bind_some, ofFields?, Json.Fields.get?, List.lookup_cons, BEq.rfl,
      String.reduceBEq, Json.toBinary32?_ofBinary32, htemperature, htopP, hminP, hrepeat,
      hfrequency, hpresence, Json.toInt32?_ofInt, Json.toUInt32?_ofNat, Option.pure_def,
      Option.bind_eq_bind, ite_some_bind, ite_and]
  · rfl
  · decide

theorem SamplerConfig.wellSpelled_toJson (c : SamplerConfig) : c.toJson.WellSpelled := by
  refine .object ?_
  simp only [List.forall_mem_cons, List.not_mem_nil, false_implies, implies_true, and_true]
  exact ⟨Json.wellSpelled_ofBinary32 _, Json.wellSpelled_ofBinary32 _,
    Json.wellSpelled_ofBinary32 _, Json.wellSpelled_ofInt _, Json.wellSpelled_ofBinary32 _,
    Json.wellSpelled_ofBinary32 _, Json.wellSpelled_ofBinary32 _, Json.wellSpelled_ofNat _⟩

namespace SessionSettings

variable {s : SessionSettings}

/-- **Settings** are read back if the numbers of the sampler are finite, and otherwise the spelling
spells none. -/
theorem ofJson?_toJson (h : ∀ x ∈ s.sampler.numbers, x.ReadsBack) :
    ofJson? s.toJson = if ∀ x ∈ s.sampler.numbers, x.isFinite = true then some s else none := by
  rw [ofJson?, toJson, Json.fields?_ofFields]
  · -- first the values of all fields, and then what is made of them
    rw [Option.bind_some]
    simp only [ofFields?, Json.Fields.get?, List.lookup_cons, BEq.rfl, String.reduceBEq,
      Json.toUInt32?_ofNat, Json.toUInt64?_ofNat, Json.choice?_ofString,
      LengthLimit.ofName?_name, Json.toBool?_bool, Json.toList?_array_map_ofString,
      Json.toString?_ofString, SamplerConfig.ofJson?_toJson h]
    refine (congrArg (Option.bind · _) (show _ = some s.threads from ?threads)).trans ?_
    case threads =>
      cases s.threads with
      | none => rfl
      | some n =>
        show (Json.ofNat n.toNat).toUInt32?.map some = _
        rw [Json.toUInt32?_ofNat, Option.map_some]
    by_cases hfinite : ∀ x ∈ s.sampler.numbers, x.isFinite = true
    · rw [if_pos hfinite, if_pos hfinite]
      rfl
    · rw [if_neg hfinite, if_neg hfinite]
      rfl
  · rfl
  · decide

theorem wellSpelled_toJson (s : SessionSettings) : s.toJson.WellSpelled := by
  have htexts (texts : List String) : (Json.array (texts.map .ofString)).WellSpelled := by
    refine .array fun v hv => ?_
    obtain ⟨text, -, rfl⟩ := List.mem_map.1 hv
    exact .text text
  refine .object ?_
  simp only [List.forall_mem_cons, List.not_mem_nil, false_implies, implies_true, and_true]
  refine ⟨?_, Json.wellSpelled_ofNat _, Json.wellSpelled_ofNat _, Json.wellSpelled_ofNat _,
    Json.wellSpelled_ofNat _, Json.wellSpelled_ofNat _, .text _, .bool _, .bool _, .bool _,
    htexts _, htexts _, .text _, s.sampler.wellSpelled_toJson⟩
  cases s.threads with
  | none => exact .null
  | some n => exact Json.wellSpelled_ofNat n.toNat

/-- The text of settings spells what their value does. -/
theorem ofText?_toText (s : SessionSettings) : ofText? s.toText = ofJson? s.toJson := by
  rw [ofText?, toText, s.wellSpelled_toJson.read?_indented, Option.bind_some]

/-- A file with a text in it. -/
theorem ofFile_encode (text : String) :
    ofFile (.file (Utf8.encode text)) =
      match ofText? text with
      | some s => .ok s.validate
      | none => .error .json := by
  cases htext : ofText? text with
  | none => simp only [ofFile, FileState.text, Utf8.decode?_encode, htext]
  | some s => simp only [ofFile, FileState.text, Utf8.decode?_encode, htext]

/-- A file that settings were saved to. -/
theorem ofFile_encode_toText (h : ∀ x ∈ s.sampler.numbers, x.ReadsBack) :
    ofFile (.file (Utf8.encode s.toText)) =
      if ∀ x ∈ s.sampler.numbers, x.isFinite = true then .ok s.validate else .error .json := by
  rw [ofFile_encode, ofText?_toText, ofJson?_toJson h]
  by_cases hfinite : ∀ x ∈ s.sampler.numbers, x.isFinite = true
  · rw [if_pos hfinite, if_pos hfinite]
  · rw [if_neg hfinite, if_neg hfinite]

/-- The temperature and the shares are finite numbers after the repair, if they are numbers. -/
theorem isFinite_of_validate_eq (h : s.validate = s) :
    ∀ x ∈ [s.sampler.temperature, s.sampler.topP, s.sampler.minP], x.isNaN = false →
      x.isFinite = true := by
  have hsampler : s.sampler.validate = s.sampler := congrArg SessionSettings.sampler h
  intro x hx hnumber
  simp only [List.mem_cons, List.not_mem_nil, or_false] at hx
  rcases hx with rfl | rfl | rfl
  all_goals
    rw [← hsampler] at hnumber ⊢
    exact Binary32.isFinite_clamp rfl rfl hnumber

/-- **Which settings come back from a file.**  Settings that were loaded can always be saved.  The
saved file gives them back, with every field as it was, exactly if all numbers of the sampler are
finite, and otherwise it cannot be loaded.  The temperature and the shares are finite as soon as
they are numbers at all; nothing keeps the penalties from being infinite. -/
theorem ofFile_saved_iff {file : FileState} {s : SessionSettings} (hloaded : ofFile file = .ok s)
    (hreads : ∀ x ∈ s.sampler.numbers, x.ReadsBack) :
    ∃ saved, s.saveTo .writable = .ok saved ∧
      (ofFile saved = .ok s ↔ ∀ x ∈ s.sampler.numbers, x.isFinite = true) ∧
      (ofFile saved ≠ .ok s → ofFile saved = .error .json) ∧
      ∀ x ∈ [s.sampler.temperature, s.sampler.topP, s.sampler.minP], x.isNaN = false →
        x.isFinite = true := by
  have hvalid := validate_eq_of_ofFile hloaded
  have hsaved := ofFile_encode_toText hreads
  rw [hvalid] at hsaved
  refine ⟨_, rfl, ?_, ?_, isFinite_of_validate_eq hvalid⟩
  · rw [hsaved]
    split_ifs with hfinite
    · exact ⟨fun _ => hfinite, fun _ => rfl⟩
    · exact ⟨nofun, fun h => absurd h hfinite⟩
  · rw [hsaved]
    split_ifs with hfinite
    · exact fun hne => absurd rfl hne
    · exact fun _ => rfl

theorem exists_ofFile_eq_ok {text : String} {numbers : List Binary32}
    (h : (ofText? text).map (fun s => s.validate.sampler.numbers) = some numbers) :
    ∃ s, ofFile (.file (Utf8.encode text)) = .ok s ∧ s.sampler.numbers = numbers := by
  obtain ⟨s, htext, hnumbers⟩ := Option.map_eq_some_iff.1 h
  exact ⟨s.validate, by rw [ofFile_encode, htext], hnumbers⟩

/-- The numbers of the first file are written with a point, with zeros and with an exponent, and
they come back.  A penalty of the second is past the greatest number, and nothing comes back. -/
theorem ofFile_saved_iff_of_infinite_penalty :
    let ordinary := "\x7b\"sampler\":\x7b\"min_p\":0.1,\"repeat_penalty\":1.5e-7\x7d\x7d"
    let beyond := "\x7b\"sampler\":\x7b\"repeat_penalty\":1e39\x7d\x7d"
    (∃ s saved, ofFile (.file (Utf8.encode ordinary)) = .ok s ∧ s.sampler.minP = ⟨0x3DCCCCCD⟩ ∧
      s.saveTo .writable = .ok saved ∧ ofFile saved = .ok s) ∧
    ∃ s saved, ofFile (.file (Utf8.encode beyond)) = .ok s ∧
      s.sampler.repeatPenalty = ⟨0x7F800000⟩ ∧ s.saveTo .writable = .ok saved ∧
      ofFile saved = .error .json := by
  intro ordinary beyond
  constructor
  · obtain ⟨s, hloaded, hnumbers⟩ := exists_ofFile_eq_ok (show (ofText? ordinary).map
      (fun s => s.validate.sampler.numbers) = some [⟨0x3F4CCCCD⟩, ⟨0x3F666666⟩, ⟨0x3DCCCCCD⟩,
        ⟨0x34210FB0⟩, ⟨0x3F800000⟩, ⟨0x3F800000⟩] by decide +kernel)
    obtain ⟨saved, hsaved, hiff, -⟩ :=
      ofFile_saved_iff hloaded (by rw [hnumbers]; decide +kernel)
    refine ⟨s, saved, hloaded, ?_, hsaved, hiff.2 (by rw [hnumbers]; decide)⟩
    exact Option.some.inj (congrArg (·[2]?) hnumbers)
  · obtain ⟨s, hloaded, hnumbers⟩ := exists_ofFile_eq_ok (show (ofText? beyond).map
      (fun s => s.validate.sampler.numbers) = some [⟨0x3F4CCCCD⟩, ⟨0x3F666666⟩, ⟨0x3D4CCCCD⟩,
        ⟨0x7F800000⟩, ⟨0x3F800000⟩, ⟨0x3F800000⟩] by decide +kernel)
    obtain ⟨saved, hsaved, hiff, herror, -⟩ :=
      ofFile_saved_iff hloaded (by rw [hnumbers]; decide +kernel)
    have hlost : ofFile saved ≠ .ok s := by
      rw [ne_eq, hiff, hnumbers]
      decide
    exact ⟨s, saved, hloaded, Option.some.inj (congrArg (·[3]?) hnumbers), hsaved, herror hlost⟩

end SessionSettings
end LlmSession
