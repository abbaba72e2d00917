import LlmSession.Cli.Program
import LlmSession.Engine.Scripted
import LlmSession.Proofs.Settings.Repair

/-!
# Settings from a file and from the command line

The settings of a file are repaired when they are loaded.  Then the command line changes them, and
they are repaired again, since what it asks for may be as bad as what a file says.  In between stand
settings of two origins, one part of which was repaired already.

## One repair is enough

The first repair makes no difference to the second.  Each field of the settings is repaired by
itself, and a command line gives a field a value of its own or leaves it; either way the last repair
has the last word.  So `Overrides.settings` is what one would write down if files were never
repaired: the settings as the file spells them (`SessionSettings.asSpelled`), changed, and repaired.

## Main statements

* `SessionSettings.ofFile_eq_map`, `Overrides.settings_eq_map`: where the repair stands.
* `Overrides.validate_apply_validate`: the repair before the changes makes no difference.
* `Overrides.repair_is_projection`: both, and what a session does with the result.
-/

namespace LlmSession

namespace SessionSettings

/-- The settings of a file as they are spelled in it.  No file stands for the defaults. -/
def asSpelled : FileState → Except StorageError SessionSettings
  | .missing => .ok {}
  | file =>
    match file.text with
    | .error e => .error e
    | .ok text =>
      match ofText? text with
      | some s => .ok s
      | none => .error .json

/-- A file gives what it spells, repaired. -/
theorem ofFile_eq_map (file : FileState) : ofFile file = (asSpelled file).map validate := by
  cases file with
  | missing =>
    -- the defaults are not repaired, and need no repair
    have hdefaults : validate {} = {} :=
      validate_eq_of_ofFile (show ofFile .missing = .ok {} from rfl)
    exact congrArg Except.ok hdefaults.symm
  | directory => rfl
  | file content =>
    simp only [ofFile, asSpelled]
    cases FileState.text (.file content) with
    | error e => rfl
    | ok text =>
      dsimp only
      cases ofText? text with
      | none => rfl
      | some s => rfl

end SessionSettings

/-- Of a value that is given and one that stands in for it, a projection has to be applied only to
what comes of them. -/
theorem apply_getD_apply {α : Type} {f : α → α} (hf : ∀ a, f (f a) = f a) (given : Option α)
    (a : α) : f (given.getD (f a)) = f (given.getD a) := by
  cases given with
  | none => exact hf a
  | some b => rfl

namespace Cli
namespace Overrides

/-- **The repair before the changes** makes no difference after the one that follows them. -/
theorem validate_apply_validate (o : Overrides) (s : SessionSettings) :
    (o.apply s.validate).validate = (o.apply s).validate := by
  have hthreads : (o.threads <|> s.threads.filter (· ≠ 0)).filter (· ≠ 0) =
      (o.threads <|> s.threads).filter (· ≠ 0) := by
    cases o.threads with
    | none => exact congrArg SessionSettings.threads s.validate_validate
    | some n => rfl
  have hcontext := apply_getD_apply (f := (max · minContextSize))
    (fun n => max_max_right n minContextSize) o.contextSize s.contextSize
  have htokens := apply_getD_apply (f := (orIfZero · 512))
    (orIfZero_orIfZero (show (512 : UInt64) ≠ 0 by decide)) o.maxTokens s.maxNewTokens
  simp only [apply, SessionSettings.validate, hthreads, hcontext, htokens, nonEmpty_nonEmpty,
    validMarkers_validMarkers, SamplerConfig.validate_validate,
    orIfZero_orIfZero (show (512 : UInt32) ≠ 0 by decide),
    orIfZero_orIfZero (show (1 : UInt32) ≠ 0 by decide)]

/-- The settings that the command line changes, as they are spelled. -/
def spelled (o : Overrides) (fileAt : String → FileState) (own : FileState) :
    Except StorageError SessionSettings :=
  match o.config with
  | some path => SessionSettings.asSpelled (fileAt path)
  | none =>
    match SessionSettings.asSpelled own with
    | .ok s => .ok s
    | .error _ => .ok {}

/-- **The settings that count** are those that are spelled, changed and then repaired. -/
theorem settings_eq_map (o : Overrides) (fileAt : String → FileState) (own : FileState) :
    o.settings fileAt own = (o.spelled fileAt own).map fun s => (o.apply s).validate := by
  unfold settings spelled
  cases o.config with
  | none =>
    simp only [SessionSettings.ofFileOrDefault, SessionSettings.ofFile_eq_map]
    cases SessionSettings.asSpelled own with
    | error e => rfl
    | ok s => exact congrArg Except.ok (o.validate_apply_validate s)
  | some path =>
    simp only [SessionSettings.ofFile_eq_map]
    cases SessionSettings.asSpelled (fileAt path) with
    | error e => rfl
    | ok s => exact congrArg Except.ok (o.validate_apply_validate s)

/-- The settings that count are workable. -/
theorem workable_of_settings {o : Overrides} {fileAt : String → FileState} {own : FileState}
    {settings : SessionSettings} (h : o.settings fileAt own = .ok settings) :
    settings.Workable := by
  rw [settings_eq_map] at h
  cases hspelled : o.spelled fileAt own with
  | error e =>
    rw [hspelled] at h
    exact nomatch h
  | ok s =>
    rw [hspelled] at h
    obtain rfl : (o.apply s).validate = settings := Except.ok.inj h
    exact SessionSettings.workable_validate _

/-- **The repair is a projection, and changes go through it.**  What is repaired needs no repair,
and what needs none are the workable settings; what comes from a file is among them.  Settings that
were repaired, changed and repaired come to the same as if they had only been changed and repaired,
whatever the changes, and so the settings that count are those that the file spells, changed and
repaired.

With the result a session of any engine can be loaded, unless the engine fails to load the model or
to make the context: it has a batch with slots and sequences, as many as the settings say, its
context is asked for with at least 512 places, and has them if the engine does what it is asked for,
and there is a marker that is not empty. -/
theorem repair_is_projection :
    (∀ s : SessionSettings, s.validate.validate = s.validate) ∧
    (∀ s : SessionSettings, s.validate = s ↔ s.Workable) ∧
    (∀ file s, SessionSettings.ofFile file = .ok s → s.validate = s) ∧
    (∀ (o : Overrides) s, (o.apply s.validate).validate = (o.apply s).validate) ∧
    (∀ (o : Overrides) fileAt own, o.settings fileAt own =
      (o.spelled fileAt own).map fun s => (o.apply s).validate) ∧
    ∀ (o : Overrides) fileAt own settings, o.settings fileAt own = .ok settings →
      ∀ {E : Engine} (s : Session E), s.phase = .idle → s.options = settings.sessionOptions →
      ∀ path model context w₁ w₂,
        E.loadModel path s.options.gpuLayers s.world = (.ok model, w₁) →
        E.newContext model s.options.context w₁ = (.ok context, w₂) →
        ∃ l, (s.load path).1 = .ok l.summary ∧ (s.load path).2.phase = .loaded l ∧
          l.IsNew s.options ∧ l.context = context ∧
          l.batch.capacity = settings.batchCapacity.toNat ∧ 1 ≤ l.batch.capacity ∧
          l.batch.maxSequences = settings.maxSequences.toNat ∧ 1 ≤ l.batch.maxSequences ∧
          512 ≤ l.config.contextSize ∧ l.config.resolvedContextSize = l.config.contextSize ∧
          (E.contextSize l.context = l.config.resolvedContextSize → 512 ≤ E.contextSize l.context) ∧
          ∃ marker ∈ l.stop.markers, marker ≠ "" := by
  refine ⟨SessionSettings.validate_validate, fun s => SessionSettings.validate_eq_iff,
    fun file s => SessionSettings.validate_eq_of_ofFile, validate_apply_validate, settings_eq_map,
    ?_⟩
  intro o fileAt own settings hsettings E s hidle hoptions path model context w₁ w₂ hmodel hcontext
  have hworkable := workable_of_settings hsettings
  obtain ⟨l, hanswer, hl, hnew, hl'⟩ :=
    Session.load_of_workable hidle hoptions hworkable hmodel hcontext
  have hbatch := TokenBatch.shows_of_allocate hnew.batch_eq
  rw [hoptions] at hbatch
  have hconfig : l.config.contextSize = settings.contextSize := by
    rw [hnew.config_eq, hoptions]
    rfl
  have hplaces : minContextSize ≤ l.config.contextSize := by
    rw [hconfig]
    exact hworkable.contextSize
  have hresolved : l.config.resolvedContextSize = l.config.contextSize :=
    max_eq_left_iff_le.2 hplaces
  obtain ⟨marker, hmarker⟩ := List.exists_mem_of_ne_nil _ hworkable.stopMarkers
  have hne := hworkable.stopMarkers_ne marker hmarker
  refine ⟨l, hanswer, hl, hnew, hl', hbatch.capacity_eq, l.batch.capacity_pos,
    hbatch.maxSequences_eq, l.batch.maxSequences_pos, hplaces, hresolved, fun hsize => ?_, marker,
    ?_, hne⟩
  · rw [hsize, hresolved]
    exact hplaces
  · rw [hnew.stop_eq, hoptions]
    exact List.mem_filter.2 ⟨hmarker, decide_eq_true hne⟩

/-- A file asks for four threads, for a batch without slots and for a marker that is empty, and the
command line for no threads and for sixteen places.  The threads of the file are not taken again
when those of the command line go. -/
theorem repair_is_projection_of_useless_settings :
    let text := "\x7b\"threads\":4,\"batch_capacity\":0,\"stop_markers\":[\"\"]\x7d"
    let o : Overrides := { threads := some 0, contextSize := some 16 }
    let engine := ({} : Script).engine
    ∃ spelled settings, o.spelled (fun _ => .missing) (.file (Utf8.encode text)) = .ok spelled ∧
      spelled.threads = some 4 ∧ spelled.batchCapacity = 0 ∧ spelled.stopMarkers = [""] ∧
      o.settings (fun _ => .missing) (.file (Utf8.encode text)) = .ok settings ∧
      settings.threads = none ∧ settings.validate = settings ∧
      ∃ l, ((({ options := settings.sessionOptions, world := ({} : Script.World) } :
          Session engine).load "model").2).phase = .loaded l ∧
        l.batch.capacity = 512 ∧ l.config.contextSize = 512 ∧ l.stop.markers = defaultMarkers := by
  intro text o engine
  obtain ⟨s, htext, hs⟩ := Option.map_eq_some_iff.1 (show (SessionSettings.ofText? text).map
    (fun s => (s.threads, s.batchCapacity, s.stopMarkers)) = some (some 4, 0, [""]) by
      decide +kernel)
  obtain ⟨hthreads, hbatch, hmarkers⟩ : s.threads = some 4 ∧ s.batchCapacity = 0 ∧
      s.stopMarkers = [""] := by simpa using hs
  have hspelled : o.spelled (fun _ => .missing) (.file (Utf8.encode text)) = .ok s := by
    simp only [spelled, o, SessionSettings.asSpelled, FileState.text, Utf8.decode?_encode, htext]
  obtain ⟨-, -, -, -, hmap, hloads⟩ := repair_is_projection
  have hsettings := hmap o (fun _ => .missing) (.file (Utf8.encode text))
  rw [hspelled] at hsettings
  obtain ⟨l, -, hl, hnew, -, hcapacity, -⟩ := hloads o _ _ _ hsettings
    ({ options := (o.apply s).validate.sessionOptions, world := ({} : Script.World) } :
      Session engine) rfl rfl "model" _ _ _ _ rfl rfl
  refine ⟨s, _, hspelled, hthreads, hbatch, hmarkers, hsettings, rfl,
    SessionSettings.validate_validate _, l, hl, ?_, ?_, ?_⟩
  · rw [hcapacity]
    show (orIfZero s.batchCapacity 512).toNat = 512
    rw [hbatch]
    rfl
  · rw [hnew.config_eq]
    rfl
  · rw [hnew.stop_eq]
    show nonEmpty (validMarkers s.stopMarkers) = defaultMarkers
    rw [hmarkers]
    decide

end Overrides
end Cli
end LlmSession
