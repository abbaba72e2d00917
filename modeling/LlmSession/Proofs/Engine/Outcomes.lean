import LlmSession.Proofs.Engine.Room

/-!
# What the passes of an engine gave

A transcript says of a pass whether it was made.  Where the question is with which words a failure
reaches the caller, that is not enough.  `Engine.monitored` keeps for each pass what the engine
itself said, before anything else has seen it.

Passes that are made one after the other stop at the first that fails.  So what they gave is a
number of successes and, if they failed, one error at the end, and the error of them all is that one
as the error of a failed pass (`PassesGave`).  This is so for slots that the batch has room for; the
others never get to the engine.

## Main statements

* `Engine.passesGave_of_submitSlots`: one pass.
* `Engine.passesGave_of_submitAll`: one pass after the other.
* `Engine.FailsToRead`: the errors that an engine gives without any pass.
-/

namespace LlmSession

/-! ## The engine under observation -/

/-- The same engine, with what its passes gave beside its world, oldest first. -/
def Engine.monitored (E : Engine) : Engine where
  World := E.World × List (Except SessionError Unit)
  Model := E.Model
  Context := E.Context
  Sampler := E.Sampler
  loadModel path gpuLayers w :=
    let (outcome, world) := E.loadModel path gpuLayers w.1
    (outcome, world, w.2)
  newContext model config w :=
    let (outcome, world) := E.newContext model config w.1
    (outcome, world, w.2)
  newSampler config w :=
    let (sampler, world) := E.newSampler config w.1
    (sampler, world, w.2)
  tokenize context text addSpecial parseControl w :=
    let (outcome, world) := E.tokenize context text addSpecial parseControl w.1
    (outcome, world, w.2)
  decode batch context w :=
    let (outcome, context, world) := E.decode batch context w.1
    (outcome, context, world, w.2 ++ [outcome])
  sample sampler context w :=
    let (token, sampler, world) := E.sample sampler context w.1
    (token, sampler, world, w.2)
  clearMemory full context w :=
    let (context, world) := E.clearMemory full context w.1
    (context, world, w.2)
  detokenize := E.detokenize
  isEndOfGeneration := E.isEndOfGeneration
  contextSize := E.contextSize
  describe := E.describe
  name := E.name
  systemInfo := E.systemInfo
  clock w := E.clock w.1

/-- The outcomes of passes that stop at the first that fails, and what they amount to. -/
inductive PassesGave : List (Except SessionError Unit) → Except SessionError Unit → Prop where
  | nil : PassesGave [] (.ok ())
  | made {given : List (Except SessionError Unit)} {outcome : Except SessionError Unit}
    (h : PassesGave given outcome) : PassesGave (.ok () :: given) outcome
  | failed (e : SessionError) : PassesGave [.error e] (.error e.asDecodeFailure)

namespace PassesGave

variable {given made rest : List (Except SessionError Unit)} {outcome : Except SessionError Unit}
  {e : SessionError}

/-- **An error among the outcomes** is the last of them and the only one, and it is what comes of
them all. -/
theorem of_error (h : PassesGave (made ++ .error e :: rest) outcome) :
    rest = [] ∧ (∀ o ∈ made, o = .ok ()) ∧ outcome = .error e.asDecodeFailure := by
  induction made with
  | nil =>
    cases h with
    | failed e => exact ⟨rfl, nofun, rfl⟩
  | cons o made ih =>
    generalize hlater : made ++ .error e :: rest = later at h ih
    rw [List.cons_append, hlater] at h
    cases h with
    | made h =>
      obtain ⟨hrest, hmade, houtcome⟩ := ih h
      exact ⟨hrest, List.forall_mem_cons.2 ⟨rfl, hmade⟩, houtcome⟩
    | failed e' =>
      exact absurd hlater (List.append_ne_nil_of_right_ne_nil _ (List.cons_ne_nil _ _))

theorem eq_ok_of_made (h : PassesGave given outcome) (hmade : ∀ o ∈ given, o = .ok ()) :
    outcome = .ok () := by
  induction h with
  | nil => rfl
  | made _ ih => exact ih (List.forall_mem_cons.1 hmade).2
  | failed e => exact nomatch hmade _ (List.mem_singleton_self _)

theorem exists_of_eq_error (h : PassesGave given (.error e)) :
    ∃ cause, given.getLast? = some (.error cause) ∧ e = cause.asDecodeFailure := by
  generalize houtcome : Except.error e = outcome at h
  induction h with
  | nil => cases houtcome
  | @made given outcome h ih =>
    obtain ⟨cause, hlast, he⟩ := ih houtcome
    exact ⟨cause, by rw [List.getLast?_cons, hlast, Option.getD_some], he⟩
  | failed cause =>
    cases houtcome
    exact ⟨cause, rfl, rfl⟩

end PassesGave

namespace Engine

variable {E : Engine}

/-- What the passes gave so far, oldest first. -/
def outcomesIn (w : E.monitored.World) : List (Except SessionError Unit) :=
  (show E.World × List (Except SessionError Unit) from w).2

/-! ## Reading and spelling -/

/-- An error that the engine gives for a text that it cannot read, or for a token that it cannot
spell. -/
inductive FailsToRead (E : Engine) (e : SessionError) : Prop where
  | tokenize {context : E.Context} {text : String} {addSpecial parseControl : Bool}
    {w w' : E.World} (h : E.tokenize context text addSpecial parseControl w = (.error e, w'))
  | detokenize {context : E.Context} {token : Token} (h : E.detokenize context token = .error e)

theorem FailsToRead.of_monitored {e : SessionError} (h : E.monitored.FailsToRead e) :
    E.FailsToRead e := by
  cases h with
  | @tokenize context text addSpecial parseControl w _ h =>
    have hfst : (E.tokenize context text addSpecial parseControl
        (show E.World × List (Except SessionError Unit) from w).1).1 = .error e :=
      congrArg Prod.fst h
    exact .tokenize (Prod.ext hfst rfl)
  | detokenize h => exact .detokenize h

section

variable {w w' : E.monitored.World}

theorem outcomesIn_of_tokenize {context : E.monitored.Context} {text : String}
    {addSpecial parseControl : Bool} {outcome : Except SessionError (List Token)}
    (h : E.monitored.tokenize context text addSpecial parseControl w = (outcome, w')) :
    outcomesIn w' = outcomesIn w := by
  cases h
  rfl

theorem outcomesIn_of_decode {batch : TokenBatch} {context context' : E.monitored.Context}
    {outcome : Except SessionError Unit}
    (h : E.monitored.decode batch context w = (outcome, context', w')) :
    outcomesIn w' = outcomesIn w ++ [outcome] := by
  cases h
  rfl

end

/-! ## Passes -/

section

variable {batch batch' : TokenBatch} {context context' : E.monitored.Context}
  {w w' : E.monitored.World}

theorem passesGave_of_submit {outcome : Except SessionError Unit}
    (h : E.monitored.submit batch context w = (outcome, context', w')) :
    ∃ given, outcomesIn w' = outcomesIn w ++ [given] ∧ PassesGave [given] outcome := by
  rcases submit_cases h with ⟨rfl, hdecode⟩ | ⟨e, rfl, hdecode⟩
  · exact ⟨.ok (), outcomesIn_of_decode hdecode, .made .nil⟩
  · exact ⟨.error e, outcomesIn_of_decode hdecode, .failed e⟩

/-- **One pass** over slots that there is room for. -/
theorem passesGave_of_submitSlots {slots : List BatchSlot} {outcome : Except SessionError Unit}
    (hroom : batch.HasRoom slots)
    (h : E.monitored.submitSlots slots batch context w = (outcome, batch', context', w')) :
    ∃ given, outcomesIn w' = outcomesIn w ++ [given] ∧ PassesGave [given] outcome := by
  obtain ⟨b, -, -, -, -, heq⟩ := exists_submitSlots_eq hroom context w
  rw [heq, Prod.mk.injEq, Prod.mk.injEq] at h
  obtain ⟨rfl, -, h⟩ := h
  exact passesGave_of_submit (Prod.ext rfl h :
    E.monitored.submit b context w = ((E.monitored.submit b context w).1, context', w'))

/-- **One pass after the other**: all are made, or one fails and is the last. -/
theorem passesGave_of_submitAll {parts : List (List BatchSlot)} {outcome : Except SessionError Unit}
    (hroom : ∀ part ∈ parts, batch.HasRoom part)
    (h : E.monitored.submitAll parts batch context w = (outcome, batch', context', w')) :
    ∃ given, outcomesIn w' = outcomesIn w ++ given ∧ PassesGave given outcome := by
  induction parts generalizing batch context w with
  | nil =>
    cases h
    exact ⟨[], (List.append_nil _).symm, .nil⟩
  | cons slots rest ih =>
    obtain ⟨hslots, hrest⟩ := List.forall_mem_cons.1 hroom
    rcases submitAll_cons h with ⟨e, rfl, hfails⟩ | ⟨batch₁, context₁, w₁, hpass, hlater⟩
    · obtain ⟨given, hgiven, hgave⟩ := passesGave_of_submitSlots hslots hfails
      exact ⟨[given], hgiven, hgave⟩
    · obtain ⟨given, hgiven, hgave⟩ := passesGave_of_submitSlots hslots hpass
      obtain ⟨later, hmore, hgave'⟩ :=
        ih (fun part hpart => hasRoom_of_submitSlots hslots (hrest part hpart) hpass) hlater
      cases hgave with
      | made _ =>
        exact ⟨.ok () :: later, by rw [hmore, hgiven, List.append_assoc, List.singleton_append],
          hgave'.made⟩

/-- **A prompt** has room for each of its parts, so its passes are those of the engine. -/
theorem passesGave_of_prompt {tokens : List Token} {outcome : Except SessionError Unit}
    (h : E.monitored.submitAll (chunks batch.capacity (promptSlots tokens)) batch context w =
      (outcome, batch', context', w')) :
    ∃ given, outcomesIn w' = outcomesIn w ++ given ∧ PassesGave given outcome :=
  passesGave_of_submitAll (fun _ => TokenBatch.hasRoom_of_mem_chunks) h

end

end Engine
end LlmSession
