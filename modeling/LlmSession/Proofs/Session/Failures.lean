import LlmSession.Proofs.Engine.Outcomes
import LlmSession.Proofs.Session.Admission
import LlmSession.Proofs.Session.Phases
import LlmSession.Proofs.Session.TurnIds

/-!
# Passes that fail

An engine may fail at any pass and with any error.  The caller of a turn should see one kind of
error for it, with the engine's own words in it, and should be able to begin again.  He should not
see errors of the batch, which is the session's own affair: he never asked for a batch.

## What reaches the caller

A pass that is tried gives an error of the engine, since the batch has room for whatever the session
stages.  It is the last pass of its operation, and `TurnGave` says so for the operations on a turn.
The other errors come from operations that try no pass, and there are five kinds of them
(`Engine.TurnError`).  One kind is the engine's own: a text that it cannot read or a token that it
cannot spell is reported as the engine words it.  An engine that words it as such
(`Engine.NamesUnread`) cannot be mistaken for a batch.

## Main statements

* `Loaded.Prefills.turnGave`, `Loaded.Steps.turnGave`: what an operation on a turn gives.
* `Session.isReady_of_turn_eq_none`: where a turn can begin.
* `Session.failed_pass_surfaces`: what a failed pass leaves, and which errors reach the caller.
-/

namespace LlmSession

/-- Whether an operation is one on a turn: its beginning or a step. -/
def Operation.IsOfTurn : Operation → Prop
  | .prefill _ _ _ => True
  | .step => True
  | .stepFor _ => True
  | _ => False

/-- An error that a batch gives to those who stage slots in it. -/
def SessionError.IsOfBatch : SessionError → Prop
  | .capacityExceeded _ => True
  | .tooManySequences _ _ => True
  | _ => False

namespace Engine

/-- The errors of a turn for which no pass was tried. -/
inductive TurnError (E : Engine) : SessionError → Prop where
  /-- The operation makes no sense in the present state. -/
  | refused {e : SessionError} (h : e.IsRefusal) : TurnError E e
  /-- The engine cannot read a text, or cannot spell a token. -/
  | unread {e : SessionError} (h : E.FailsToRead e) : TurnError E e
  /-- The prompt has no tokens. -/
  | empty : TurnError E (.tokenization "prompt produced no tokens")
  /-- The prompt is too long for the cache. -/
  | tooLong (required available : Nat) : TurnError E (.promptTooLong required available)
  /-- The places that the turn needs are no word. -/
  | overflow : TurnError E .overflow

theorem TurnError.of_monitored {E : Engine} {e : SessionError} (h : E.monitored.TurnError e) :
    E.TurnError e := by
  cases h with
  | refused h => exact .refused h
  | unread h => exact .unread h.of_monitored
  | empty => exact .empty
  | tooLong required available => exact .tooLong required available
  | overflow => exact .overflow

/-- Of these errors only the engine's own can be one of a batch. -/
theorem TurnError.failsToRead_of_isOfBatch {E : Engine} {e : SessionError} (h : E.TurnError e)
    (he : e.IsOfBatch) : E.FailsToRead e := by
  cases h with
  | refused h =>
    obtain ⟨operation, state, rfl⟩ := h
    exact he.elim
  | unread h => exact h
  | empty => exact he.elim
  | tooLong required available => exact he.elim
  | overflow => exact he.elim

/-- A turn that is not tried gives one of these errors. -/
theorem TurnError.of_refusal? {E : Engine} {report : PrefillReport} {rejectLongPrompts : Bool}
    {e : SessionError} (h : report.refusal? rejectLongPrompts = some e) : E.TurnError e := by
  rcases PrefillReport.refusal?_cases h with ⟨rfl, -⟩ | ⟨rfl, -⟩
  · exact .overflow
  · exact .tooLong _ _

/-- An engine that says of what it cannot read or spell just that. -/
structure NamesUnread (E : Engine) : Prop where
  tokenize : ∀ {context : E.Context} {text : String} {addSpecial parseControl : Bool}
    {w w' : E.World} {e : SessionError},
    E.tokenize context text addSpecial parseControl w = (.error e, w') →
      ∃ detail, e = .tokenization detail
  detokenize : ∀ {context : E.Context} {token : Token} {e : SessionError},
    E.detokenize context token = .error e → ∃ detail, e = .detokenization detail

theorem NamesUnread.not_isOfBatch {E : Engine} (hE : E.NamesUnread) {e : SessionError}
    (h : E.FailsToRead e) : ¬ e.IsOfBatch := by
  cases h with
  | tokenize h =>
    obtain ⟨detail, rfl⟩ := hE.tokenize h
    exact id
  | detokenize h =>
    obtain ⟨detail, rfl⟩ := hE.detokenize h
    exact id

end Engine

/-- A scripted engine says what it cannot read or spell. -/
theorem Script.namesUnread (s : Script) : s.engine.NamesUnread where
  tokenize h := by
    simp only [engine, Script.tokenize] at h
    split at h
    · cases h
      exact ⟨_, rfl⟩
    · cases h
  detokenize h := by
    simp only [engine] at h
    split at h
    · cases h
    · cases h
      exact ⟨_, rfl⟩

/-! ## What an operation on a turn gives -/

/-- The outcomes of the passes of an operation on a turn, and its answer. -/
inductive TurnGave (E : Engine) {α : Type} :
    List (Except SessionError Unit) → Except SessionError α → Prop where
  /-- The passes decide, of which there may be none. -/
  | passes {given : List (Except SessionError Unit)} {outcome : Except SessionError Unit}
    (h : PassesGave given outcome) (answer : α) : TurnGave E given (outcome.map fun _ => answer)
  /-- No pass is tried. -/
  | untried {e : SessionError} (h : E.TurnError e) : TurnGave E [] (.error e)

namespace TurnGave

variable {E : Engine} {α β : Type} {given : List (Except SessionError Unit)}
  {answer : Except SessionError α}

theorem ok (answer : α) : TurnGave E [] (.ok answer) := .passes .nil answer

theorem map (h : TurnGave E given answer) (f : α → β) : TurnGave E given (answer.map f) := by
  cases h with
  | @passes _ outcome h answer =>
    have hmap : (outcome.map fun _ => answer).map f = outcome.map fun _ => f answer := by
      cases outcome <;> rfl
    rw [hmap]
    exact .passes h (f answer)
  | untried h => exact .untried h

/-- **A failed pass** is the last, and it decides. -/
theorem of_error {made rest : List (Except SessionError Unit)} {e : SessionError}
    (h : TurnGave E (made ++ .error e :: rest) answer) :
    rest = [] ∧ (∀ o ∈ made, o = .ok ()) ∧ answer = .error (.decodeFailed e.failureDetail) := by
  generalize hgiven : made ++ .error e :: rest = given at h
  cases h with
  | passes h answer =>
    obtain ⟨hrest, hmade, rfl⟩ := (hgiven ▸ h).of_error
    exact ⟨hrest, hmade, by rw [SessionError.asDecodeFailure_eq]; rfl⟩
  | untried _ => exact absurd hgiven (List.append_ne_nil_of_right_ne_nil _ (List.cons_ne_nil _ _))

/-- **The errors** of an operation on a turn. -/
theorem error_cases {e : SessionError} (h : TurnGave E given (.error e : Except SessionError α)) :
    (∃ cause, given.getLast? = some (.error cause) ∧ e = .decodeFailed cause.failureDetail) ∨
      given = [] ∧ E.TurnError e := by
  generalize hanswer : Except.error e = answer at h
  cases h with
  | @passes _ outcome h a =>
    cases outcome with
    | ok _ => exact nomatch hanswer
    | error e' =>
      cases hanswer
      obtain ⟨cause, hlast, rfl⟩ := h.exists_of_eq_error
      exact Or.inl ⟨cause, hlast, cause.asDecodeFailure_eq⟩
  | untried h =>
    cases hanswer
    exact Or.inr ⟨rfl, h⟩

end TurnGave

namespace Loaded

open Engine

variable {E : Engine} {l l' : Loaded E.monitored} {w w' : E.monitored.World} {prompt : String}
  {parseControl : Bool}

theorem outcomesIn_of_prepareStop {answer : Except SessionError StopConditions}
    (h : l.prepareStop w = (answer, w')) : outcomesIn w' = outcomesIn w :=
  StopConditions.apply_of_prepare_eq (fun _ _ => outcomesIn_of_tokenize rfl) h

/-- Nothing is passed on while a prompt is read. -/
theorem Reads.outcomesIn_eq {tokens : List Token} (h : l.Reads prompt parseControl w tokens w') :
    outcomesIn w' = outcomesIn w := by
  obtain ⟨stop, w₁, hstop, hread⟩ := h
  exact (outcomesIn_of_tokenize hread).trans (outcomesIn_of_prepareStop hstop)

section

variable {rejectLongPrompts : Bool} {id maxNewTokens : Nat}
  {answer : Except SessionError PrefillReport}

/-- **The beginning of a turn.** -/
theorem Prefills.turnGave
    (hp : l.Prefills rejectLongPrompts id prompt parseControl maxNewTokens w (answer, l', w')) :
    ∃ given, outcomesIn w' = outcomesIn w ++ given ∧ TurnGave E.monitored given answer := by
  cases hp with
  | unprepared hstop =>
    obtain ⟨text, w₁, w₂, htext⟩ := StopConditions.exists_of_prepare_eq_error hstop
    exact ⟨[], by rw [outcomesIn_of_prepareStop hstop, List.append_nil],
      .untried (.unread (.tokenize htext))⟩
  | unread hstop hread =>
    exact ⟨[], by rw [outcomesIn_of_tokenize hread, outcomesIn_of_prepareStop hstop,
      List.append_nil], .untried (.unread (.tokenize hread))⟩
  | empty hstop hread =>
    exact ⟨[], by rw [Reads.outcomesIn_eq ⟨_, _, hstop, hread⟩, List.append_nil], .untried .empty⟩
  | refused hstop hread _ _ hrefused =>
    exact ⟨[], by rw [Reads.outcomesIn_eq ⟨_, _, hstop, hread⟩, List.append_nil],
      .untried (.of_refusal? hrefused)⟩
  | @lost _ _ report _ _ _ _ _ _ hstop hread _ _ _ hpasses =>
    obtain ⟨given, hgiven, hgave⟩ := passesGave_of_prompt hpasses
    exact ⟨given, by rw [hgiven, Reads.outcomesIn_eq ⟨_, _, hstop, hread⟩], .passes hgave report⟩
  | begun hstop hread _ _ _ hpasses =>
    obtain ⟨given, hgiven, hgave⟩ := passesGave_of_prompt hpasses
    exact ⟨given, by rw [hgiven, Reads.outcomesIn_eq ⟨_, _, hstop, hread⟩], .passes hgave _⟩

/-- **A prompt that is read** and is to be tried begins its turn, if its passes are made. -/
theorem Prefills.eq_ok_of_made
    (hp : l.Prefills rejectLongPrompts id prompt parseControl maxNewTokens w (answer, l', w'))
    {tokens : List Token} (htokens : l.promptTokens? prompt parseControl w = some tokens)
    (hne : tokens ≠ []) {given : List (Except SessionError Unit)}
    (hgiven : outcomesIn w' = outcomesIn w ++ given) (hmade : ∀ o ∈ given, o = .ok ()) :
    let report := PrefillReport.ofCounts id tokens.length maxNewTokens
      (E.contextSize l.context).toNat
    report.refusal? rejectLongPrompts = none → answer = .ok report := by
  intro report htried
  rcases hp.refused_or_tried htokens hne with
    ⟨e, hrefused, -, -⟩ | ⟨-, outcome, batch, w₁, hread, hpasses, rfl⟩
  · exact nomatch htried.symm.trans hrefused
  · obtain ⟨given', hgiven', hgave⟩ := passesGave_of_prompt hpasses
    rw [hread.outcomesIn_eq, hgiven, List.append_right_inj] at hgiven'
    subst hgiven'
    rw [hgave.eq_ok_of_made hmade]
    rfl

end

/-- **A step.** -/
theorem Steps.turnGave {limit : LengthLimit} {t : Turn} {outcome : Except SessionError Step}
    (hs : l.Steps limit t w (outcome, l', w')) :
    ∃ given, outcomesIn w' = outcomesIn w ++ given ∧ TurnGave E.monitored given outcome := by
  cases hs with
  | verdict _ => exact ⟨[], (List.append_nil _).symm, .ok _⟩
  | noBytes _ hd => exact ⟨[], (List.append_nil _).symm, .untried (.unread (.detokenize hd))⟩
  | marker _ _ _ => exact ⟨[], (List.append_nil _).symm, .ok _⟩
  | taken _ _ _ hpass =>
    obtain ⟨given, hgiven, hgave⟩ :=
      passesGave_of_submitSlots (TokenBatch.hasRoom_ofToken _ _ _ _) hpass
    exact ⟨[given], hgiven, .passes hgave _⟩
  | lost _ _ _ hpass =>
    obtain ⟨given, hgiven, hgave⟩ :=
      passesGave_of_submitSlots (TokenBatch.hasRoom_ofToken _ _ _ _) hpass
    exact ⟨[given], hgiven, .passes hgave (.fragment "")⟩

theorem Steps.turn_of_error {E : Engine} {l l' : Loaded E} {limit : LengthLimit} {t : Turn}
    {w w' : E.World} {e : SessionError} (hs : l.Steps limit t w (.error e, l', w')) :
    l'.turn = none := by
  cases hs <;> rfl

end Loaded

namespace Session

open Engine

variable {E : Engine} {s : Session E.monitored} {op : Operation}
  {result : Except SessionError Answer × Session E.monitored}

/-- A new session with an engine of which the outcomes of the passes are kept. -/
def monitored (options : SessionOptions) (world : E.World) : Session E.monitored where
  options := options
  world := (world, [])

/-- What the passes of a session gave so far, oldest first. -/
def outcomes (s : Session E.monitored) : List (Except SessionError Unit) := outcomesIn s.world

/-- **An operation on a turn.** -/
theorem Performs.turnGave (hp : s.Performs op result) (hop : op.IsOfTurn) :
    ∃ given, result.2.outcomes = s.outcomes ++ given ∧ TurnGave E.monitored given result.1 := by
  induction hp with
  | notLoaded _ _ => exact ⟨[], (List.append_nil _).symm, .untried (.refused ⟨_, _, rfl⟩)⟩
  | noTurn _ _ => exact ⟨[], (List.append_nil _).symm, .untried (.refused ⟨_, _, rfl⟩)⟩
  | replaced _ _ => exact ⟨[], (List.append_nil _).symm, .untried (.refused ⟨_, _, rfl⟩)⟩
  | finished _ _ _ => exact ⟨[], (List.append_nil _).symm, .ok _⟩
  | notBegun _ hp =>
    obtain ⟨given, hgiven, hgave⟩ := hp.turnGave
    exact ⟨given, hgiven, hgave.map Answer.begun⟩
  | begun _ hp =>
    obtain ⟨given, hgiven, hgave⟩ := hp.turnGave
    exact ⟨given, hgiven, hgave.map Answer.begun⟩
  | stepped _ _ _ hstep =>
    obtain ⟨given, hgiven, hgave⟩ := hstep.turnGave
    exact ⟨given, hgiven, hgave.map Answer.stepped⟩
  | stepFor _ _ ih => exact ih trivial
  | _ => exact hop.elim

/-- The session is loaded and has no turn.  The next one has this number, and it begins with every
prompt that can be read, if the passes for it are made: unless the places that it needs are no word,
or are more than there are and the session does not want such prompts. -/
def IsReady (s : Session E.monitored) (id : Nat) : Prop :=
  ∃ l, s.phase = .loaded l ∧ l.turn = none ∧
    ∀ prompt parseControl maxNewTokens tokens, s.promptTokens? prompt parseControl = some tokens →
      tokens ≠ [] →
      let needed := tokens.length + maxNewTokens
      let places := (E.contextSize l.context).toNat
      needed < twoTo 64 → (s.options.rejectLongPrompts = true → needed ≤ places) →
      let next := s.prefill prompt parseControl maxNewTokens
      ∃ given, next.2.outcomes = s.outcomes ++ given ∧
        ((∀ outcome ∈ given, outcome = .ok ()) → next.1 = .ok ⟨id, tokens.length, needed, places⟩)

/-- **Where a turn can begin**: in every session that is loaded and has no turn. -/
theorem isReady_of_turn_eq_none {l : Loaded E.monitored} (hl : s.phase = .loaded l)
    (hturn : l.turn = none) : s.IsReady s.nextTurnId := by
  refine ⟨l, hl, hturn, fun prompt parseControl maxNewTokens tokens htokens hne hword hroom =>
    ?_⟩
  obtain ⟨l', -, hp⟩ := exists_prefills_of_loaded hl prompt parseControl maxNewTokens
  obtain ⟨given, hgiven, -⟩ := hp.turnGave
  rw [promptTokens?_of_loaded hl] at htokens
  refine ⟨given, hgiven, fun hmade => hp.eq_ok_of_made htokens hne hgiven hmade ?_⟩
  exact PrefillReport.refusal?_eq_none_iff.2
    ⟨hword, fun hreject => decide_eq_false (Nat.not_lt.2 (hroom hreject))⟩

/-- An operation on a turn that asks the engine for a pass and fails leaves no turn. -/
theorem Performs.isReady_of_failed (hp : s.Performs op result) (hop : op.IsOfTurn)
    (hpassed : result.2.outcomes ≠ s.outcomes) {e : SessionError} (h : result.1 = .error e) :
    result.2.IsReady s.nextTurnId := by
  induction hp with
  | notLoaded _ _ => exact absurd rfl hpassed
  | noTurn _ _ => exact absurd rfl hpassed
  | replaced _ _ => exact absurd rfl hpassed
  | finished _ _ _ => exact absurd rfl hpassed
  | notBegun _ hp => exact isReady_of_turn_eq_none rfl hp.turn_of_error
  | begun _ _ => exact nomatch h
  | @stepped l l' t outcome w _ _ _ hstep =>
    cases outcome with
    | error e' => exact isReady_of_turn_eq_none rfl hstep.turn_of_error
    | ok step => exact nomatch h
  | stepFor _ _ ih => exact ih trivial hpassed h
  | _ => exact hop.elim

/-- **A failed pass surfaces as a failed pass, and nothing else does.**  Take any session, whatever
was done with it, and the beginning of a turn or a step.  If one of its passes fails, it is the last
that is tried, whichever it was; the answer says that a pass failed, in the engine's own words; and
the session stays loaded, without a turn, and the next turn can begin.  An answer that is an error
comes from such a pass, or is one of those for which no pass was tried.  So no error of the batch
gets out, unless the engine itself gives it for a text that it cannot read or a token that it cannot
spell; and an engine that names those as what they are does not. -/
theorem failed_pass_surfaces (s : Session E.monitored) (op : Operation) (hop : op.IsOfTurn) :
    let result := s.perform op
    ∃ given, result.2.outcomes = s.outcomes ++ given ∧
      (∀ made e rest, given = made ++ .error e :: rest →
        rest = [] ∧ (∀ outcome ∈ made, outcome = .ok ()) ∧
        result.1 = .error (.decodeFailed e.failureDetail) ∧ result.2.IsReady s.nextTurnId) ∧
      (∀ e, result.1 = .error e →
        (∃ cause, given.getLast? = some (.error cause) ∧ e = .decodeFailed cause.failureDetail) ∨
          given = [] ∧ E.TurnError e) ∧
      (∀ e, result.1 = .error e → e.IsOfBatch → E.FailsToRead e) ∧
      (E.NamesUnread → ∀ e, result.1 = .error e → ¬ e.IsOfBatch) := by
  intro result
  have hp : s.Performs op result := s.performs op
  obtain ⟨given, hgiven, hgave⟩ := hp.turnGave hop
  have hcases : ∀ e, result.1 = .error e →
      (∃ cause, given.getLast? = some (.error cause) ∧ e = .decodeFailed cause.failureDetail) ∨
        given = [] ∧ E.TurnError e := by
    intro e herror
    rw [herror] at hgave
    exact hgave.error_cases.imp_right fun h => ⟨h.1, h.2.of_monitored⟩
  have hbatch : ∀ e, result.1 = .error e → e.IsOfBatch → E.FailsToRead e := by
    intro e herror he
    rcases hcases e herror with ⟨cause, -, rfl⟩ | ⟨-, h⟩
    · exact he.elim
    · exact h.failsToRead_of_isOfBatch he
  refine ⟨given, hgiven, ?_, hcases, hbatch, ?_⟩
  · rintro made e rest rfl
    obtain ⟨hrest, hmade, herror⟩ := hgave.of_error
    refine ⟨hrest, hmade, herror, hp.isReady_of_failed hop (fun hsame => ?_) herror⟩
    rw [hgiven, List.append_right_eq_self] at hsame
    exact List.append_ne_nil_of_right_ne_nil _ (List.cons_ne_nil _ _) hsame
  · intro hE e herror he
    exact hE.not_isOfBatch (hbatch e herror he) he

/-- A batch of two slots and a prompt of five tokens, whose second pass fails as if the batch were
full.  The same prompt then begins the first turn. -/
theorem failed_pass_surfaces_of_second_part :
    let script : Script := { failDecode := [2], decodeFailure := .capacity }
    let options : SessionOptions := { context := { batchCapacity := 2 } }
    let s := (monitored (E := script.engine) options ({} : Script.World)).after [.load "model"]
    let result := s.perform (.prefill "abcd" false 8)
    result.2.outcomes = s.outcomes ++ [.ok (), .error (.capacityExceeded 2)] ∧
      result.1 = .error (.decodeFailed "Batch capacity exceeded (2 slots)") ∧
      (∀ e, result.1 = .error e → ¬ e.IsOfBatch) ∧
      result.2.IsReady 1 ∧ (result.2.prefill "abcd" false 8).1 = .ok ⟨1, 5, 13, 1024⟩ := by
  intro script options s result
  have hsplit : result.2.outcomes = s.outcomes ++ [.ok (), .error (.capacityExceeded 2)] := by
    decide +kernel
  have hid : s.nextTurnId = 1 := by decide +kernel
  have hagain : (result.2.prefill "abcd" false 8).1 = .ok ⟨1, 5, 13, 1024⟩ := by decide +kernel
  obtain ⟨given, hgiven, hfailed, -, -, hbatch⟩ :=
    failed_pass_surfaces (E := script.engine) s (.prefill "abcd" false 8) trivial
  have hgave : given = [.ok ()] ++ .error (.capacityExceeded 2) :: [] :=
    List.append_cancel_left (hgiven.symm.trans hsplit)
  obtain ⟨-, -, herror, hready⟩ := hfailed _ _ _ hgave
  exact ⟨hsplit, herror, hbatch script.namesUnread, hid ▸ hready, hagain⟩

end Session
end LlmSession
