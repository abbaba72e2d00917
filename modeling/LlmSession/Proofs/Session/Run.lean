import LlmSession.Bench.Run
import LlmSession.Engine.Scripted
import LlmSession.Proofs.Session.Step

/-!
# Runs of a session

A caller performs one operation after the other, and gets one answer for each.  This file gives
a type to the operations, so that statements can speak of all runs at once, and says what the
operations do to a turn: beginning a turn and stepping apart, none of them makes one, and the
only thing that happens to it is that it is interrupted or given up.

## Main definitions

* `Operation`, `Session.perform`: one operation.
* `Session.after`, `Session.fragments`, `Session.pieces`: a run, the text that it gives and the
  bytes that the turn takes in meanwhile.
-/

namespace LlmSession

/-- An operation on a session, with what it is asked for. -/
inductive Operation where
  | load (path : String)
  | reload (threads contextSize : Option UInt32)
  | prefill (prompt : String) (parseControl : Bool) (maxNewTokens : Nat)
  | step
  | stepFor (id : Nat)
  | clearCache (full : Bool)
  | benchmark (shape : BenchShape)
  | unload

/-- What an operation answers if it is not refused and does not fail. -/
inductive Answer where
  | loaded (summary : ModelSummary)
  | begun (report : PrefillReport)
  | stepped (step : Step)
  | measured (report : BenchReport)
  | done

/-- Whether an operation begins a turn. -/
def Operation.BeginsTurn : Operation → Prop
  | .prefill _ _ _ => True
  | _ => False

/-- The reason in an answer. -/
def reason? : Except SessionError Answer → Option StopReason
  | .ok (.stepped (.endOfStream reason)) => some reason
  | _ => none

theorem not_beginsTurn_of_mem_replicate {n : Nat} :
    ∀ op ∈ List.replicate n Operation.step, ¬ op.BeginsTurn := by
  intro op hop
  rw [List.eq_of_mem_replicate hop]
  exact id

/-- The text in an answer. -/
def fragment? : Except SessionError Answer → Option String
  | .ok (.stepped (.fragment text)) => some text
  | _ => none

/-- A script with one token for each piece. -/
def Script.ofPieces (pieces : List (List UInt8)) : Script where
  replies := (List.range pieces.length).map fun k => ⟨Int32.ofNat k⟩
  pieces := pieces.mapIdx fun k piece => (⟨Int32.ofNat k⟩, piece)

namespace Session

variable {E : Engine}

/-- Performs one operation. -/
def perform (s : Session E) : Operation → Except SessionError Answer × Session E
  | .load path => ((s.load path).1.map .loaded, (s.load path).2)
  | .reload threads contextSize =>
    ((s.reload threads contextSize).1.map fun _ => .done, (s.reload threads contextSize).2)
  | .prefill prompt parseControl maxNewTokens =>
    ((s.prefill prompt parseControl maxNewTokens).1.map .begun,
      (s.prefill prompt parseControl maxNewTokens).2)
  | .step => (s.decodeStep.1.map .stepped, s.decodeStep.2)
  | .stepFor id => ((s.decodeStepFor id).1.map .stepped, (s.decodeStepFor id).2)
  | .clearCache full => ((s.clearCache full).1.map fun _ => .done, (s.clearCache full).2)
  | .benchmark shape => ((s.benchmark shape).1.map .measured, (s.benchmark shape).2)
  | .unload => (.ok .done, s.unload)

/-- The session after a run. -/
def after (s : Session E) : List Operation → Session E
  | [] => s
  | op :: ops => (s.perform op).2.after ops

/-- The answers of a run. -/
def answers (s : Session E) : List Operation → List (Except SessionError Answer)
  | [] => []
  | op :: ops => (s.perform op).1 :: (s.perform op).2.answers ops

/-- The fragments that a run gives. -/
def fragments (s : Session E) (ops : List Operation) : List String :=
  (s.answers ops).filterMap fragment?

/-- The last answer of the run is the end of a turn. -/
def EndsWith (s : Session E) (ops : List Operation) (reason : StopReason) : Prop :=
  (s.answers ops).getLast?.bind reason? = some reason

instance (s : Session E) (ops : List Operation) (reason : StopReason) :
    Decidable (s.EndsWith ops reason) :=
  inferInstanceAs (Decidable ((s.answers ops).getLast?.bind reason? = some reason))

/-- The bytes that the turn takes in when an operation is performed. -/
def piece? (s : Session E) (op : Operation) : Option (List UInt8) :=
  match s.phase, op with
  | .loaded l, .step => l.piece? s.options.lengthLimit s.world
  | .loaded l, .stepFor id =>
    if s.turnId? = some id then l.piece? s.options.lengthLimit s.world else none
  | _, _ => none

/-- The pieces that the turn takes in during a run: the bytes of the tokens drawn, without those
of a token that ends the turn by itself. -/
def pieces (s : Session E) : List Operation → List (List UInt8)
  | [] => []
  | op :: ops => (s.piece? op).toList ++ (s.perform op).2.pieces ops

theorem after_append (s : Session E) (ops ops' : List Operation) :
    s.after (ops ++ ops') = (s.after ops).after ops' := by
  induction ops generalizing s with
  | nil => rfl
  | cons op ops ih => exact ih _

theorem answers_append (s : Session E) (ops ops' : List Operation) :
    s.answers (ops ++ ops') = s.answers ops ++ (s.after ops).answers ops' := by
  induction ops generalizing s with
  | nil => rfl
  | cons op ops ih => exact congrArg ((s.perform op).1 :: ·) (ih _)

@[simp] theorem fragments_nil (s : Session E) : s.fragments [] = [] := rfl

theorem fragments_cons (s : Session E) (op : Operation) (ops : List Operation) :
    s.fragments (op :: ops) =
      (fragment? (s.perform op).1).toList ++ (s.perform op).2.fragments ops := by
  rw [fragments, answers, List.filterMap_cons]
  cases fragment? (s.perform op).1 <;> rfl

/-- A loaded session whose model replies with the given pieces, one token for each. -/
def ofPieces (pieces : List (List UInt8)) (options : SessionOptions) :
    Session (Script.ofPieces pieces).engine :=
  (({ options, world := {} } : Session (Script.ofPieces pieces).engine).load "model").2

/-! ## What the operations do to a turn -/

/-- The turn of a loaded session, with what ends a reply early. -/
def HasTurn (s : Session E) (stop : StopConditions) (t : Turn) : Prop :=
  ∃ l, s.phase = .loaded l ∧ l.stop = stop ∧ l.turn = some t

theorem hasTurn_iff {s : Session E} {l : Loaded E} (hl : s.phase = .loaded l)
    {stop : StopConditions} {t : Turn} : s.HasTurn stop t ↔ l.stop = stop ∧ l.turn = some t := by
  constructor
  · rintro ⟨l', hl', h⟩
    rw [hl] at hl'
    cases hl'
    exact h
  · intro h
    exact ⟨l, hl, h⟩

theorem phase_eq_of_loaded? {s : Session E} {l : Loaded E} (h : s.loaded? = some l) :
    s.phase = .loaded l := by
  unfold loaded? at h
  split at h
  · next l' hphase => rw [hphase, Option.some.inj h]
  · exact nomatch h

theorem exists_loaded_of_turn? {s : Session E} {t : Turn} (h : s.turn? = some t) :
    ∃ l, s.loaded? = some l ∧ s.phase = .loaded l ∧ l.turn = some t := by
  obtain ⟨l, hl, ht⟩ := Option.bind_eq_some_iff.1 h
  exact ⟨l, hl, phase_eq_of_loaded? hl, ht⟩

theorem not_hasTurn {s : Session E} (h : ∀ l, s.phase = .loaded l → l.turn = none)
    (stop : StopConditions) (t : Turn) : ¬ s.HasTurn stop t := by
  rintro ⟨l, hl, -, ht⟩
  rw [h l hl] at ht
  exact absurd ht (by simp)

theorem piece?_step {s : Session E} {l : Loaded E} (hl : s.phase = .loaded l) :
    s.piece? .step = l.piece? s.options.lengthLimit s.world := by
  simp only [piece?, hl]

theorem piece?_stepFor (s : Session E) (id : Nat) :
    s.piece? (.stepFor id) = if s.turnId? = some id then s.piece? .step else none := by
  unfold piece?
  cases s.phase with
  | loaded l => rfl
  | idle => exact (ite_self none).symm
  | faulted model reason => exact (ite_self none).symm

theorem piece?_of_ne_step {s : Session E} {op : Operation} (hstep : op ≠ .step)
    (hstepFor : ∀ id, op ≠ .stepFor id) : s.piece? op = none := by
  cases op with
  | step => exact absurd rfl hstep
  | stepFor id => exact absurd rfl (hstepFor id)
  | _ => unfold piece?; cases s.phase <;> rfl

/-- Without a running turn a step takes nothing in. -/
theorem piece?_step_of_not_running {s : Session E}
    (h : ∀ stop t, s.HasTurn stop t → t.finished ≠ none) :
    s.piece? .step = none := by
  cases hphase : s.phase with
  | loaded l =>
    rw [piece?_step hphase]
    cases ht : l.turn with
    | none => rw [Loaded.piece?, ht]
    | some t =>
      obtain ⟨reason, hf⟩ := Option.ne_none_iff_exists'.1 (h l.stop t ⟨l, hphase, rfl, ht⟩)
      exact Loaded.piece?_of_finished ht hf
  | idle => simp only [piece?, hphase]
  | faulted model reason => simp only [piece?, hphase]

/-- A step of a given turn is a step, unless it is refused. -/
theorem stepFor_cases (s : Session E) (id : Nat) :
    s.perform (.stepFor id) = s.perform .step ∧ s.piece? (.stepFor id) = s.piece? .step ∨
      (s.perform (.stepFor id)).2 = s ∧ (∃ e, (s.perform (.stepFor id)).1 = .error e) ∧
        s.piece? (.stepFor id) = none := by
  rw [perform, perform, decodeStepFor, piece?_stepFor]
  cases hid : s.turnId? with
  | none =>
    have hrun : ∀ stop t, s.HasTurn stop t → t.finished ≠ none := by
      rintro stop t ⟨l, hl, -, ht⟩
      simp [turnId?, turn?, loaded?, hl, ht] at hid
    exact Or.inl ⟨rfl, by rw [piece?_step_of_not_running hrun, ite_self]⟩
  | some current =>
    dsimp only
    by_cases heq : current = id
    · rw [if_pos heq, if_pos (congrArg some heq)]
      exact Or.inl ⟨rfl, rfl⟩
    · rw [if_neg heq, if_neg fun h => heq (Option.some.inj h)]
      exact Or.inr ⟨rfl, ⟨_, rfl⟩, rfl⟩

theorem map_ne_stepped {α : Type} {f : α → Answer} {step : Step} (hf : ∀ a, f a ≠ .stepped step)
    (answer : Except SessionError α) : answer.map f ≠ .ok (.stepped step) := by
  cases answer with
  | error e => exact nofun
  | ok a => exact fun h => hf a (Except.ok.inj h)

/-- Only steps answer with a step. -/
theorem perform_ne_stepped {s : Session E} {op : Operation} (hstep : op ≠ .step)
    (hstepFor : ∀ id, op ≠ .stepFor id) (step : Step) : (s.perform op).1 ≠ .ok (.stepped step) := by
  cases op with
  | step => exact absurd rfl hstep
  | stepFor id => exact absurd rfl (hstepFor id)
  | unload => exact nofun
  | load path => exact map_ne_stepped (f := Answer.loaded) (fun _ => nofun) _
  | reload threads contextSize => exact map_ne_stepped (f := fun _ => .done) (fun _ => nofun) _
  | prefill prompt parseControl maxNewTokens => exact map_ne_stepped (f := Answer.begun) (fun _ => nofun) _
  | clearCache full => exact map_ne_stepped (f := fun _ => .done) (fun _ => nofun) _
  | benchmark shape => exact map_ne_stepped (f := Answer.measured) (fun _ => nofun) _

/-- A step of the turn. -/
theorem decodeStep_of_running {s : Session E} {l : Loaded E} {t : Turn}
    (hl : s.phase = .loaded l) (ht : l.turn = some t) (hf : t.finished = none) :
    ∃ outcome l' w', l.Steps s.options.lengthLimit t s.world (outcome, l', w') ∧
      s.decodeStep = (outcome, { s with world := w', phase := .loaded l' }) := by
  have hsteps := l.steps_advance s.options.lengthLimit t s.world
  rcases hadv : l.advance s.options.lengthLimit t s.world with ⟨outcome, l', w'⟩
  rw [hadv] at hsteps
  refine ⟨outcome, l', w', hsteps, ?_⟩
  simp only [decodeStep, hl, ht, hf, hadv]

/-- A step without a running turn changes nothing. -/
theorem decodeStep_of_not_running {s : Session E}
    (h : ∀ stop t, s.HasTurn stop t → t.finished ≠ none) :
    s.decodeStep.2 = s ∧
      ∀ text, s.decodeStep.1.map Answer.stepped ≠ .ok (.stepped (.fragment text)) := by
  unfold decodeStep
  split
  · next l hl =>
    split
    · exact ⟨rfl, fun text => nofun⟩
    · next t ht =>
      split
      · exact ⟨rfl, fun text => nofun⟩
      · next hf => exact absurd hf (h l.stop t ⟨l, hl, rfl, ht⟩)
  · exact ⟨rfl, fun text => nofun⟩

theorem turn_of_prefill_eq_ok {l l' : Loaded E} {rejectLongPrompts : Bool} {id : Nat}
    {prompt : String} {parseControl : Bool} {maxNewTokens : Nat} {w w' : E.World}
    {report : PrefillReport}
    (h : l.prefill rejectLongPrompts id prompt parseControl maxNewTokens w =
      (.ok report, l', w')) :
    l'.turn = some (.start id report.promptTokens maxNewTokens) := by
  unfold Loaded.prefill at h
  dsimp only at h
  split at h
  · exact nomatch h
  split at h
  · exact nomatch h
  split at h
  · exact nomatch h
  split at h
  · exact nomatch h
  split at h
  · exact nomatch h
  · cases h
    rfl

/-- A turn that has begun. -/
theorem exists_turn_of_prefill {s₀ s : Session E} {prompt : String} {parseControl : Bool}
    {maxNewTokens : Nat} {report : PrefillReport}
    (h : s₀.prefill prompt parseControl maxNewTokens = (.ok report, s)) :
    ∃ l, s.phase = .loaded l ∧
      l.turn = some (.start s₀.nextTurnId report.promptTokens maxNewTokens) := by
  unfold prefill at h
  split at h
  · next l₀ hl₀ =>
    rcases hp : l₀.prefill s₀.options.rejectLongPrompts s₀.nextTurnId prompt parseControl
      maxNewTokens s₀.world with ⟨_ | report', l, w⟩
    · rw [hp] at h
      exact nomatch h
    · rw [hp] at h
      cases h
      exact ⟨l, rfl, turn_of_prefill_eq_ok hp⟩
  · exact nomatch h

theorem prefill_eq_of_fst {s₀ : Session E} {prompt : String} {parseControl : Bool}
    {maxNewTokens : Nat} {report : PrefillReport}
    (h : (s₀.prefill prompt parseControl maxNewTokens).1 = .ok report) :
    s₀.prefill prompt parseControl maxNewTokens =
      (.ok report, (s₀.prefill prompt parseControl maxNewTokens).2) := Prod.ext h rfl

theorem turn_of_allocate_eq_ok {options : SessionOptions} {path : String} {w w' : E.World}
    {l : Loaded E} (h : allocate options path w = (.ok l, w')) : l.turn = none := by
  unfold allocate at h
  split at h
  · cases h
  split at h
  · cases h
  split at h
  · cases h
  · cases h
    rfl

theorem exists_hasTurn_of_map_interrupt {s s' : Session E} {l l' : Loaded E}
    {stop : StopConditions} {t : Turn} (hl : s.phase = .loaded l) (h : s'.HasTurn stop t)
    (hl' : s'.phase = .loaded l') (hstop : l'.stop = l.stop)
    (hturn : l'.turn = l.turn.map Turn.interrupt) :
    ∃ t₀, s.HasTurn stop t₀ ∧ (t = t₀ ∨ t = t₀.interrupt) := by
  obtain ⟨hs, ht⟩ := (hasTurn_iff hl').1 h
  rw [hturn] at ht
  obtain ⟨t₀, ht₀, rfl⟩ := Option.map_eq_some_iff.1 ht
  exact ⟨t₀, ⟨l, hl, hstop ▸ hs, ht₀⟩, Or.inr rfl⟩

/-- **An operation that neither begins a turn nor steps** leaves the turn as it is, interrupts it
or gives it up, and gives no text. -/
theorem exists_hasTurn_of_perform {s : Session E} {op : Operation} (hbegin : ¬ op.BeginsTurn)
    (hstep : op ≠ .step) (hstepFor : ∀ id, op ≠ .stepFor id) {stop : StopConditions} {t : Turn}
    (h : (s.perform op).2.HasTurn stop t) :
    ∃ t₀, s.HasTurn stop t₀ ∧ (t = t₀ ∨ t = t₀.interrupt) := by
  cases op with
  | load path =>
    revert h
    rw [perform, load]
    split
    · -- a session that was idle has no turn yet
      rcases ha : allocate s.options path s.world with ⟨_ | l, w⟩
      · intro h
        exact ⟨t, h, Or.inl rfl⟩
      · intro h
        refine absurd h (not_hasTurn (fun l' hl' => ?_) stop t)
        cases hl'
        exact turn_of_allocate_eq_ok ha
    · intro h
      exact ⟨t, h, Or.inl rfl⟩
  | reload threads contextSize =>
    revert h
    rw [perform, reload]
    split
    · dsimp only
      split
      · intro h
        refine absurd h (not_hasTurn (fun l' hl' => ?_) stop t)
        cases hl'
        rfl
      · intro h
        exact absurd h (not_hasTurn (fun l' hl' => by cases hl') stop t)
    · intro h
      exact ⟨t, h, Or.inl rfl⟩
  | prefill prompt parseControl maxNewTokens => exact absurd trivial hbegin
  | step => exact absurd rfl hstep
  | stepFor id => exact absurd rfl (hstepFor id)
  | clearCache full =>
    revert h
    rw [perform, clearCache]
    split
    · next l hl =>
      intro h
      exact exists_hasTurn_of_map_interrupt hl h rfl rfl rfl
    · intro h
      exact ⟨t, h, Or.inl rfl⟩
  | benchmark shape =>
    revert h
    rw [perform, benchmark]
    split
    · next l hl =>
      intro h
      exact exists_hasTurn_of_map_interrupt hl h rfl rfl rfl
    · intro h
      exact ⟨t, h, Or.inl rfl⟩
  | unload =>
    exact absurd h (not_hasTurn (fun l hl => by cases hl) stop t)

/-! ## The end of a turn -/

theorem eq_of_reason?_closing {held : String} {reason reason' : StopReason}
    (h : reason? ((Except.ok (.closing held reason)).map .stepped) = some reason') :
    reason = reason' := by
  unfold Step.closing at h
  split at h
  · exact Option.some.inj h
  · exact nomatch h

/-- A step that gives a reason leaves a turn that is over for it. -/
theorem exists_finished_of_decodeStep {s : Session E} {reason : StopReason}
    (h : reason? (s.decodeStep.1.map .stepped) = some reason) :
    ∃ stop t, s.decodeStep.2.HasTurn stop t ∧ t.finished = some reason := by
  by_cases hrun : ∃ l t, s.phase = .loaded l ∧ l.turn = some t ∧ t.finished = none
  · obtain ⟨l, t, hl, ht, hf⟩ := hrun
    obtain ⟨outcome, l', w', hsteps, hstep⟩ := decodeStep_of_running hl ht hf
    rw [hstep] at h ⊢
    cases hsteps with
    | verdict hv =>
      obtain rfl := eq_of_reason?_closing h
      exact ⟨_, _, ⟨_, rfl, rfl, rfl⟩, Turn.finished_finish t _⟩
    | marker hv hd hm =>
      obtain rfl := eq_of_reason?_closing h
      exact ⟨_, _, ⟨_, rfl, rfl, rfl⟩, Turn.finished_cutAt _ _⟩
    | noBytes hv hd => exact nomatch h
    | taken hv hd hm hp => exact nomatch h
    | lost hv hd hm hp => exact nomatch h
  · unfold decodeStep at h ⊢
    split at h
    · next l hl =>
      split at h
      · exact nomatch h
      · next t ht =>
        split at h
        · next reason' hf =>
          obtain rfl := Option.some.inj h
          exact ⟨l.stop, t, ⟨l, hl, rfl, ht⟩, hf⟩
        · next hf => exact absurd ⟨l, t, hl, ht, hf⟩ hrun
    · exact nomatch h

theorem exists_finished_of_perform {s : Session E} {op : Operation} {reason : StopReason}
    (h : reason? (s.perform op).1 = some reason) :
    ∃ stop t, (s.perform op).2.HasTurn stop t ∧ t.finished = some reason := by
  by_cases hstep : op = .step
  · rw [hstep] at h ⊢
    exact exists_finished_of_decodeStep h
  by_cases hstepFor : ∃ id, op = .stepFor id
  · obtain ⟨id, rfl⟩ := hstepFor
    rcases s.stepFor_cases id with ⟨hsame, -⟩ | ⟨-, ⟨e, he⟩, -⟩
    · rw [hsame] at h ⊢
      exact exists_finished_of_decodeStep h
    · rw [he] at h
      exact nomatch h
  refine absurd h ?_
  unfold reason?
  split
  · next heq =>
    exact absurd heq (perform_ne_stepped hstep (fun id hid => hstepFor ⟨id, hid⟩) _)
  · exact nofun

/-- **A run whose last answer is an end** leaves a turn that is over. -/
theorem exists_finished_of_endsWith {s : Session E} {ops : List Operation}
    {reason : StopReason} (h : s.EndsWith ops reason) :
    ∃ stop t, (s.after ops).HasTurn stop t ∧ t.finished = some reason := by
  induction ops generalizing s with
  | nil => exact nomatch h
  | cons op ops ih =>
    cases ops with
    | nil => exact exists_finished_of_perform h
    | cons op' ops =>
      refine ih ?_
      rw [EndsWith, answers, answers, List.getLast?_cons_cons] at h
      exact h

end Session
end LlmSession
