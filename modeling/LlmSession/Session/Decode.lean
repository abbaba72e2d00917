import LlmSession.Session.Prefill

/-!
# The steps of a turn

One step draws one token.  If the token or the room that is left ends the turn, the token is
dropped and the turn gives what it had held back.  Otherwise the token's bytes join the
turn, and either a marker is found among them, or what cannot be part of one is released and
the token goes into the cache at the cursor.

Once a turn is over, every further step gives the reason and leaves the engine alone.  A step
that fails takes the turn with it.

## Main statements

* `Session.stepsLeft_decodeStep_lt`: a step that gives text brings the end of the turn
  nearer, whatever the engine does.  This is what makes loops over steps end.
-/

namespace LlmSession

namespace Loaded

variable {E : Engine}

/-- Why the turn is over once this token was drawn; the engine's own sign comes first, then
the set of tokens, the length of the turn and the room in the cache. -/
def verdict (l : Loaded E) (limit : LengthLimit) (t : Turn) (token : Token) :
    Option StopReason :=
  if E.isEndOfGeneration l.context token then some .endOfGeneration
  else if l.stop.isStopToken token then some .stopToken
  else if limit.reached t.cursor t.promptTokens t.maxNewTokens then some .maxLength
  else if (E.contextSize l.context).toNat ≤ t.cursor then some .contextFull
  else none

/-- Puts a token into the cache at the cursor of its turn, and gives what was released for
it. -/
def resubmit (l : Loaded E) (t : Turn) (token : Token) (fragment : String) (w : E.World) :
    Except SessionError Step × Loaded E × E.World :=
  match E.submitSlots [.ofToken token t.cursor true] l.batch l.context w with
  | (.error e, batch, context, w) => (.error e, { l with batch, context, turn := none }, w)
  | (.ok (), batch, context, w) =>
    (.ok (.fragment fragment),
      { l with batch, context, turn := some { t with cursor := t.cursor + 1 } }, w)

/-- Takes in a token that does not end the turn by itself. -/
def accept (l : Loaded E) (t : Turn) (token : Token) (w : E.World) :
    Except SessionError Step × Loaded E × E.World :=
  match E.detokenize l.context token with
  | .error e => (.error e, { l with turn := none }, w)
  | .ok piece =>
    let t := t.append piece
    match l.stop.findMarker? t.text piece.length with
    | some marker =>
      let (before, t) := t.cutAt marker
      (.ok (.closing before (.stopMarker marker)), { l with turn := some t }, w)
    | none =>
      let (fragment, t) := t.releaseUpTo (t.text.length - l.stop.partialMarkerLength t.text)
      l.resubmit t token fragment w

/-- One step of a turn that is not over. -/
def advance (l : Loaded E) (limit : LengthLimit) (t : Turn) (w : E.World) :
    Except SessionError Step × Loaded E × E.World :=
  let (token, sampler, w) := E.sample l.sampler l.context w
  let l := { l with sampler }
  match l.verdict limit t token with
  | some reason =>
    let (held, t) := t.finish reason
    (.ok (.closing held reason), { l with turn := some t }, w)
  | none => l.accept t token w

end Loaded

namespace Session

variable {E : Engine}

/-- One step of the current turn. -/
def decodeStep (s : Session E) : Except SessionError Step × Session E :=
  match s.phase with
  | .loaded l =>
    match l.turn with
    | none => (.error (.invalidState "decode" "no turn has been prefilled"), s)
    | some t =>
      match t.finished with
      | some reason => (.ok (.endOfStream reason), s)
      | none =>
        match l.advance s.options.lengthLimit t s.world with
        | (outcome, l, world) => (outcome, { s with world, phase := .loaded l })
  | _ => (.error (s.refusal "decode"), s)

/-- One step of turn `id`, refused if another turn has begun since. -/
def decodeStepFor (s : Session E) (id : Nat) : Except SessionError Step × Session E :=
  match s.turnId? with
  | some current =>
    if current = id then s.decodeStep
    else (.error (.invalidState "continue a replaced turn"
      ("turn " ++ toString id ++ " was replaced by turn " ++ toString current)), s)
  | none => s.decodeStep

end Session

/-! ## Steps end -/

namespace Loaded

variable {E : Engine}

/-- How many steps the turn of a loaded session may still take at most. -/
def stepsLeft (l : Loaded E) (limit : LengthLimit) : Nat :=
  match l.turn with
  | none => 0
  | some t => t.stepsLeft (limit.ceiling t.promptTokens t.maxNewTokens)

theorem stepsLeft_of_finished {l : Loaded E} {limit : LengthLimit} {t : Turn}
    {reason : StopReason} (ht : l.turn = some t) (hf : t.finished = some reason) :
    l.stepsLeft limit = 1 := by
  simp [stepsLeft, Turn.stepsLeft, ht, hf]

/-- A token that goes into the cache leaves one step less. -/
theorem stepsLeft_resubmit_lt {l l' : Loaded E} {limit : LengthLimit} {t : Turn} {token : Token}
    {fragment : String} {w w' : E.World} {step : Step} (hf : t.finished = none)
    (hlen : t.cursor < limit.ceiling t.promptTokens t.maxNewTokens)
    (h : l.resubmit t token fragment w = (.ok step, l', w')) :
    l'.stepsLeft limit < limit.ceiling t.promptTokens t.maxNewTokens - t.cursor + 2 := by
  unfold resubmit at h
  split at h
  · simp at h
  · simp only [Prod.mk.injEq] at h
    obtain ⟨-, rfl, -⟩ := h
    simp only [stepsLeft, Turn.stepsLeft, hf]
    omega

/-- A token that is taken in leaves one step less, or ends the turn. -/
theorem stepsLeft_accept_lt {l l' : Loaded E} {limit : LengthLimit} {t : Turn} {token : Token}
    {w w' : E.World} {step : Step} (hf : t.finished = none)
    (hlen : t.cursor < limit.ceiling t.promptTokens t.maxNewTokens)
    (h : l.accept t token w = (.ok step, l', w')) :
    l'.stepsLeft limit < limit.ceiling t.promptTokens t.maxNewTokens - t.cursor + 2 := by
  unfold accept at h
  split at h
  · simp at h
  · dsimp only at h
    split at h
    · simp only [Prod.mk.injEq] at h
      obtain ⟨-, rfl, -⟩ := h
      rw [stepsLeft_of_finished rfl (Turn.finished_cutAt _ _)]
      omega
    · have := stepsLeft_resubmit_lt (by simpa [Turn.append] using hf)
        (by simpa [Turn.append] using hlen) h
      simpa [Turn.append] using this

/-- A step of a turn that is not over leaves one step less, or ends the turn. -/
theorem stepsLeft_advance_lt {l l' : Loaded E} {limit : LengthLimit} {t : Turn}
    {w w' : E.World} {step : Step} (hf : t.finished = none)
    (h : l.advance limit t w = (.ok step, l', w')) :
    l'.stepsLeft limit < limit.ceiling t.promptTokens t.maxNewTokens - t.cursor + 2 := by
  unfold advance at h
  dsimp only at h
  split at h
  · simp only [Prod.mk.injEq] at h
    obtain ⟨-, rfl, -⟩ := h
    rw [stepsLeft_of_finished rfl (Turn.finished_finish _ _)]
    omega
  · rename_i hv
    refine stepsLeft_accept_lt hf ?_ h
    unfold verdict at hv
    split at hv; · simp at hv
    split at hv; · simp at hv
    split at hv; · simp at hv
    next hlength => exact LengthLimit.lt_ceiling_of_not_reached (Bool.eq_false_iff.2 hlength)

end Loaded

namespace Session

variable {E : Engine}

theorem stepsLeft_eq (s : Session E) :
    s.stepsLeft = match s.loaded? with
      | none => 0
      | some l => l.stepsLeft s.options.lengthLimit := by
  unfold stepsLeft turn? Loaded.stepsLeft
  cases s.loaded? <;> rfl

/-- **A step that gives text brings the end of the turn nearer**, whatever the engine does. -/
theorem stepsLeft_decodeStep_lt {s s' : Session E} {text : String}
    (h : s.decodeStep = (.ok (.fragment text), s')) : s'.stepsLeft < s.stepsLeft := by
  unfold decodeStep at h
  split at h
  · rename_i l hl
    split at h
    · simp at h
    · rename_i t ht
      split at h
      · simp at h
      · rename_i hf
        split at h
        rename_i hadv
        simp only [Prod.mk.injEq] at h
        obtain ⟨rfl, rfl⟩ := h
        have := Loaded.stepsLeft_advance_lt hf hadv
        simpa [stepsLeft_eq, loaded?, hl, Loaded.stepsLeft, Turn.stepsLeft, ht, hf] using this
  · simp at h

/-- The same for a step of a given turn. -/
theorem stepsLeft_decodeStepFor_lt {s s' : Session E} {id : Nat} {text : String}
    (h : s.decodeStepFor id = (.ok (.fragment text), s')) : s'.stepsLeft < s.stepsLeft := by
  unfold decodeStepFor at h
  split at h
  · split at h
    · exact stepsLeft_decodeStep_lt h
    · simp at h
  · exact stepsLeft_decodeStep_lt h

end Session
end LlmSession
