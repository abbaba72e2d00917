import LlmSession.Session.Decode

/-!
# All that a step can do

A step of a turn that is not over draws a token and goes one of five ways.  `Loaded.Steps` has
one constructor for each, with all that the step leaves behind, and `Loaded.steps_advance` says
that there are no others.  What a step keeps is proved by cases on it, and no proof elsewhere
looks into `Loaded.advance`.
-/

namespace LlmSession

namespace Loaded

variable {E : Engine}

/-- The token that the next step draws. -/
def token (l : Loaded E) (w : E.World) : Token := (E.sample l.sampler l.context w).1

/-- The session after the draw. -/
def drawn (l : Loaded E) (w : E.World) : Loaded E :=
  { l with sampler := (E.sample l.sampler l.context w).2.1 }

/-- The engine's world after the draw. -/
def drawnWorld (l : Loaded E) (w : E.World) : E.World := (E.sample l.sampler l.context w).2.2

@[simp] theorem context_drawn (l : Loaded E) (w : E.World) : (l.drawn w).context = l.context := rfl

/-- What is released of a turn that goes on, and the turn after it. -/
def release (l : Loaded E) (t : Turn) : String × Turn :=
  t.releaseUpTo (t.text.length - l.stop.partialMarkerLength t.text)

section

variable (l : Loaded E) (t : Turn) (piece : List UInt8)

@[simp] theorem finished_release : (l.release (t.append piece)).2.finished = t.finished :=
  Turn.finished_releaseUpTo _ _

@[simp] theorem promptTokens_release :
    (l.release (t.append piece)).2.promptTokens = t.promptTokens :=
  Turn.promptTokens_releaseUpTo _ _

@[simp] theorem maxNewTokens_release :
    (l.release (t.append piece)).2.maxNewTokens = t.maxNewTokens :=
  Turn.maxNewTokens_releaseUpTo _ _

end

/-- The pass that puts a drawn token into the cache. -/
def pass (l : Loaded E) (t : Turn) (w : E.World) :
    Except SessionError Unit × TokenBatch × E.Context × E.World :=
  E.submitSlots [.ofToken (l.token w) t.cursor true] l.batch l.context (l.drawnWorld w)

/-- The five ways of a step. -/
inductive Steps (l : Loaded E) (limit : LengthLimit) (t : Turn) (w : E.World) :
    Except SessionError Step × Loaded E × E.World → Prop where
  /-- The token ends the turn. -/
  | verdict {reason : StopReason} (hv : l.verdict limit t (l.token w) = some reason) :
    Steps l limit t w (.ok (.closing (t.finish reason).1 reason),
      { l.drawn w with turn := some (t.finish reason).2 }, l.drawnWorld w)
  /-- The token has no bytes, and the turn is lost. -/
  | noBytes {e : SessionError} (hv : l.verdict limit t (l.token w) = none)
    (hd : E.detokenize l.context (l.token w) = .error e) :
    Steps l limit t w (.error e, { l.drawn w with turn := none }, l.drawnWorld w)
  /-- The bytes complete a marker, which ends the turn. -/
  | marker {piece : List UInt8} {m : String} (hv : l.verdict limit t (l.token w) = none)
    (hd : E.detokenize l.context (l.token w) = .ok piece)
    (hm : l.stop.findMarker? (t.text ++ piece) piece.length = some m) :
    Steps l limit t w (.ok (.closing ((t.append piece).cutAt m).1 (.stopMarker m)),
      { l.drawn w with turn := some ((t.append piece).cutAt m).2 }, l.drawnWorld w)
  /-- The token goes into the cache. -/
  | taken {piece : List UInt8} {batch : TokenBatch} {context : E.Context} {w' : E.World}
    (hv : l.verdict limit t (l.token w) = none)
    (hd : E.detokenize l.context (l.token w) = .ok piece)
    (hm : l.stop.findMarker? (t.text ++ piece) piece.length = none)
    (hp : l.pass t w = (.ok (), batch, context, w')) :
    Steps l limit t w (.ok (.fragment (l.release (t.append piece)).1),
      { l.drawn w with
        batch, context
        turn := some { (l.release (t.append piece)).2 with cursor := t.cursor + 1 } }, w')
  /-- The token does not go into the cache, and the turn is lost. -/
  | lost {piece : List UInt8} {e : SessionError} {batch : TokenBatch} {context : E.Context}
    {w' : E.World} (hv : l.verdict limit t (l.token w) = none)
    (hd : E.detokenize l.context (l.token w) = .ok piece)
    (hm : l.stop.findMarker? (t.text ++ piece) piece.length = none)
    (hp : l.pass t w = (.error e, batch, context, w')) :
    Steps l limit t w (.error e, { l.drawn w with batch, context, turn := none }, w')

/-- What `resubmit` does with a turn whose token was drawn. -/
theorem resubmit_eq (l : Loaded E) (t t' : Turn) (fragment : String) (w : E.World)
    (hcursor : t'.cursor = t.cursor) :
    (l.drawn w).resubmit t' (l.token w) fragment (l.drawnWorld w) =
      match l.pass t w with
      | (.error e, batch, context, w') =>
        (.error e, { l.drawn w with batch, context, turn := none }, w')
      | (.ok (), batch, context, w') =>
        (.ok (.fragment fragment),
          { l.drawn w with batch, context, turn := some { t' with cursor := t.cursor + 1 } }, w') := by
  rw [resubmit, hcursor]
  rfl

theorem advance_of_verdict {l : Loaded E} {limit : LengthLimit} {t : Turn} {w : E.World}
    {reason : StopReason} (hv : l.verdict limit t (l.token w) = some reason) :
    l.advance limit t w = (.ok (.closing (t.finish reason).1 reason),
      { l.drawn w with turn := some (t.finish reason).2 }, l.drawnWorld w) := by
  have hdrawn : (l.drawn w).verdict limit t (l.token w) = some reason := hv
  unfold drawn token at hdrawn
  unfold advance
  dsimp only
  rw [hdrawn]
  rfl

theorem advance_of_verdict_eq_none {l : Loaded E} {limit : LengthLimit} {t : Turn} {w : E.World}
    (hv : l.verdict limit t (l.token w) = none) :
    l.advance limit t w = (l.drawn w).accept t (l.token w) (l.drawnWorld w) := by
  have hdrawn : (l.drawn w).verdict limit t (l.token w) = none := hv
  unfold drawn token at hdrawn
  unfold advance
  dsimp only
  rw [hdrawn]
  rfl

/-- **A step goes one of the five ways.** -/
theorem steps_advance (l : Loaded E) (limit : LengthLimit) (t : Turn) (w : E.World) :
    l.Steps limit t w (l.advance limit t w) := by
  cases hv : l.verdict limit t (l.token w) with
  | some reason =>
    rw [advance_of_verdict hv]
    exact .verdict hv
  | none =>
    rw [advance_of_verdict_eq_none hv, accept, context_drawn]
    cases hd : E.detokenize l.context (l.token w) with
    | error e => exact .noBytes hv hd
    | ok piece =>
      dsimp only
      cases hm : l.stop.findMarker? (t.text ++ piece) piece.length with
      | some m =>
        have hm' : (l.drawn w).stop.findMarker? (t.append piece).text piece.length = some m := hm
        rw [hm']
        exact .marker hv hd hm
      | none =>
        have hm' : (l.drawn w).stop.findMarker? (t.append piece).text piece.length = none := hm
        rw [hm']
        show l.Steps limit t w ((l.drawn w).resubmit (l.release (t.append piece)).2 (l.token w)
          (l.release (t.append piece)).1 (l.drawnWorld w))
        have hcursor : (l.release (t.append piece)).2.cursor = t.cursor :=
          Turn.cursor_releaseUpTo _ _
        rw [resubmit_eq l t _ _ w hcursor]
        rcases hp : l.pass t w with ⟨_ | _, batch, context, w'⟩
        · exact .lost hv hd hm hp
        · exact .taken hv hd hm hp

/-- The bytes that the next step takes in: those of the token drawn, unless the turn is over or
the token ends it. -/
def piece? (l : Loaded E) (limit : LengthLimit) (w : E.World) : Option (List UInt8) :=
  match l.turn with
  | none => none
  | some t =>
    match t.finished, l.verdict limit t (l.token w) with
    | none, none => (E.detokenize l.context (l.token w)).toOption
    | _, _ => none

section

variable {l : Loaded E} {limit : LengthLimit} {t : Turn} {w : E.World}

theorem piece?_of_finished {reason : StopReason} (ht : l.turn = some t)
    (hf : t.finished = some reason) : l.piece? limit w = none := by
  rw [piece?, ht]
  dsimp only
  rw [hf]

theorem piece?_of_verdict {reason : StopReason} (ht : l.turn = some t)
    (hv : l.verdict limit t (l.token w) = some reason) : l.piece? limit w = none := by
  rw [piece?, ht]
  dsimp only
  rw [hv]
  cases t.finished <;> rfl

theorem piece?_of_detokenize {answer : Except SessionError (List UInt8)} (ht : l.turn = some t)
    (hf : t.finished = none) (hv : l.verdict limit t (l.token w) = none)
    (hd : E.detokenize l.context (l.token w) = answer) :
    l.piece? limit w = answer.toOption := by
  rw [piece?, ht]
  dsimp only
  rw [hf, hv, hd]

end

end Loaded
end LlmSession
