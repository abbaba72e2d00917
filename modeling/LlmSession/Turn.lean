import LlmSession.Stop
import LlmSession.Text.Accumulator

/-!
# A turn

A turn is one reply in the making.  It owns all the bytes that were generated for it, and
hands them to the caller as text in three stages: bytes that may still become part of a
marker are held back in `text`, past `released`; bytes of an unfinished character are held
back by the accumulator; the rest has been released.

A turn ends once.  The reason is kept, and what is held back is handed out with it, except
for a marker, which is dropped.

## Main definitions

* `StopReason`, `Step`: what a caller gets.
* `LengthLimit.reached`: whether a turn has its full length.
* `LengthLimit.ceiling`: the cursor at which it has.
* `Turn.releaseUpTo`, `Turn.finish`, `Turn.cutAt`: how bytes become text.
-/

namespace LlmSession

/-- Why a turn is over. -/
inductive StopReason where
  /-- The engine says that the token drawn ends the reply. -/
  | endOfGeneration
  /-- The token drawn belongs to the set of tokens that end a reply. -/
  | stopToken
  /-- A marker occurs in the reply. -/
  | stopMarker (marker : String)
  /-- The turn has its full length. -/
  | maxLength
  /-- The cache has no place for another token. -/
  | contextFull
  /-- The cache was emptied under the turn. -/
  | interrupted
  deriving DecidableEq, Repr

/-- What one step of a turn gives. -/
inductive Step where
  /-- Text that is released now; it is empty while nothing can be released. -/
  | fragment (text : String)
  /-- The turn is over. -/
  | endOfStream (reason : StopReason)
  deriving DecidableEq, Repr

namespace Step

/-- Whether the step gives text. -/
def isFragment : Step → Bool
  | .fragment _ => true
  | .endOfStream _ => false

/-- Whether the turn is over. -/
def isEnd : Step → Bool
  | .fragment _ => false
  | .endOfStream _ => true

/-- The text that the step gives. -/
def fragment? : Step → Option String
  | .fragment text => some text
  | .endOfStream _ => none

/-- The step that ends a turn: what was still held back comes first, if there is any, and
the next step gives the reason. -/
def closing (held : String) (reason : StopReason) : Step :=
  if held = "" then .endOfStream reason else .fragment held

end Step

/-! ## The length of a turn -/

/-- What the greatest number of new tokens counts. -/
inductive LengthLimit where
  /-- The tokens generated after the prompt. -/
  | generated
  /-- All tokens of the turn, with those of the prompt. -/
  | absolute
  deriving DecidableEq, Repr

namespace LengthLimit

/-- Whether a turn has its full length.  What was generated is what the cursor is past the
prompt, and nothing while it is not. -/
def reached (limit : LengthLimit) (cursor promptTokens maxNewTokens : Nat) : Bool :=
  match limit with
  | .generated => decide (maxNewTokens ≤ cursor - promptTokens)
  | .absolute => decide (maxNewTokens ≤ cursor)

/-- The cursor at which a turn has its full length. -/
def ceiling (limit : LengthLimit) (promptTokens maxNewTokens : Nat) : Nat :=
  match limit with
  | .generated => promptTokens + maxNewTokens
  | .absolute => maxNewTokens

/-- As long as the length is not reached, the cursor is in front of it. -/
theorem lt_ceiling_of_not_reached {limit : LengthLimit} {cursor promptTokens maxNewTokens : Nat}
    (h : limit.reached cursor promptTokens maxNewTokens = false) :
    cursor < limit.ceiling promptTokens maxNewTokens := by
  cases limit with
  | generated =>
    have hlt := of_decide_eq_false h
    rw [ceiling]
    omega
  | absolute => exact Nat.lt_of_not_le (of_decide_eq_false h)

/-- **Once the prompt is in the cache**, the length is reached at the ceiling and from there on. -/
theorem reached_iff {limit : LengthLimit} {cursor promptTokens : Nat} (h : promptTokens ≤ cursor)
    (maxNewTokens : Nat) : limit.reached cursor promptTokens maxNewTokens = true ↔
      limit.ceiling promptTokens maxNewTokens ≤ cursor := by
  cases limit with
  | generated =>
    rw [reached, decide_eq_true_iff, ceiling]
    omega
  | absolute => exact decide_eq_true_iff

/-- The ceiling in both measures. -/
theorem ceiling_eq (limit : LengthLimit) (promptTokens maxNewTokens : Nat) :
    limit.ceiling promptTokens maxNewTokens =
      if limit = .generated then promptTokens + maxNewTokens else maxNewTokens := by
  cases limit <;> rfl

end LengthLimit

/-! ## Turns -/

/-- One reply in the making. -/
structure Turn where
  /-- The number of the turn in its session. -/
  id : Nat
  /-- The tokens of the prompt. -/
  promptTokens : Nat
  /-- The greatest number of new tokens. -/
  maxNewTokens : Nat
  /-- The next position to be written, which is also the number of tokens in the cache. -/
  cursor : Nat
  /-- All bytes generated for the turn. -/
  text : List UInt8 := []
  /-- How many of those bytes were given to the accumulator. -/
  released : Nat := 0
  /-- The bytes given that were not released as text yet. -/
  accumulator : Accumulator := .empty
  /-- Why the turn is over, once it is. -/
  finished : Option StopReason := none
  deriving DecidableEq, Repr

namespace Turn

/-- A turn whose prompt is in the cache. -/
def start (id promptTokens maxNewTokens : Nat) : Turn :=
  { id, promptTokens, maxNewTokens, cursor := promptTokens }

/-- Takes in the bytes of one token. -/
def append (t : Turn) (piece : List UInt8) : Turn := { t with text := t.text ++ piece }

/-- Releases the bytes in front of `stop` that were not released before. -/
def releaseUpTo (t : Turn) (stop : Nat) : String × Turn :=
  if stop ≤ t.released then ("", t)
  else
    let pushed := t.accumulator.push ((t.text.drop t.released).take (stop - t.released))
    (pushed.1, { t with released := stop, accumulator := pushed.2 })

/-- Ends the turn with everything that was held back as a possible marker. -/
def finish (t : Turn) (reason : StopReason) : String × Turn :=
  { t with finished := some reason }.releaseUpTo t.text.length

/-- Ends the turn at a marker.  The text in front of the marker is released, and the rest is
dropped. -/
def cutAt (t : Turn) (marker : String) : String × Turn :=
  let start := (markerStart? t.text marker).getD t.released
  let cut := { t with finished := some (.stopMarker marker) }.releaseUpTo start
  (cut.1, { cut.2 with released := t.text.length, accumulator := cut.2.accumulator.reset })

/-- Ends a turn that is not over yet because the cache was emptied under it. -/
def interrupt (t : Turn) : Turn :=
  match t.finished with
  | some _ => t
  | none => { t with finished := some .interrupted }

/-- How many steps a turn may still take at most until it gives its reason, when it is as
long as `ceiling` allows. -/
def stepsLeft (t : Turn) (ceiling : Nat) : Nat :=
  match t.finished with
  | some _ => 1
  | none => ceiling - t.cursor + 2

/-! ### What a release leaves alone -/

theorem releaseUpTo_of_le {t : Turn} {stop : Nat} (h : stop ≤ t.released) :
    t.releaseUpTo stop = ("", t) := by
  simp [releaseUpTo, h]

@[simp] theorem finished_releaseUpTo (t : Turn) (stop : Nat) :
    (t.releaseUpTo stop).2.finished = t.finished := by
  unfold releaseUpTo; split <;> rfl

@[simp] theorem cursor_releaseUpTo (t : Turn) (stop : Nat) :
    (t.releaseUpTo stop).2.cursor = t.cursor := by
  unfold releaseUpTo; split <;> rfl

@[simp] theorem text_releaseUpTo (t : Turn) (stop : Nat) :
    (t.releaseUpTo stop).2.text = t.text := by
  unfold releaseUpTo; split <;> rfl

@[simp] theorem id_releaseUpTo (t : Turn) (stop : Nat) :
    (t.releaseUpTo stop).2.id = t.id := by
  unfold releaseUpTo; split <;> rfl

@[simp] theorem promptTokens_releaseUpTo (t : Turn) (stop : Nat) :
    (t.releaseUpTo stop).2.promptTokens = t.promptTokens := by
  unfold releaseUpTo; split <;> rfl

@[simp] theorem maxNewTokens_releaseUpTo (t : Turn) (stop : Nat) :
    (t.releaseUpTo stop).2.maxNewTokens = t.maxNewTokens := by
  unfold releaseUpTo; split <;> rfl

@[simp] theorem finished_finish (t : Turn) (reason : StopReason) :
    (t.finish reason).2.finished = some reason := by
  simp [finish]

@[simp] theorem finished_cutAt (t : Turn) (marker : String) :
    (t.cutAt marker).2.finished = some (.stopMarker marker) := by
  simp [cutAt]

end Turn
end LlmSession
