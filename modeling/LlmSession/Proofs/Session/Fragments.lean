import LlmSession.Proofs.Session.Streaming

/-!
# The fragments of a turn, put together

A turn that comes to its end has given its caller what belongs to it: all bytes of the reply,
or those in front of the marker.

## What can be missing

Nothing is missing as long as these bytes are a text.  If they are not, because the reply stops
inside a character, the accumulator still holds that character's bytes when the turn ends, and
with them *everything since the last cut at which the bytes were a text*.  So complete characters
in front of the unfinished one may be missing as well, and `prefix_join_fragments_iff` says when:
they arrive exactly if the turn had made a cut right behind them while it was going on.  A piece
that brings the end of one character and the beginning of the next makes no such cut.

## Main statements

* `Session.encode_join_fragments`: nothing is lost of a text.
* `Session.prefix_join_fragments_iff`: what is lost in front of an unfinished character.
-/

namespace LlmSession
namespace Session

open Utf8

variable {E : Engine} {s₀ s : Session E} {prompt : String} {parseControl : Bool}
  {maxNewTokens : Nat} {report : PrefillReport} {ops : List Operation} {reason : StopReason}

/-- The end of a turn, seen from its beginning. -/
theorem ended_of_endsWith
    (hs : s₀.prefill prompt parseControl maxNewTokens = (.ok report, s))
    (hops : ∀ op ∈ ops, ¬ op.BeginsTurn) (hend : s.EndsWith ops reason)
    (hreason : reason ≠ .interrupted) :
    ∃ l, s.phase = .loaded l ∧
      Turn.Ended l.stop (s.pieces ops) (String.join (s.fragments ops)) reason := by
  obtain ⟨l, hl, hfollows⟩ := follows_after_of_prefill hs hops
  obtain ⟨stop, t, ht, hf⟩ := exists_finished_of_endsWith hend
  exact ⟨l, hl, hfollows.ended stop t reason ht hf hreason⟩

/-- **Nothing is lost, doubled or replaced.**  A reply that is a text, and is ended by a token or
for want of room, is given whole; of a reply that is ended by a marker, what stands in front of
the marker is. -/
theorem encode_join_fragments
    (hs : s₀.prefill prompt parseControl maxNewTokens = (.ok report, s))
    (hops : ∀ op ∈ ops, ¬ op.BeginsTurn) (hend : s.EndsWith ops reason) :
    (reason.IsVerdict → WellFormed (s.pieces ops).flatten →
      encode (String.join (s.fragments ops)) = (s.pieces ops).flatten) ∧
    ∀ m, reason = .stopMarker m →
      ∃ start, markerStart? (s.pieces ops).flatten m = some start ∧
        (WellFormed ((s.pieces ops).flatten.take start) →
          encode (String.join (s.fragments ops)) = (s.pieces ops).flatten.take start) := by
  constructor
  · intro hreason hw
    have hne : reason ≠ .interrupted := by
      rintro rfl
      exact hreason
    obtain ⟨l, -, hended⟩ := ended_of_endsWith hs hops hend hne
    rw [← hreason.front_eq (s.pieces ops).flatten] at hw ⊢
    exact hended.encode_eq hw
  · rintro m rfl
    obtain ⟨l, -, hended⟩ := ended_of_endsWith hs hops hend nofun
    obtain ⟨start, hstart⟩ := hended.occurs m rfl
    have hfront : (StopReason.stopMarker m).front (s.pieces ops).flatten =
        (s.pieces ops).flatten.take start := by
      rw [StopReason.front, hstart, Option.getD_some]
    refine ⟨start, hstart, fun hw => ?_⟩
    rw [← hfront] at hw ⊢
    exact hended.encode_eq hw

/-- Two characters are cut here, and the beginning of a marker is held back until the end. -/
theorem encode_join_fragments_of_cut_pieces :
    let s := ((ofPieces [[0x68, 0xC3], [0xA9, 0x3C], [0x7C]] {}).prefill "" false 8).2
    let run := List.replicate 5 Operation.step
    s.EndsWith run .endOfGeneration ∧ s.fragments run = ["", "hé", "", "<|"] ∧
      encode (String.join (s.fragments run)) = (s.pieces run).flatten := by
  intro s run
  have hs : (ofPieces [[0x68, 0xC3], [0xA9, 0x3C], [0x7C]] {}).prefill "" false 8 =
      (.ok ⟨1, 1, 9, 1024⟩, s) := prefill_eq_of_fst (by decide +kernel)
  have hend : s.EndsWith run .endOfGeneration := by decide +kernel
  have hw : WellFormed (s.pieces run).flatten := ⟨"hé<|", by decide +kernel⟩
  refine ⟨hend, by decide +kernel, ?_⟩
  exact (encode_join_fragments hs not_beginsTurn_of_mem_replicate hend).1 trivial hw

/-- **What arrives in front of an unfinished character.**  Nothing of the character itself does.
What stands in front of it does exactly if the turn, while it was going on, once handed on all
bytes up to there and no more. -/
theorem prefix_join_fragments_iff {l : Loaded E} {w t : List UInt8}
    (hs : s₀.prefill prompt parseControl maxNewTokens = (.ok report, s))
    (hl : s.phase = .loaded l) (hops : ∀ op ∈ ops, ¬ op.BeginsTurn)
    (hend : s.EndsWith ops reason) (hreason : reason ≠ .interrupted)
    (htext : reason.front (s.pieces ops).flatten = w ++ t) (hw : WellFormed w)
    (ht : Unfinished t) :
    encode (String.join (s.fragments ops)) <+: w ∧
      (w <+: encode (String.join (s.fragments ops)) ↔
        w.length ∈ l.stop.cuts (reason.settled (s.pieces ops))) := by
  obtain ⟨l', hl', hended⟩ := ended_of_endsWith hs hops hend hreason
  rw [hl] at hl'
  cases hl'
  exact hended.prefix_iff htext hw ht

/-- The only piece brings two characters and half of a third, so there is no cut behind the two,
and they never arrive. -/
theorem prefix_join_fragments_iff_of_stranded :
    let s := ((ofPieces [[0x6F, 0x6B, 0xF0, 0x9F]] {}).prefill "" false 8).2
    let run := List.replicate 2 Operation.step
    s.EndsWith run .endOfGeneration ∧ s.fragments run = [""] ∧
      ∀ l, s.phase = .loaded l → (encode "ok").length ∉ l.stop.cuts (s.pieces run) := by
  intro s run
  have hs : (ofPieces [[0x6F, 0x6B, 0xF0, 0x9F]] {}).prefill "" false 8 =
      (.ok ⟨1, 1, 9, 1024⟩, s) := prefill_eq_of_fst (by decide +kernel)
  have hend : s.EndsWith run .endOfGeneration := by decide +kernel
  refine ⟨hend, by decide +kernel, fun l hl hmem => ?_⟩
  have htext : (s.pieces run).flatten = encode "ok" ++ [0xF0, 0x9F] := by decide +kernel
  have hcharacter : Unfinished [0xF0, 0x9F] := ⟨nofun, '😀', [0x98, 0x80], nofun, by decide⟩
  have harrives := (prefix_join_fragments_iff hs hl not_beginsTurn_of_mem_replicate hend nofun htext
    (wellFormed_encode "ok") hcharacter).2.2 hmem
  exact absurd harrives (by decide +kernel)

end Session
end LlmSession
