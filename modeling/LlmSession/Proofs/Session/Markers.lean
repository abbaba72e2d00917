import LlmSession.Proofs.Session.Streaming

/-!
# Markers in a turn, and in what it gives

While a turn runs its reply holds no marker, so neither does what it has given.  When a marker
comes, the turn ends and gives what stands in front of it.

## Which occurrence

The scan looks for the markers in the configured order, and takes the *first marker* that is
there; the turn is then cut at the *last place* where that marker stands.  A piece that completes
one occurrence only leaves no choice.  But a piece may be long.  If it brings the same marker
twice, the turn is cut at the second; if it brings two markers, it is cut at the one that comes
first in the configuration, wherever that stands.  What is in front of the cut then holds a
marker, and the caller gets it (`StopConditions.Leaks`).

## Main statements

* `Session.scan_eq_search`: the scan, piece by piece, is a search through the whole reply.
* `Session.exists_marker_infix_fragments_iff`: when a marker reaches the caller.
-/

namespace LlmSession

open Utf8

/-- A marker stands in front of the place where the reply is cut. -/
def StopConditions.Leaks (c : StopConditions) (reply : List UInt8) : Prop :=
  ∃ m start, (c.markers.find? fun m => occursIn (encode m) reply) = some m ∧
    markerStart? reply m = some start ∧ c.Contains (reply.take start)

theorem StopConditions.contains_ofLists (stopStrings markers : List String)
    (reply : List UInt8) :
    (ofLists stopStrings markers).Contains reply ↔
      ∃ m ∈ markers, m ≠ "" ∧ encode m <:+: reply := by
  constructor
  · rintro ⟨m, hm, hin⟩
    rw [markers_ofLists, List.mem_filter, decide_eq_true_iff] at hm
    exact ⟨m, hm.1, hm.2, hin⟩
  · rintro ⟨m, hm, hne, hin⟩
    refine ⟨m, ?_, hin⟩
    rw [markers_ofLists, List.mem_filter, decide_eq_true_iff]
    exact ⟨hm, hne⟩

/-- What passes holds a marker exactly if one stands in front of the cut. -/
theorem StopConditions.Passes.contains_iff {c : StopConditions} {reply : List UInt8}
    {out : String} (h : c.Passes reply out) (hc : Completable reply) :
    c.Contains (encode out) ↔ c.Leaks reply := by
  rcases h hc with ⟨hno, hp⟩ | ⟨m, start, hfind, hstart, hout⟩
  · constructor
    · intro hin
      exact absurd (hin.mono hp.isInfix) hno
    · rintro ⟨m, start, -, -, hin⟩
      exact absurd (hin.mono (List.take_prefix start reply).isInfix) hno
  · rw [hout]
    constructor
    · intro hin
      exact ⟨m, start, hfind, hstart, hin⟩
    · rintro ⟨m', start', hfind', hstart', hin⟩
      rw [hfind] at hfind'
      cases hfind'
      rw [hstart] at hstart'
      cases hstart'
      exact hin

namespace Session

variable {E : Engine} {s₀ s : Session E} {prompt : String} {parseControl : Bool}
  {maxNewTokens : Nat} {report : PrefillReport} {ops : List Operation}

/-! ## The scan -/

/-- A turn that goes on has the pieces for its text, and no marker in it. -/
theorem text_eq_and_not_contains
    (hs : s₀.prefill prompt parseControl maxNewTokens = (.ok report, s))
    (hops : ∀ op ∈ ops, ¬ op.BeginsTurn) {t : Turn} (ht : (s.after ops).turn? = some t)
    (hf : t.finished = none) :
    t.text = (s.pieces ops).flatten ∧
      ∀ l, (s.after ops).loaded? = some l → ¬ l.stop.Contains t.text := by
  obtain ⟨l₀, -, hfollows⟩ := follows_after_of_prefill hs hops
  obtain ⟨l, hloaded, hl, hturn⟩ := exists_loaded_of_turn? ht
  obtain ⟨hstop, htracks⟩ := hfollows.running l.stop t ⟨l, hl, rfl, hturn⟩ hf
  refine ⟨htracks.text_eq, fun l' hl' => ?_⟩
  rw [hloaded] at hl'
  cases hl'
  rw [hstop]
  exact htracks.not_contains

/-- **The scan, piece by piece, is a search through the whole reply.**  It answers first where a
marker is there first, and with a marker that ends in the piece that has just come.  However the
bytes are cut, it answers at some piece exactly when all of them together hold a marker.  So the
text of a turn that goes on never holds one. -/
theorem scan_eq_search (stopStrings markers : List String) (pieces : List (List UInt8)) :
    let c := StopConditions.ofLists stopStrings markers
    let Found (k : Nat) := ∃ m, c.scanAt pieces k = some m
    let Holds (reply : List UInt8) := ∃ m ∈ markers, m ≠ "" ∧ encode m <:+: reply
    (∀ k, IsLeast {k | Found k} k ↔
      IsLeast {k | k < pieces.length ∧ Holds (StopConditions.replyAt pieces k)} k) ∧
    (∀ k m piece, IsLeast {k | Found k} k → pieces[k]? = some piece →
      c.scanAt pieces k = some m →
      m ∈ markers ∧ m ≠ "" ∧ ∃ before after,
        StopConditions.replyAt pieces k = before ++ encode m ++ after ∧
          after.length < piece.length) ∧
    ((∃ k, Found k) ↔ Holds pieces.flatten) ∧
    ∀ {E : Engine} {s₀ s : Session E} {prompt : String} {parseControl : Bool}
      {maxNewTokens : Nat} {report : PrefillReport} {ops : List Operation} {t : Turn},
      s₀.prefill prompt parseControl maxNewTokens = (.ok report, s) →
      (∀ op ∈ ops, ¬ op.BeginsTurn) → (s.after ops).turn? = some t → t.finished = none →
      (s.after ops).loaded?.map (fun l => l.stop.markers) = some c.markers →
      t.text = (s.pieces ops).flatten ∧ ¬ Holds t.text := by
  intro c Found Holds
  have hholds : ∀ reply, c.Contains reply ↔ Holds reply :=
    StopConditions.contains_ofLists stopStrings markers
  refine ⟨fun k => ?_, fun k m piece hleast hpiece h => ?_, ?_, ?_⟩
  · simp only [← hholds]
    exact c.isLeast_scanAt_iff pieces k
  · obtain ⟨hm, hends⟩ := StopConditions.exists_of_isLeast_scanAt hleast hpiece h
    rw [StopConditions.markers_ofLists, List.mem_filter, decide_eq_true_iff] at hm
    exact ⟨hm.1, hm.2, hends⟩
  · rw [← hholds]
    exact c.exists_scanAt_iff pieces
  · intro E s₀ s prompt parseControl maxNewTokens report ops t hs hops ht hf hmarkers
    obtain ⟨htext, hnot⟩ := text_eq_and_not_contains hs hops ht hf
    obtain ⟨l, hl, hm⟩ := Option.map_eq_some_iff.1 hmarkers
    refine ⟨htext, fun hin => hnot l hl ?_⟩
    rw [StopConditions.Contains, hm]
    exact (hholds t.text).2 hin

/-- The marker is spread over four pieces, one of them empty, and two markers begin alike. -/
theorem scan_eq_search_of_spread_marker :
    let pieces : List (List UInt8) := [[0x78, 0x3C], [0x62], [], [0x3E, 0x79]]
    let Holds (reply : List UInt8) :=
      ∃ m ∈ ["", "<a>", "<b>"], m ≠ "" ∧ encode m <:+: reply
    let s := ((ofPieces pieces { stopMarkers := ["", "<a>", "<b>"] }).prefill "" false 8).2
    IsLeast {k | k < 4 ∧ Holds (StopConditions.replyAt pieces k)} 3 ∧
      (∃ before after, StopConditions.replyAt pieces 3 = before ++ encode "<b>" ++ after ∧
        after.length < 2) ∧
      Holds pieces.flatten ∧ ¬ Holds (s.pieces (.replicate 3 .step)).flatten := by
  intro pieces Holds s
  have hnone : ∀ j < 3, (StopConditions.ofLists [] ["", "<a>", "<b>"]).scanAt pieces j = none := by
    decide +kernel
  have hleast : IsLeast {k | ∃ m, (StopConditions.ofLists [] ["", "<a>", "<b>"]).scanAt pieces k =
      some m} 3 := by
    refine ⟨⟨"<b>", by decide +kernel⟩, fun k ⟨m, hm⟩ => ?_⟩
    by_contra hlt
    rw [hnone k (Nat.not_le.1 hlt)] at hm
    exact nomatch hm
  obtain ⟨hiff, hends, hwhole, hruns⟩ := scan_eq_search [] ["", "<a>", "<b>"] pieces
  refine ⟨(hiff 3).1 hleast, ?_, hwhole.1 ⟨3, hleast.1⟩, ?_⟩
  · exact (hends 3 "<b>" [0x3E, 0x79] hleast rfl (by decide +kernel)).2.2
  · have hs : (ofPieces pieces { stopMarkers := ["", "<a>", "<b>"] }).prefill "" false 8 =
        (.ok ⟨1, 1, 9, 1024⟩, s) := prefill_eq_of_fst (by decide +kernel)
    have hturn : (s.after (.replicate 3 .step)).turn?.isSome := by decide +kernel
    have hgoes : (s.after (.replicate 3 .step)).turn?.bind Turn.finished = none := by
      decide +kernel
    obtain ⟨t, ht⟩ := Option.isSome_iff_exists.1 hturn
    rw [ht, Option.bind_some] at hgoes
    obtain ⟨htext, hnot⟩ :=
      hruns hs not_beginsTurn_of_mem_replicate ht hgoes (by decide +kernel)
    rwa [htext] at hnot

/-! ## What reaches the caller -/

/-- **When a marker reaches the caller**, however far the turn has come. -/
theorem exists_marker_infix_fragments_iff {l : Loaded E}
    (hs : s₀.prefill prompt parseControl maxNewTokens = (.ok report, s))
    (hl : s.phase = .loaded l) (hops : ∀ op ∈ ops, ¬ op.BeginsTurn)
    (hc : Completable (s.pieces ops).flatten) :
    (∃ m ∈ l.stop.markers, m.toList <:+: (String.join (s.fragments ops)).toList) ↔
      l.stop.Leaks (s.pieces ops).flatten := by
  obtain ⟨l', hl', hfollows⟩ := follows_of_prefill hs
  rw [hl] at hl'
  cases hl'
  have hpasses := (hfollows.after hops).passes
  rw [List.nil_append, String.empty_append] at hpasses
  rw [← hpasses.contains_iff hc]
  simp only [StopConditions.Contains, encode_infix_encode_iff]

/-- The piece brings the marker twice, and the caller gets the first one. -/
theorem exists_marker_infix_fragments_of_twice :
    let s := ((ofPieces [encode "a<S>b<S>c"] { stopMarkers := ["<S>"] }).prefill "" false 8).2
    let run := List.replicate 2 Operation.step
    s.fragments run = ["a<S>b"] ∧ ∀ l, s.phase = .loaded l →
      ∃ m ∈ l.stop.markers, m.toList <:+: (String.join (s.fragments run)).toList := by
  intro s run
  refine ⟨by decide +kernel, fun l hl => ?_⟩
  have hs : (ofPieces [encode "a<S>b<S>c"] { stopMarkers := ["<S>"] }).prefill "" false 8 =
      (.ok ⟨1, 1, 9, 1024⟩, s) := prefill_eq_of_fst (by decide +kernel)
  have htext : (s.pieces run).flatten = encode "a<S>b<S>c" := by decide +kernel
  have hmarkers : l.stop.markers = ["<S>"] := by
    have hloaded : s.loaded?.map (fun l => l.stop.markers) = some ["<S>"] := by decide +kernel
    rw [loaded?, hl] at hloaded
    exact Option.some.inj hloaded
  have hc : Completable (s.pieces run).flatten := by
    rw [htext]
    exact (wellFormed_encode _).completable
  refine (exists_marker_infix_fragments_iff hs hl not_beginsTurn_of_mem_replicate hc).2 ?_
  rw [htext]
  refine ⟨"<S>", 5, ?_, by decide +kernel, "<S>", ?_, by decide +kernel⟩
  · rw [hmarkers]
    decide +kernel
  · rw [hmarkers]
    exact List.mem_singleton_self _

end Session
end LlmSession
