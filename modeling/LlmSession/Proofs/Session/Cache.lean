import LlmSession.Proofs.Engine.Cache
import LlmSession.Proofs.Worker.Requests

/-!
# What the cache holds of a turn

The distribution that a token is drawn from depends on what is in the cache and where.  So the cache
has to hold the turn and nothing else: the tokens of the prompt, behind them the tokens that were
drawn, each at the position of its place.

## Which drawn tokens

Not every token that is drawn goes into the cache.  The one that ends the turn is dropped, whether
it ends the turn by itself, completes a marker or finds no room.  And a token whose pass fails takes
the turn with it, so that nothing has to be said of the cache any more.  Hence the two cases of
`Mirrored`: while the turn goes on all drawn tokens are there, and once it is over all but the last.

## Main statements

* `Session.Mirrors.performs`: one operation that leaves the cache to the turn.
* `Session.Mirrors.after`: a run of such operations.
* `Session.cache_mirrors_turn`: the cache from the beginning of a turn on.
-/

namespace LlmSession

/-- Whether an operation may do something with the cache other than a step of the turn. -/
def Operation.ReplacesCache : Operation → Prop
  | .reload _ _ => True
  | .prefill _ _ _ => True
  | .clearCache _ => True
  | .benchmark _ => True
  | .unload => True
  | .load _ => False
  | .step => False
  | .stepFor _ => False

/-- Whether an operation, if it goes well, leaves a cache with nothing in it. -/
def Operation.EmptiesCache : Operation → Prop
  | .load _ => True
  | .reload _ _ => True
  | .clearCache _ => True
  | _ => False

/-- The cache holds the turn: the prompt with these tokens, and of the tokens `drawn` for it those
in `kept`. -/
structure Mirrored {E : Engine} (cache : E.Cache) (prompt drawn kept : List Token)
    (context : E.Context) (t : Turn) : Prop where
  holds : cache.Holds context (prompt ++ kept)
  promptTokens_eq : t.promptTokens = prompt.length
  cursor_eq : t.cursor = t.promptTokens + kept.length
  drawn_of_running : t.finished = none → drawn = kept
  drawn_of_over : ∀ reason, t.finished = some reason → ∃ last, drawn = kept ++ [last]

namespace Turn

theorem cursor_finish (t : Turn) (reason : StopReason) : (t.finish reason).2.cursor = t.cursor := by
  rw [finish, cursor_releaseUpTo]

theorem promptTokens_finish (t : Turn) (reason : StopReason) :
    (t.finish reason).2.promptTokens = t.promptTokens := by
  rw [finish, promptTokens_releaseUpTo]

theorem cursor_cutAt (t : Turn) (marker : String) : (t.cutAt marker).2.cursor = t.cursor := by
  simp only [cutAt, cursor_releaseUpTo]

theorem promptTokens_cutAt (t : Turn) (marker : String) :
    (t.cutAt marker).2.promptTokens = t.promptTokens := by
  simp only [cutAt, promptTokens_releaseUpTo]

end Turn

namespace Loaded

variable {E : Engine} {cache : E.Cache}

/-- The tokens of a prompt, read as the beginning of a turn reads it. -/
def promptTokens? (l : Loaded E) (prompt : String) (parseControl : Bool) (w : E.World) :
    Option (List Token) :=
  match l.prepareStop w with
  | (.error _, _) => none
  | (.ok _, w) => (E.tokenize l.context prompt true parseControl w).1.toOption

theorem promptTokens?_eq_some {l : Loaded E} {prompt : String} {parseControl : Bool}
    {w w₁ w₂ : E.World} {stop : StopConditions} {tokens : List Token}
    (hstop : l.prepareStop w = (.ok stop, w₁))
    (hread : E.tokenize l.context prompt true parseControl w₁ = (.ok tokens, w₂)) :
    l.promptTokens? prompt parseControl w = some tokens := by
  simp only [promptTokens?, hstop, hread]
  rfl

/-- A turn that has begun has read its prompt, and what it needs is a word. -/
theorem Prefills.exists_tokens {l l' : Loaded E} {rejectLongPrompts : Bool} {id : Nat}
    {prompt : String} {parseControl : Bool} {maxNewTokens : Nat} {w w' : E.World}
    {report : PrefillReport}
    (hp : l.Prefills rejectLongPrompts id prompt parseControl maxNewTokens w (.ok report, l', w')) :
    ∃ tokens, l.promptTokens? prompt parseControl w = some tokens ∧ tokens ≠ [] ∧
      report = .ofCounts id tokens.length maxNewTokens (E.contextSize l.context).toNat ∧
      report.required < twoTo 64 := by
  cases hp with
  | begun hstop htokens hne hreport htried hpasses =>
    exact ⟨_, promptTokens?_eq_some hstop htokens, hne, hreport,
      (PrefillReport.refusal?_eq_none_iff.1 htried).1⟩

/-- **The beginning of a turn** on an empty cache. -/
theorem Prefills.mirrored {l l' : Loaded E} {rejectLongPrompts : Bool} {id : Nat}
    {prompt : String} {parseControl : Bool} {maxNewTokens : Nat} {w w' : E.World}
    {report : PrefillReport}
    (hp : l.Prefills rejectLongPrompts id prompt parseControl maxNewTokens w (.ok report, l', w'))
    (hempty : cache.records l.context = []) :
    ∃ tokens t, l.promptTokens? prompt parseControl w = some tokens ∧
      report.promptTokens = tokens.length ∧ l'.turn = some t ∧
      Mirrored cache tokens [] [] l'.context t := by
  cases hp with
  | @begun stop tokens _ batch context w₁ w₂ _ hstop htokens hne hreport htried hpasses =>
    refine ⟨tokens, _, promptTokens?_eq_some hstop htokens, by rw [hreport]; rfl, rfl, ?_, rfl, rfl,
      fun _ => rfl, nofun⟩
    rw [List.append_nil]
    exact Engine.Cache.holds_of_submitAll hempty hpasses

/-- **A step** puts the token that it draws behind the others, or ends the turn. -/
theorem Steps.mirrored {l l' : Loaded E} {limit : LengthLimit} {t t' : Turn} {w w' : E.World}
    {outcome : Except SessionError Step} {prompt drawn kept : List Token}
    (hs : l.Steps limit t w (outcome, l', w')) (hf : t.finished = none)
    (h : Mirrored cache prompt drawn kept l.context t) (ht' : l'.turn = some t') :
    ∃ kept', Mirrored cache prompt (drawn ++ [l.token w]) kept' l'.context t' := by
  have hdrawn : drawn = kept := h.drawn_of_running hf
  cases hs with
  | verdict hv =>
    cases ht'
    refine ⟨kept, h.holds, (Turn.promptTokens_finish t _).trans h.promptTokens_eq, ?_, ?_,
      fun _ _ => ⟨_, by rw [hdrawn]⟩⟩
    · rw [Turn.cursor_finish, Turn.promptTokens_finish, h.cursor_eq]
    · rw [Turn.finished_finish]
      exact nofun
  | noBytes hv hd => exact nomatch ht'
  | marker hv hd hm =>
    cases ht'
    refine ⟨kept, h.holds, (Turn.promptTokens_cutAt _ _).trans h.promptTokens_eq, ?_, ?_,
      fun _ _ => ⟨_, by rw [hdrawn]⟩⟩
    · rw [Turn.cursor_cutAt, Turn.promptTokens_cutAt]
      exact h.cursor_eq
    · rw [Turn.finished_cutAt]
      exact nofun
  | @taken piece batch context _ hv hd hm hpass =>
    cases ht'
    have hcursor : t.cursor = (prompt ++ kept).length := by
      rw [h.cursor_eq, h.promptTokens_eq, List.length_append]
    have hprompt := l.promptTokens_release t piece
    have hrunning := (l.finished_release t piece).trans hf
    refine ⟨kept ++ [l.token w], ?_, hprompt.trans h.promptTokens_eq, ?_, fun _ => by rw [hdrawn],
      fun reason hreason => ?_⟩
    · rw [← List.append_assoc]
      exact h.holds.concat hcursor hpass
    · rw [hprompt, h.cursor_eq, List.length_append]
      rfl
    · rw [hrunning] at hreason
      exact nomatch hreason
  | lost hv hd hm hpass => exact nomatch ht'

end Loaded

namespace Session

variable {E : Engine} {cache : E.Cache}

/-! ## The tokens that are drawn -/

/-- The token that a step draws; none if there is no turn or it is over. -/
def nextDraw? (s : Session E) : Option Token :=
  match s.phase with
  | .loaded l =>
    match l.turn with
    | some t => if t.finished = none then some (l.token s.world) else none
    | none => none
  | _ => none

/-- The token that an operation draws. -/
def draw? (s : Session E) : Operation → Option Token
  | .step => s.nextDraw?
  | .stepFor id => if s.turnId? = some id then s.nextDraw? else none
  | _ => none

/-- The tokens that a run draws. -/
def draws (s : Session E) : List Operation → List Token
  | [] => []
  | op :: ops => (s.draw? op).toList ++ (s.perform op).2.draws ops

theorem draws_append (s : Session E) (ops ops' : List Operation) :
    s.draws (ops ++ ops') = s.draws ops ++ (s.after ops).draws ops' := by
  induction ops generalizing s with
  | nil => rfl
  | cons op ops ih =>
    rw [List.cons_append, draws, ih, ← List.append_assoc]
    rfl

theorem nextDraw?_of_running {s : Session E} {l : Loaded E} {t : Turn} (hl : s.phase = .loaded l)
    (ht : l.turn = some t) (hf : t.finished = none) : s.nextDraw? = some (l.token s.world) := by
  simp only [nextDraw?, hl, ht, if_pos hf]

theorem nextDraw?_of_finished {s : Session E} {l : Loaded E} {t : Turn} {reason : StopReason}
    (hl : s.phase = .loaded l) (ht : l.turn = some t) (hf : t.finished = some reason) :
    s.nextDraw? = none := by
  simp only [nextDraw?, hl, ht, hf]
  rfl

theorem nextDraw?_of_turnId?_eq_none {s : Session E} (h : s.turnId? = none) :
    s.nextDraw? = none := by
  unfold nextDraw?
  split
  · next l hl =>
    split
    · next t ht =>
      rw [turnId?_of_loaded hl, ht] at h
      exact nomatch h
    · rfl
  · rfl

/-- A step of a given turn draws what a step draws, as long as no other turn is there. -/
theorem draw?_stepFor {s : Session E} {id : Nat}
    (hid : ∀ current, s.turnId? = some current → current = id) :
    s.draw? (.stepFor id) = s.draw? .step := by
  show (if s.turnId? = some id then s.nextDraw? else none) = s.nextDraw?
  cases hturn : s.turnId? with
  | some current => rw [hid current hturn, if_pos rfl]
  | none => rw [nextDraw?_of_turnId?_eq_none hturn, ite_self]

/-! ## The invariant -/

/-- The cache of the session's context holds nothing. -/
def HoldsNothing (cache : E.Cache) (s : Session E) : Prop :=
  ∃ l, s.phase = .loaded l ∧ cache.records l.context = []

/-- If there is a turn, then the cache holds it: the prompt with these tokens, and of the tokens
drawn for it all that belong there. -/
def Mirrors (cache : E.Cache) (prompt drawn : List Token) (s : Session E) : Prop :=
  ∀ l t, s.phase = .loaded l → l.turn = some t →
    ∃ kept, Mirrored cache prompt drawn kept l.context t

variable {prompt drawn : List Token}

theorem mirrors_of_not_turn {s : Session E} (h : ∀ l, s.phase = .loaded l → l.turn = none) :
    s.Mirrors cache prompt drawn := by
  intro l t hl ht
  rw [h l hl] at ht
  exact nomatch ht

theorem Mirrors.append_none {s : Session E} {op : Operation} (h : s.Mirrors cache prompt drawn)
    (hdraw : s.draw? op = none) : s.Mirrors cache prompt (drawn ++ (s.draw? op).toList) := by
  rw [hdraw]
  exact (List.append_nil drawn).symm ▸ h

/-- **An operation that leaves the cache to the turn** keeps the cache what it was, or adds the
token that it draws. -/
theorem Mirrors.performs {s : Session E} {op : Operation}
    {result : Except SessionError Answer × Session E} (h : s.Mirrors cache prompt drawn)
    (hp : s.Performs op result) (hop : ¬ op.ReplacesCache) :
    result.2.Mirrors cache prompt (drawn ++ (s.draw? op).toList) := by
  revert hop
  induction hp with
  | notIdle _ => exact fun _ => h.append_none rfl
  | notLoaded _ hphase => exact fun _ => mirrors_of_not_turn fun l hl => absurd hl (hphase l)
  | noTurn hl ht =>
    refine fun _ => mirrors_of_not_turn fun l' hl' => ?_
    rw [hl] at hl'
    cases hl'
    exact ht
  | replaced hcurrent hne =>
    refine fun _ => h.append_none ?_
    rw [draw?, hcurrent, if_neg fun heq => hne (Option.some.inj heq)]
  | loadFailed hidle _ =>
    exact fun _ => mirrors_of_not_turn fun l hl => by simp [hidle] at hl
  | loaded _ ha =>
    refine fun _ => mirrors_of_not_turn fun l' hl' => ?_
    cases hl'
    cases ha
    rfl
  | finished hl ht hf => exact fun _ => h.append_none (nextDraw?_of_finished hl ht hf)
  | stepped hl ht hf hstep =>
    intro _ l' t' hl' ht'
    cases hl'
    obtain ⟨kept, hkept⟩ := h _ _ hl ht
    rw [draw?, nextDraw?_of_running hl ht hf]
    exact hstep.mirrored hf hkept ht'
  | stepFor hid _ ih =>
    intro _
    rw [draw?_stepFor hid]
    exact ih not_false
  | faulted _ _ => exact fun hop => absurd trivial hop
  | reloaded _ _ => exact fun hop => absurd trivial hop
  | notBegun _ _ => exact fun hop => absurd trivial hop
  | begun _ _ => exact fun hop => absurd trivial hop
  | cleared _ _ => exact fun hop => absurd trivial hop
  | measured _ _ => exact fun hop => absurd trivial hop
  | unloaded => exact fun hop => absurd trivial hop

/-- **A run** of such operations. -/
theorem Mirrors.after {s : Session E} (h : s.Mirrors cache prompt drawn) {ops : List Operation}
    (hops : ∀ op ∈ ops, ¬ op.ReplacesCache) :
    (s.after ops).Mirrors cache prompt (drawn ++ s.draws ops) := by
  induction ops generalizing s drawn with
  | nil => exact (List.append_nil drawn).symm ▸ h
  | cons op ops ih =>
    have hstep := h.performs (s.performs op) (hops op List.mem_cons_self)
    have hrest := ih hstep fun op' hop' => hops op' (List.mem_cons_of_mem _ hop')
    rwa [List.append_assoc] at hrest

/-! ## Where a cache with nothing in it comes from -/

/-- **What empties the cache** leaves it with nothing in it, if it goes well. -/
theorem Performs.holdsNothing {s : Session E} {op : Operation}
    {result : Except SessionError Answer × Session E} {answer : Answer}
    (hp : s.Performs op result) (hop : op.EmptiesCache) (h : result.1 = .ok answer) :
    result.2.HoldsNothing cache := by
  cases hp with
  | loaded _ ha =>
    cases ha with
    | had _ hc _ => exact ⟨_, rfl, cache.records_newContext hc⟩
  | reloaded _ hc => exact ⟨_, rfl, cache.records_newContext hc⟩
  | cleared _ hc => exact ⟨_, rfl, cache.records_clearMemory hc⟩
  | notIdle _ => exact nomatch h
  | notLoaded _ _ => exact nomatch h
  | loadFailed _ _ => exact nomatch h
  | faulted _ _ => exact nomatch h
  | _ => exact hop.elim

/-- **A turn that is streamed** begins on a cache with nothing in it, if the defaults ask for
that. -/
theorem prefill_of_streamTurn {w : Worker E} {prompt : String} {parseControl : Bool}
    {maxNewTokens : Nat} {stream : TurnStream} (hclear : w.defaults.clearCacheBetweenTurns = true)
    (h : (w.streamTurn prompt parseControl maxNewTokens).1 = .ok stream) :
    (w.session.clearCache true).2.HoldsNothing cache ∧
      (w.session.clearCache true).2.prefill prompt parseControl maxNewTokens =
        (.ok stream.report, (w.streamTurn prompt parseControl maxNewTokens).2.session) := by
  by_cases hready : w.CanReady
  · obtain ⟨l, hl⟩ := hready hclear
    have hcleared : (w.session.perform (.clearCache true)).1 = .ok .done := by
      simp only [perform, clearCache, hl]
      rfl
    refine ⟨(w.session.performs (.clearCache true)).holdsNothing trivial hcleared, ?_⟩
    rw [Worker.streamTurn_of_canReady hready, Worker.ready_of_clears hclear] at h ⊢
    rcases hp : (w.session.clearCache true).2.prefill prompt parseControl maxNewTokens with
      ⟨e | report, s'⟩
    · rw [hp] at h
      cases h
    · rw [hp] at h
      cases h
      rfl
  · rw [Worker.streamTurn_of_not_canReady hready] at h
    cases h

/-! ## The cache of a turn -/

/-- The tokens of a prompt, read as the next turn would read it. -/
def promptTokens? (s : Session E) (prompt : String) (parseControl : Bool) : Option (List Token) :=
  s.loaded?.bind fun l => l.promptTokens? prompt parseControl s.world

theorem promptTokens?_of_loaded {s : Session E} {l : Loaded E} (hl : s.phase = .loaded l)
    (prompt : String) (parseControl : Bool) :
    s.promptTokens? prompt parseControl = l.promptTokens? prompt parseControl s.world := by
  simp only [promptTokens?, loaded?, hl, Option.bind_some]

/-- **The numbers in a report** are those of the prompt that was read. -/
theorem exists_tokens_of_prefill {s₀ s : Session E} {prompt : String} {parseControl : Bool}
    {maxNewTokens : Nat} {report : PrefillReport}
    (hprefill : s₀.prefill prompt parseControl maxNewTokens = (.ok report, s)) :
    ∃ tokens, s₀.promptTokens? prompt parseControl = some tokens ∧ tokens ≠ [] ∧
      report.promptTokens = tokens.length ∧
      report.required = report.promptTokens + maxNewTokens ∧ report.required < twoTo 64 := by
  obtain ⟨l, l', hl, -, -, hp⟩ := exists_prefills_of_prefill hprefill
  obtain ⟨tokens, htokens, hne, hreport, hword⟩ := hp.exists_tokens
  refine ⟨tokens, (promptTokens?_of_loaded hl prompt parseControl).trans htokens, hne, ?_, ?_,
    hword⟩
  · rw [hreport]
    rfl
  · rw [hreport]
    rfl

theorem Performs.mirrors_of_begun {s : Session E} {prompt : String} {parseControl : Bool}
    {maxNewTokens : Nat} {result : Except SessionError Answer × Session E} {report : PrefillReport}
    (hp : s.Performs (.prefill prompt parseControl maxNewTokens) result)
    (h : result.1 = .ok (.begun report)) (hempty : s.HoldsNothing cache) :
    ∃ tokens, s.promptTokens? prompt parseControl = some tokens ∧
      report.promptTokens = tokens.length ∧ result.2.Mirrors cache tokens [] := by
  obtain ⟨l, hl, hempty⟩ := hempty
  cases hp with
  | notLoaded _ _ => exact nomatch h
  | notBegun _ _ => exact nomatch h
  | begun hl' hp =>
    rw [hl] at hl'
    cases hl'
    cases h
    obtain ⟨tokens, t, htokens, hlength, ht, hmirrored⟩ := hp.mirrored hempty
    refine ⟨tokens, by simp only [promptTokens?, loaded?, hl, Option.bind_some, htokens], hlength,
      fun l' t' hl' ht' => ?_⟩
    cases hl'
    rw [ht] at ht'
    cases ht'
    exact ⟨[], hmirrored⟩

/-- **The cache holds the turn and nothing else.**  A context that is new or was just emptied holds
nothing, and a streamed turn begins on such a context by default.  A turn that begins there has its
prompt in the cache, and from then on, whatever is done that leaves the cache to the turn, the
tokens drawn for it behind the prompt, but for the one that ended it.  They stand at the positions
from zero up to the cursor, each in the first sequence only. -/
theorem cache_mirrors_turn (cache : E.Cache) :
    (∀ (s : Session E) (op : Operation) (answer : Answer), op.EmptiesCache →
      (s.perform op).1 = .ok answer → (s.perform op).2.HoldsNothing cache) ∧
    (∀ (w : Worker E) (prompt : String) (parseControl : Bool) (maxNewTokens : Nat)
      (stream : TurnStream), w.defaults.clearCacheBetweenTurns = true →
      (w.streamTurn prompt parseControl maxNewTokens).1 = .ok stream →
      (w.session.clearCache true).2.HoldsNothing cache ∧
        (w.session.clearCache true).2.prefill prompt parseControl maxNewTokens =
          (.ok stream.report, (w.streamTurn prompt parseControl maxNewTokens).2.session)) ∧
    ∀ (s : Session E) (prompt : String) (parseControl : Bool) (maxNewTokens : Nat)
      (report : PrefillReport) (s₀ : Session E) (ops : List Operation) (l : Loaded E) (t : Turn),
      s.HoldsNothing cache → s.prefill prompt parseControl maxNewTokens = (.ok report, s₀) →
      (∀ op ∈ ops, ¬ op.ReplacesCache) → (s₀.after ops).phase = .loaded l → l.turn = some t →
      ∃ tokens kept, s.promptTokens? prompt parseControl = some tokens ∧
        report.promptTokens = tokens.length ∧
        (cache.records l.context).map BatchSlot.place = placesOf (tokens ++ kept) ∧
        t.cursor = report.promptTokens + kept.length ∧
        (t.finished = none → s₀.draws ops = kept) ∧
        (∀ reason, t.finished = some reason → ∃ last, s₀.draws ops = kept ++ [last]) ∧
        (t.cursor ≤ twoTo 31 → (cache.records l.context).map (fun slot => slot.pos.toInt) =
          (List.range t.cursor).map Int.ofNat) := by
  refine ⟨fun s op answer hop h => (s.performs op).holdsNothing hop h,
    fun w prompt parseControl maxNewTokens stream hclear h => prefill_of_streamTurn hclear h, ?_⟩
  intro s prompt parseControl maxNewTokens report s₀ ops l t hempty hprefill hops hl ht
  have hp := s.performs (.prefill prompt parseControl maxNewTokens)
  simp only [perform, hprefill] at hp
  obtain ⟨tokens, htokens, hlength, hmirrors⟩ := hp.mirrors_of_begun rfl hempty
  obtain ⟨kept, h⟩ := hmirrors.after hops l t hl ht
  rw [List.nil_append] at h
  have hcursor : t.cursor = report.promptTokens + kept.length := by
    rw [h.cursor_eq, h.promptTokens_eq, hlength]
  refine ⟨tokens, kept, htokens, hlength, h.holds, hcursor, h.drawn_of_running, h.drawn_of_over,
    fun hle => ?_⟩
  rw [hcursor, hlength, ← List.length_append] at hle ⊢
  exact h.holds.map_toInt_pos hle

/-- The first turn is lost and the cache is emptied.  Of the second turn the prompt and two tokens
are there, and the third is what ended it. -/
theorem cache_mirrors_turn_of_second_turn :
    let script : Script :=
      { replies := [.ofByte 0x68, .ofByte 0x69, .ofByte 0x6B], failDecode := [2] }
    let lost := ({ options := {}, world := ({} : Script.World) } : Session script.engine).after
      [.load "model", .prefill "a" false 8, .step]
    let begun := ((lost.perform (.clearCache true)).2.prefill "ab" false 8).2
    let ops : List Operation := [.step, .stepFor 1, .stepFor 2, .load "again", .step, .step]
    ∃ l t, (begun.after ops).phase = .loaded l ∧ l.turn = some t ∧
      t.finished = some .endOfGeneration ∧
      begun.draws ops = [.ofByte 0x69, .ofByte 0x6B, .closing] ∧
      (script.cache.records l.context).map BatchSlot.place =
        placesOf [.opening, .ofByte 0x61, .ofByte 0x62, .ofByte 0x69, .ofByte 0x6B] := by
  intro script lost begun ops
  obtain ⟨hempties, -, hmirrors⟩ := cache_mirrors_turn script.cache
  have hcleared : (lost.clearCache true).1 = .ok () := by decide +kernel
  have hempty : (lost.perform (.clearCache true)).2.HoldsNothing script.cache :=
    hempties lost (.clearCache true) .done trivial (by rw [perform, hcleared]; rfl)
  have hbegun : (lost.perform (.clearCache true)).2.prefill "ab" false 8 =
      (.ok ⟨2, 3, 11, 1024⟩, begun) := prefill_eq_of_fst (by decide +kernel)
  have hops : ∀ op ∈ ops, ¬ op.ReplacesCache := by
    simp only [ops, List.forall_mem_cons]
    exact ⟨id, id, id, id, id, id, fun _ hop => absurd hop List.not_mem_nil⟩
  have hfinished : (begun.after ops).turn?.map Turn.finished = some (some .endOfGeneration) := by
    decide +kernel
  obtain ⟨t, hturn, hf⟩ := Option.map_eq_some_iff.1 hfinished
  obtain ⟨l, -, hl, ht⟩ := exists_loaded_of_turn? hturn
  have hdraws : begun.draws ops = [.ofByte 0x69, .ofByte 0x6B, .closing] := by decide +kernel
  refine ⟨l, t, hl, ht, hf, hdraws, ?_⟩
  obtain ⟨tokens, kept, htokens, -, hplaces, -, -, hover, -⟩ :=
    hmirrors _ "ab" false 8 _ begun ops l t hempty hbegun hops hl ht
  have hprompt : (lost.perform (.clearCache true)).2.promptTokens? "ab" false =
      some [.opening, .ofByte 0x61, .ofByte 0x62] := by decide +kernel
  rw [hprompt] at htokens
  obtain ⟨last, hlast⟩ := hover _ hf
  rw [hdraws] at hlast
  have hkept : kept = [.ofByte 0x69, .ofByte 0x6B] :=
    (List.append_inj_left' hlast.symm rfl)
  rw [hplaces, ← Option.some.inj htokens, hkept]
  rfl

end Session
end LlmSession
