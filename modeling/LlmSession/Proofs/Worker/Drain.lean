import LlmSession.Proofs.Worker.Streams

/-!
# Draining a stream

A stream may be asked for its text piece by piece, or for all that is left, or first the one and
then the other.  So what it gave is not the answer of a single call.  `TurnStream.drained` lists what
a stream gives when all is asked for; together with what it gave before, that is all it ever gives.

## What a stream knows

A stream keeps three things: the text that it gave, why its turn is over, and whether it is over
itself.  `TurnStream.Tells` ties them to the list of what it gave.  The text is all text of the list,
and the stream is over if a reason has come or an error is in the list, but never both.  That is all
there is to say: an error that was given is not kept, and a stream that failed before looks like any
other that is over when it is drained.

## Main statements

* `TurnStream.exists_steps_of_next`, `TurnStream.exists_steps_of_drain`: how many steps it takes.
* `TurnStream.drain_eq_error_iff`: when a drain fails.
* `TurnStream.Tells.pulls`, `TurnStream.Tells.drain`: what a stream knows, along its steps.
-/

namespace LlmSession

/-! ## How many steps it takes -/

namespace TurnStream

variable {E : Engine}

/-- **Asking for text** is a bounded number of steps.  Text leaves fewer to the turn, by as many as
were made for it, and all else is the end of the stream. -/
theorem exists_steps_of_next (t : TurnStream) (s : Session E) :
    ∃ n, (t.next s).2.2 = s.after (List.replicate n (.stepFor t.report.turnId)) ∧
      (t.next s).2.1.report = t.report ∧
      ((∃ text, (t.next s).1 = some (.ok text) ∧ (t.next s).2.2.stepsLeft + n ≤ s.stepsLeft) ∨
        (∀ text, (t.next s).1 ≠ some (.ok text)) ∧ (t.next s).2.1.done = true ∧
          n ≤ s.stepsLeft + 1) := by
  have hafter {s s₁ : Session E} {step : Except SessionError Step}
      (hstep : s.decodeStepFor t.report.turnId = (step, s₁)) (n : Nat) :
      s.after (List.replicate (n + 1) (.stepFor t.report.turnId)) =
        s₁.after (List.replicate n (.stepFor t.report.turnId)) := by
    rw [List.replicate_succ, Session.after, Session.perform, hstep]
  fun_induction next t s with
  | case1 s hdone =>
    refine ⟨0, rfl, rfl, Or.inr ⟨?_, hdone, Nat.zero_le _⟩⟩
    intro text h
    cases h
  | case2 s hdone s₁ hstep ih =>
    have hless := Session.stepsLeft_decodeStepFor_lt hstep
    obtain ⟨n, hrun, hreport, hends⟩ := ih
    refine ⟨n + 1, hrun.trans (hafter hstep n).symm, hreport, ?_⟩
    rcases hends with ⟨text, htext, hleft⟩ | ⟨hends, hdone', hleft⟩
    · exact Or.inl ⟨text, htext, by omega⟩
    · exact Or.inr ⟨hends, hdone', by omega⟩
  | case3 s hdone text s₁ hstep htext =>
    have hless := Session.stepsLeft_decodeStepFor_lt hstep
    exact ⟨1, (hafter hstep 0).symm, rfl, Or.inl ⟨text, rfl, hless⟩⟩
  | case4 s hdone reason s₁ hstep =>
    refine ⟨1, (hafter hstep 0).symm, rfl, Or.inr ⟨?_, rfl, by omega⟩⟩
    intro text h
    cases h
  | case5 s hdone e s₁ hstep =>
    refine ⟨1, (hafter hstep 0).symm, rfl, Or.inr ⟨?_, rfl, by omega⟩⟩
    intro text h
    cases h

/-- **Draining a stream** is a bounded number of steps. -/
theorem exists_steps_of_drain (t : TurnStream) (s : Session E) :
    ∃ n ≤ s.stepsLeft + 1,
      (t.drain s).2.2 = s.after (List.replicate n (.stepFor t.report.turnId)) ∧
        (t.drain s).2.1.done = true := by
  fun_induction drain t s with
  | case1 t s t' s' hnext =>
    obtain ⟨n, hrun, -, ⟨text, htext, -⟩ | ⟨-, hdone, hleft⟩⟩ := t.exists_steps_of_next s
    · rw [hnext] at htext
      cases htext
    · rw [hnext] at hrun hdone
      exact ⟨n, hleft, hrun, hdone⟩
  | case2 t s text t' s' hnext ih =>
    obtain ⟨n, hn, hrest, hdone⟩ := ih
    obtain ⟨m, hrun, hreport, ⟨_, -, hleft⟩ | ⟨hends, -, -⟩⟩ := t.exists_steps_of_next s
    · rw [hnext] at hrun hreport hleft
      refine ⟨m + n, by dsimp only at hleft; omega, ?_, hdone⟩
      rw [hrest, ← List.replicate_append_replicate, Session.after_append, ← hrun, hreport]
    · rw [hnext] at hends
      exact absurd rfl (hends text)
  | case3 t s e t' s' hnext =>
    obtain ⟨n, hrun, -, ⟨text, htext, -⟩ | ⟨-, hdone, hleft⟩⟩ := t.exists_steps_of_next s
    · rw [hnext] at htext
      cases htext
    · rw [hnext] at hrun hdone
      exact ⟨n, hleft, hrun, hdone⟩

end TurnStream

/-! ## What a stream gives -/

namespace TurnStream

variable {E : Engine}

/-- The text among what a stream gave. -/
def texts (items : List (Except SessionError String)) : List String :=
  items.filterMap Except.toOption

/-- Whether an error is among what a stream gave. -/
def Fails (items : List (Except SessionError String)) : Prop := ∃ e, .error e ∈ items

/-- What a stream gives when it is asked for all that is left, up to its end or the first error. -/
def drained (t : TurnStream) (s : Session E) : List (Except SessionError String) :=
  match _hnext : t.next s with
  | (none, _, _) => []
  | (some (.ok text), t', s') => .ok text :: drained t' s'
  | (some (.error e), _, _) => [.error e]
termination_by s.stepsLeft
decreasing_by exact stepsLeft_next_lt _hnext

@[simp] theorem texts_append (items more : List (Except SessionError String)) :
    texts (items ++ more) = texts items ++ texts more :=
  List.filterMap_append

@[simp] theorem texts_ok_cons (text : String) (items : List (Except SessionError String)) :
    texts (.ok text :: items) = text :: texts items := rfl

@[simp] theorem texts_error_cons (e : SessionError) (items : List (Except SessionError String)) :
    texts (.error e :: items) = texts items := rfl

@[simp] theorem texts_nil : texts [] = [] := rfl

theorem not_fails_nil : ¬ Fails [] := by
  rintro ⟨e, h⟩
  exact List.not_mem_nil h

@[simp] theorem fails_append {items more : List (Except SessionError String)} :
    Fails (items ++ more) ↔ Fails items ∨ Fails more := by
  simp only [Fails, List.mem_append, exists_or]

theorem not_fails_ok (text : String) : ¬ Fails [.ok text] := by
  rintro ⟨e, h⟩
  exact nomatch List.mem_singleton.1 h

theorem fails_error (e : SessionError) : Fails [.error e] := ⟨e, List.mem_singleton_self _⟩

variable {t : TurnStream} {s : Session E}

/-! ### Draining -/

theorem drain_of_next_eq_none {t' : TurnStream} {s' : Session E} (h : t.next s = (none, t', s')) :
    t.drain s = (.ok (), t', s') ∧ t.drained s = [] := by
  rw [drain, drained]
  constructor <;> split <;> next hnext => cases h.symm.trans hnext <;> rfl

theorem drain_of_next_eq_text {text : String} {t' : TurnStream} {s' : Session E}
    (h : t.next s = (some (.ok text), t', s')) :
    t.drain s = t'.drain s' ∧ t.drained s = .ok text :: t'.drained s' := by
  rw [drain, drained]
  constructor <;> split <;> next hnext => cases h.symm.trans hnext <;> rfl

theorem drain_of_next_eq_error {e : SessionError} {t' : TurnStream} {s' : Session E}
    (h : t.next s = (some (.error e), t', s')) :
    t.drain s = (.error e, t', s') ∧ t.drained s = [.error e] := by
  rw [drain, drained]
  constructor <;> split <;> next hnext => cases h.symm.trans hnext <;> rfl

/-- A stream that is over gives nothing more. -/
theorem drain_of_done (hdone : t.done = true) (s : Session E) :
    t.drain s = (.ok (), t, s) ∧ t.drained s = [] := by
  have hnext : t.next s = (none, t, s) := by rw [next, if_pos hdone]
  exact drain_of_next_eq_none hnext

/-- **A drain fails** exactly with an error that the stream gives in it. -/
theorem drain_eq_error_iff {e : SessionError} :
    (t.drain s).1 = .error e ↔ .error e ∈ t.drained s := by
  fun_induction drained t s with
  | case1 t s t' s' hnext =>
    rw [(drain_of_next_eq_none hnext).1]
    constructor
    · intro h
      cases h
    · intro h
      exact absurd h List.not_mem_nil
  | case2 t s text t' s' hnext ih =>
    rw [(drain_of_next_eq_text hnext).1, ih, List.mem_cons]
    have hne : (.error e : Except SessionError String) ≠ .ok text := nofun
    exact (or_iff_right hne).symm
  | case3 t s e' t' s' hnext =>
    rw [(drain_of_next_eq_error hnext).1, List.mem_singleton, Except.error.injEq,
      Except.error.injEq]
    exact eq_comm

theorem fails_drained_iff : Fails (t.drained s) ↔ ∃ e, (t.drain s).1 = .error e :=
  exists_congr fun _ => drain_eq_error_iff.symm

theorem drain_eq_ok_iff : (t.drain s).1 = .ok () ↔ ¬ Fails (t.drained s) := by
  rw [fails_drained_iff]
  cases (t.drain s).1 with
  | error e =>
    constructor
    · intro h
      cases h
    · intro h
      exact absurd ⟨e, rfl⟩ h
  | ok u =>
    refine ⟨fun _ => ?_, fun _ => rfl⟩
    rintro ⟨e, h⟩
    cases h

/-! ### What a stream knows of itself -/

/-- What a stream knows of itself once it gave these: its text, and whether it is over. -/
structure Tells (t : TurnStream) (items : List (Except SessionError String)) : Prop where
  text_eq : t.text = String.join (texts items)
  done_iff : t.done = true ↔ t.stopReason ≠ none ∨ Fails items
  not_fails : t.stopReason ≠ none → ¬ Fails items

variable {items : List (Except SessionError String)}

theorem tells_new (report : PrefillReport) : Tells { report } [] where
  text_eq := rfl
  done_iff := by
    have hreason : ¬ (none : Option StopReason) ≠ none := fun hne => hne rfl
    refine ⟨nofun, fun h => ?_⟩
    exact absurd (h.resolve_left hreason) not_fails_nil
  not_fails h := absurd rfl h

/-- A stream that goes on has no reason, and did not fail. -/
theorem Tells.of_not_done (h : t.Tells items) (hdone : t.done = false) :
    t.stopReason = none ∧ ¬ Fails items := by
  have hnot : ¬ (t.stopReason ≠ none ∨ Fails items) := by
    rw [← h.done_iff, hdone]
    exact Bool.false_ne_true
  rw [not_or, not_not] at hnot
  exact hnot

/-- A stream that failed is over, without a reason. -/
theorem Tells.of_fails (h : t.Tells items) (hfails : Fails items) :
    t.done = true ∧ t.stopReason = none := by
  refine ⟨h.done_iff.2 (Or.inr hfails), ?_⟩
  by_contra hreason
  exact h.not_fails hreason hfails

/-- A stream that goes on gives some text. -/
theorem Tells.gives (h : t.Tells items) (hdone : t.done = false) (text : String) :
    Tells { t with text := t.text ++ text } (items ++ [.ok text]) := by
  obtain ⟨hreason, hfails⟩ := h.of_not_done hdone
  have hmore : ¬ Fails (items ++ [.ok text]) := by
    rw [fails_append]
    exact not_or.2 ⟨hfails, not_fails_ok text⟩
  refine ⟨?_, ?_, fun _ => hmore⟩
  · rw [texts_append, String.join_append, ← h.text_eq, texts_ok_cons, texts_nil, String.join_cons,
      String.join_nil, String.append_empty]
  · rw [hdone, hreason]
    refine ⟨nofun, fun hends => ?_⟩
    exact absurd (hends.resolve_left fun hne => hne rfl) hmore

/-- A stream that goes on ends. -/
theorem Tells.ends (h : t.Tells items) (hdone : t.done = false) (reason : StopReason) :
    Tells { t with stopReason := some reason, done := true } items where
  text_eq := h.text_eq
  done_iff := ⟨fun _ => Or.inl nofun, fun _ => rfl⟩
  not_fails _ := (h.of_not_done hdone).2

/-- A stream that goes on fails. -/
theorem Tells.breaks (h : t.Tells items) (hdone : t.done = false) (e : SessionError) :
    Tells { t with done := true } (items ++ [.error e]) where
  text_eq := by rw [texts_append, texts_error_cons, texts_nil, List.append_nil, h.text_eq]
  done_iff := ⟨fun _ => Or.inr (fails_append.2 (Or.inr (fails_error e))), fun _ => rfl⟩
  not_fails hreason := absurd (h.of_not_done hdone).1 hreason

/-- **A step of a stream** keeps what it knows, with what it gives. -/
theorem Tells.poll (h : t.Tells items) (s : Session E) :
    (t.poll s).2.1.Tells (items ++ (t.poll s).1.join.toList) := by
  have hsilent {t' : TurnStream} (ht' : t'.Tells items) : t'.Tells (items ++ []) := by
    rwa [List.append_nil]
  cases hdone : t.done with
  | true =>
    rw [poll_of_done hdone]
    exact hsilent h
  | false =>
    unfold TurnStream.poll
    rw [if_neg (by rw [hdone]; exact Bool.false_ne_true)]
    split
    · split
      · exact hsilent h
      · exact h.gives hdone _
    · exact hsilent (h.ends hdone _)
    · exact h.breaks hdone _

/-- However a stream is asked, it makes steps that give nothing, and one more. -/
theorem Tells.pulls {result : Option (Option (Except SessionError String)) × TurnStream × Session E}
    (h : t.Tells items) (hpull : t.Pulls s result) :
    result.2.1.Tells (items ++ result.1.join.toList) := by
  obtain ⟨n, -, rfl⟩ := hpull.exists_polls
  exact h.poll _

/-- **A drain** keeps what a stream knows, with all that it gives. -/
theorem Tells.drain (h : t.Tells items) (s : Session E) :
    (t.drain s).2.1.Tells (items ++ t.drained s) := by
  fun_induction drained t s generalizing items with
  | case1 t s t' s' hnext =>
    have hpulled := h.pulls (.next (s := s))
    rw [hnext] at hpulled
    rwa [(drain_of_next_eq_none hnext).1]
  | case2 t s text t' s' hnext ih =>
    have hpulled := h.pulls (.next (s := s))
    rw [hnext] at hpulled
    rw [(drain_of_next_eq_text hnext).1, List.append_cons]
    exact ih hpulled
  | case3 t s e t' s' hnext =>
    have hpulled := h.pulls (.next (s := s))
    rw [hnext] at hpulled
    rwa [(drain_of_next_eq_error hnext).1]

/-- The text of a new stream that is drained. -/
theorem text_drain_new (report : PrefillReport) (s : Session E) :
    (drain { report } s).2.1.text = String.join (texts (drained { report } s)) :=
  ((tells_new report).drain s).text_eq

end TurnStream

/-! ## Sending and finishing -/

namespace Worker

variable {E : Engine} {w : Worker E} {t t' : TurnStream} {s' : Session E}

/-- A turn that is to be streamed does not begin, or there is a new stream for it. -/
theorem streamTurn_cases (w : Worker E) (prompt : String) (parseControl : Bool)
    (maxNewTokens : Nat) :
    (∃ e w', w.streamTurn prompt parseControl maxNewTokens = (.error e, w')) ∨
      ∃ report w', w.streamTurn prompt parseControl maxNewTokens = (.ok { report }, w') := by
  unfold streamTurn
  dsimp only
  split
  · exact Or.inl ⟨_, _, rfl⟩
  · split
    · exact Or.inl ⟨_, _, rfl⟩
    · exact Or.inr ⟨_, _, rfl⟩

/-- **A message that is sent** becomes part of its conversation exactly if its turn begins. -/
theorem send_cases (w : Worker E) (c : Conversation) (text : String) :
    (∃ e w', w.send c text = (.error e, c, w')) ∨
      ∃ report w', w.send c text =
        (.ok { report }, c.push { role := .user, content := text }, w') := by
  rcases w.streamTurn_cases (c.push { role := .user, content := text }).render
    w.defaults.parseSpecial w.defaults.maxNewTokens with ⟨e, w', h⟩ | ⟨report, w', h⟩
  · exact Or.inl ⟨e, w', by rw [send, h]⟩
  · exact Or.inr ⟨report, w', by rw [send, h]⟩

theorem collectText_of_drain_eq_error {e : SessionError}
    (h : t.drain w.session = (.error e, t', s')) :
    w.collectText t = (.error e, { w with session := s' }) := by
  rw [collectText, h]

theorem collectText_of_drain_eq_ok (h : t.drain w.session = (.ok (), t', s')) :
    w.collectText t = (.ok t'.text, { w with session := s' }) := by
  rw [collectText, h]

theorem finishInto_of_drain_eq_error {e : SessionError}
    (h : t.drain w.session = (.error e, t', s')) (c : Conversation) :
    w.finishInto t c = (.error e, c, { w with session := s' }) := by
  rw [finishInto, collectText_of_drain_eq_error h]

theorem finishInto_of_drain_eq_ok (h : t.drain w.session = (.ok (), t', s')) (c : Conversation) :
    w.finishInto t c = (.ok t'.text, c.push { role := .assistant, content := t'.text },
      { w with session := s' }) := by
  rw [finishInto, collectText_of_drain_eq_ok h]

theorem session_collectText (w : Worker E) (t : TurnStream) :
    (w.collectText t).2.session = (t.drain w.session).2.2 := by
  rw [collectText]
  split <;> next hdrain => rw [hdrain]

theorem session_finishInto (w : Worker E) (t : TurnStream) (c : Conversation) :
    (w.finishInto t c).2.2.session = (t.drain w.session).2.2 := by
  rw [← session_collectText, finishInto]
  split <;> next hcollect => rw [hcollect]

end Worker
end LlmSession
