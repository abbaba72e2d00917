import LlmSession.Stop

/-!
# Attempts to make the set of stop tokens

The set of tokens that end a reply is made from the stop strings, and any of them may turn out to
have no tokens this time.  Then nothing is kept of those that had some, and the set can be tried for
again.  The first attempt that reads all of them decides; whoever comes later gets that set, and
nothing is read for him.

A set made of a part of the stop strings would look like any other, and the stops it misses would be
missed in silence.  So what is said here of a number of attempts says also what was read for them:
`ReadsAll` and `FailsOn` follow an attempt from string to string, and from one state of whatever
reads them to the next.

## Main statements

* `StopConditions.Prepares`, `StopConditions.prepares`: one attempt.
* `StopConditions.attempts_cases`: any number of attempts, one after the other.
-/

namespace LlmSession

/-- What turns a text into tokens, with a state of its own. -/
abbrev Reader (σ : Type) := String → σ → Except SessionError (List Token) × σ

section

variable {σ : Type}

/-- These texts were read, one after the other, and these are the tokens of each. -/
inductive ReadsAll (read : Reader σ) : List String → σ → List (List Token) → σ → Prop where
  | nil {s : σ} : ReadsAll read [] s [] s
  | cons {text : String} {texts : List String} {tokens : List Token} {lists : List (List Token)}
    {s s₁ s' : σ} (h : read text s = (.ok tokens, s₁)) (hrest : ReadsAll read texts s₁ lists s') :
    ReadsAll read (text :: texts) s (tokens :: lists) s'

/-- One of these texts could not be read; those in front of it were. -/
inductive FailsOn (read : Reader σ) : List String → σ → SessionError → σ → Prop where
  | here {text : String} {texts : List String} {e : SessionError} {s s' : σ}
    (h : read text s = (.error e, s')) : FailsOn read (text :: texts) s e s'
  | later {text : String} {texts : List String} {tokens : List Token} {e : SessionError}
    {s s₁ s' : σ} (h : read text s = (.ok tokens, s₁)) (hrest : FailsOn read texts s₁ e s') :
    FailsOn read (text :: texts) s e s'

/-- Attempts, one after the other, none of which could read all the texts. -/
inductive FailsEach (texts : List String) : List (Reader σ) → σ → List SessionError → σ → Prop where
  | nil {s : σ} : FailsEach texts [] s [] s
  | cons {read : Reader σ} {readers : List (Reader σ)} {e : SessionError}
    {errors : List SessionError} {s s₁ s' : σ} (h : FailsOn read texts s e s₁)
    (hrest : FailsEach texts readers s₁ errors s') :
    FailsEach texts (read :: readers) s (e :: errors) s'

/-- What no reading changes is the same when all texts were read. -/
theorem ReadsAll.apply_eq {β : Type} {read : Reader σ} {f : σ → β}
    (hf : ∀ text s, f (read text s).2 = f s) {texts : List String} {lists : List (List Token)}
    {s s' : σ} (h : ReadsAll read texts s lists s') : f s' = f s := by
  induction h with
  | nil => rfl
  | @cons text _ _ _ s _ _ h _ ih =>
    have hone := hf text s
    rw [h] at hone
    exact ih.trans hone

/-- The same when one could not be read. -/
theorem FailsOn.apply_eq {β : Type} {read : Reader σ} {f : σ → β}
    (hf : ∀ text s, f (read text s).2 = f s) {texts : List String} {e : SessionError}
    {s s' : σ} (h : FailsOn read texts s e s') : f s' = f s := by
  induction h with
  | @here text _ _ s _ h =>
    have hone := hf text s
    rwa [h] at hone
  | @later text _ _ _ s _ _ h _ ih =>
    have hone := hf text s
    rw [h] at hone
    exact ih.trans hone

/-- The error is the reader's own. -/
theorem FailsOn.exists_eq_error {read : Reader σ} {texts : List String} {e : SessionError}
    {s s' : σ} (h : FailsOn read texts s e s') :
    ∃ text s₁ s₂, read text s₁ = (.error e, s₂) := by
  induction h with
  | @here text _ _ s s' h => exact ⟨text, s, s', h⟩
  | later _ _ ih => exact ih

end

namespace StopConditions

variable {σ : Type} {c : StopConditions} {read : Reader σ} {s s' : σ}

/-- All texts are read, or one of them cannot be. -/
theorem tokensOfAll_cases (read : Reader σ) (texts : List String) (s : σ) :
    (∃ lists s', ReadsAll read texts s lists s' ∧
      tokensOfAll read texts s = (.ok lists.flatten, s')) ∨
    ∃ e s', FailsOn read texts s e s' ∧ tokensOfAll read texts s = (.error e, s') := by
  induction texts generalizing s with
  | nil => exact Or.inl ⟨[], s, .nil, rfl⟩
  | cons text texts ih =>
    rcases hfirst : read text s with ⟨e | tokens, s₁⟩
    · exact Or.inr ⟨e, s₁, .here hfirst, by simp only [tokensOfAll, hfirst]⟩
    rcases ih s₁ with ⟨lists, s', hreads, hrest⟩ | ⟨e, s', hfails, hrest⟩
    · refine Or.inl ⟨tokens :: lists, s', .cons hfirst hreads, ?_⟩
      simp only [tokensOfAll, hfirst, hrest, List.flatten_cons]
    · exact Or.inr ⟨e, s', .later hfirst hfails, by simp only [tokensOfAll, hfirst, hrest]⟩

/-! ## One attempt -/

/-- The three ways of an attempt to make the set. -/
inductive Prepares (c : StopConditions) (read : Reader σ) (s : σ) :
    Except SessionError StopConditions × σ → Prop where
  /-- It is there already. -/
  | there {tokens : List Token} (h : c.tokens = some tokens) : Prepares c read s (.ok c, s)
  /-- It is made of the tokens of all stop strings. -/
  | made {lists : List (List Token)} {s' : σ} (h : c.tokens = none)
    (hreads : ReadsAll read c.stopStrings s lists s') :
    Prepares c read s (.ok { c with tokens := some lists.flatten }, s')
  /-- One of the stop strings cannot be read. -/
  | failed {e : SessionError} {s' : σ} (h : c.tokens = none)
    (hfails : FailsOn read c.stopStrings s e s') : Prepares c read s (.error e, s')

/-- **An attempt goes one of the three ways.** -/
theorem prepares (c : StopConditions) (read : Reader σ) (s : σ) :
    c.Prepares read s (c.prepare read s) := by
  unfold prepare
  cases hc : c.tokens with
  | some tokens => exact .there hc
  | none =>
    rcases tokensOfAll_cases read c.stopStrings s with
      ⟨lists, s', hreads, heq⟩ | ⟨e, s', hfails, heq⟩
    · simp only [heq]
      exact .made hc hreads
    · simp only [heq]
      exact .failed hc hfails

/-- What no reading changes is the same after an attempt. -/
theorem apply_of_prepare_eq {β : Type} {f : σ → β} (hf : ∀ text s, f (read text s).2 = f s)
    {answer : Except SessionError StopConditions} (h : c.prepare read s = (answer, s')) :
    f s' = f s := by
  have hprepares := c.prepares read s
  rw [h] at hprepares
  cases hprepares with
  | there _ => rfl
  | made _ hreads => exact hreads.apply_eq hf
  | failed _ hfails => exact hfails.apply_eq hf

/-- An attempt that fails gives an error of the reader. -/
theorem exists_of_prepare_eq_error {e : SessionError} (h : c.prepare read s = (.error e, s')) :
    ∃ text s₁ s₂, read text s₁ = (.error e, s₂) := by
  have hprepares := c.prepares read s
  rw [h] at hprepares
  cases hprepares with
  | failed _ hfails => exact hfails.exists_eq_error

/-- A token ends the reply if it is one of those of the stop strings. -/
theorem isStopToken_iff_of_tokens_eq {lists : List (List Token)} (h : c.tokens = some lists.flatten)
    (token : Token) : c.isStopToken token = true ↔ ∃ list ∈ lists, token ∈ list := by
  rw [isStopToken, h]
  exact decide_eq_true_iff.trans List.mem_flatten

/-! ## Attempts, one after the other -/

/-- An attempt to make the set: the answer, and the conditions after it, which are those before it
if it failed. -/
def attempt (c : StopConditions) (read : Reader σ) (s : σ) :
    Except SessionError Unit × StopConditions × σ :=
  match c.prepare read s with
  | (.ok c, s) => (.ok (), c, s)
  | (.error e, s) => (.error e, c, s)

theorem attempt_of_prepare_eq_ok {c' : StopConditions} (h : c.prepare read s = (.ok c', s')) :
    c.attempt read s = (.ok (), c', s') := by
  simp only [attempt, h]

theorem attempt_of_prepare_eq_error {e : SessionError} (h : c.prepare read s = (.error e, s')) :
    c.attempt read s = (.error e, c, s') := by
  simp only [attempt, h]

/-- Attempts, one after the other, with their answers. -/
def attempts (c : StopConditions) :
    List (Reader σ) → σ → List (Except SessionError Unit) × StopConditions × σ
  | [], s => ([], c, s)
  | read :: readers, s =>
    let (answer, c, s) := c.attempt read s
    let (answers, c, s) := c.attempts readers s
    (answer :: answers, c, s)

/-- **Where the set is there**, nothing is read and nothing changes. -/
theorem attempts_of_isPrepared (h : c.isPrepared) (readers : List (Reader σ)) (s : σ) :
    c.attempts readers s = (List.replicate readers.length (.ok ()), c, s) := by
  induction readers with
  | nil => rfl
  | cons read readers ih =>
    simp only [attempts, attempt_of_prepare_eq_ok (prepare_of_isPrepared h read s), ih]
    rfl

/-- **The first attempt that reads all stop strings** makes the set, and without one there is
none. -/
theorem attempts_cases (hc : c.tokens = none) (readers : List (Reader σ)) (s : σ) :
    (∃ errors s', FailsEach c.stopStrings readers s errors s' ∧
      c.attempts readers s = (errors.map .error, c, s')) ∨
    ∃ failed read later errors s₁ lists s', readers = failed ++ read :: later ∧
      FailsEach c.stopStrings failed s errors s₁ ∧
      ReadsAll read c.stopStrings s₁ lists s' ∧
      c.attempts readers s =
        (errors.map .error ++ List.replicate (later.length + 1) (.ok ()),
          { c with tokens := some lists.flatten }, s') := by
  induction readers generalizing s with
  | nil => exact Or.inl ⟨[], s, .nil, rfl⟩
  | cons read readers ih =>
    have hprepares := c.prepares read s
    generalize hprepare : c.prepare read s = result at hprepares
    cases hprepares with
    | there h => exact nomatch hc.symm.trans h
    | @made lists s' _ hreads =>
      refine Or.inr ⟨[], read, readers, [], s, lists, s', rfl, .nil, hreads, ?_⟩
      simp only [attempts, attempt_of_prepare_eq_ok hprepare]
      rw [attempts_of_isPrepared rfl]
      rfl
    | @failed e s₁ _ hfails =>
      have hattempt := attempt_of_prepare_eq_error hprepare
      rcases ih s₁ with ⟨errors, s', heach, hrest⟩ |
        ⟨failed, read', later, errors, s₂, lists, s', rfl, heach, hreads, hrest⟩
      · refine Or.inl ⟨e :: errors, s', .cons hfails heach, ?_⟩
        simp only [attempts, hattempt, hrest, List.map_cons]
      · refine Or.inr ⟨read :: failed, read', later, e :: errors, s₂, lists, s', rfl,
          .cons hfails heach, hreads, ?_⟩
        simp only [attempts, hattempt, hrest, List.map_cons, List.cons_append]

/-- The second text that is asked for cannot be read.  The second attempt reads both stop strings,
and the third reads nothing. -/
example :
    let read : Reader Nat := fun text n =>
      (if n = 1 then .error (.tokenization text) else .ok [⟨Int32.ofNat n⟩], n + 1)
    let c := ofLists ["<|im_end|>", "<|endoftext|>"] []
    c.attempts [read, read, read] 0 = ([.error (.tokenization "<|endoftext|>"), .ok (), .ok ()],
      { c with tokens := some [⟨2⟩, ⟨3⟩] }, 4) := rfl

end StopConditions
end LlmSession
