import LlmSession.Engine.Scripted
import LlmSession.Proofs.Engine.Passes
import Mathlib.Data.List.TakeWhile

/-!
# What a cache holds

A session cannot look into the cache of its context; it only knows what it submitted.  To say
that the cache holds the right tokens, a reader of caches is needed, and `Engine.Cache` is one: it
gives the records of a context, and says how a new context, an emptied one and a pass that goes
well change them.  It says nothing of a pass that fails, which may have recorded any part of its
slots, or have damaged what was there.

* `Engine.Cache.Holds`: the cache holds these tokens, at the positions from zero on.
* `Engine.Cache.records_submitAll_eq_ok`: what several passes leave.
* `Script.cache`: the reader for an engine that follows a script.

## Implementation notes

A position is a 32-bit word, as in a slot.  `Holds` speaks of the word for the place in the list,
and `Engine.Cache.Holds.map_toInt_pos` of the number itself, for as long as that is what the word
stands for.
-/

namespace LlmSession

/-- What the records of a context are, and how they come about. -/
structure Engine.Cache (E : Engine) where
  /-- The slots that the cache holds, oldest first. -/
  records : E.Context → List BatchSlot
  /-- A new context holds nothing. -/
  records_newContext : ∀ {model config w context w'},
    E.newContext model config w = (.ok context, w') → records context = []
  /-- An emptied cache holds nothing. -/
  records_clearMemory : ∀ {full context w context' w'},
    E.clearMemory full context w = (context', w') → records context' = []
  /-- A pass that goes well adds its slots in their order. -/
  records_decode : ∀ {batch context w context' w'},
    E.decode batch context w = (.ok (), context', w') →
      records context' = records context ++ batch.filled

/-- Where a slot stands: its token, the position and the sequences. -/
def BatchSlot.place (slot : BatchSlot) : Token × Int32 × List Int32 :=
  (slot.token, slot.pos, slot.seqIds)

/-- The places of tokens that stand one behind the other in the first sequence. -/
def placesOf (tokens : List Token) : List (Token × Int32 × List Int32) :=
  tokens.mapIdx fun i token => (token, Int32.ofNat i, [0])

@[simp] theorem placesOf_concat (tokens : List Token) (token : Token) :
    placesOf (tokens ++ [token]) =
      placesOf tokens ++ [(token, Int32.ofNat tokens.length, [0])] := by
  unfold placesOf
  exact List.mapIdx_concat

theorem map_place_promptSlots (tokens : List Token) :
    (promptSlots tokens).map BatchSlot.place = placesOf tokens := by
  rw [promptSlots_eq_mapIdx]
  refine List.ext_getElem (by simp [placesOf]) fun i _ _ => ?_
  simp only [placesOf, List.getElem_map, List.getElem_mapIdx, BatchSlot.place]

namespace Engine.Cache

variable {E : Engine} (cache : E.Cache)

/-- The cache holds these tokens and nothing else, in this order, each at the position of its place
in the list and for the first sequence only. -/
def Holds (context : E.Context) (tokens : List Token) : Prop :=
  (cache.records context).map BatchSlot.place = placesOf tokens

variable {cache} {batch batch' : TokenBatch} {context context' : E.Context} {w w' : E.World}

theorem records_submitSlots_eq_ok {slots : List BatchSlot}
    (h : E.submitSlots slots batch context w = (.ok (), batch', context', w')) :
    cache.records context' = cache.records context ++ slots := by
  rcases submitSlots_cases h with ⟨e, -, he, -, -⟩ | ⟨hfilled, hsubmit⟩
  · exact nomatch he
  rcases submit_cases hsubmit with ⟨-, hdecode⟩ | ⟨e, he, -⟩
  · rw [cache.records_decode hdecode, hfilled]
  · exact nomatch he

/-- Passes that all go well add all slots, whatever the parts were. -/
theorem records_submitAll_eq_ok {parts : List (List BatchSlot)}
    (h : E.submitAll parts batch context w = (.ok (), batch', context', w')) :
    cache.records context' = cache.records context ++ parts.flatten := by
  induction parts generalizing batch context w with
  | nil =>
    cases h
    exact (List.append_nil _).symm
  | cons slots rest ih =>
    rcases submitAll_cons h with ⟨e, he, -⟩ | ⟨batch₁, context₁, w₁, hslots, hrest⟩
    · exact nomatch he
    · rw [ih hrest, records_submitSlots_eq_ok hslots, List.append_assoc, List.flatten_cons]

/-- **A prompt on an empty cache** is all that the cache holds, in however many passes it went. -/
theorem holds_of_submitAll {n : Nat} {tokens : List Token} (hempty : cache.records context = [])
    (h : E.submitAll (chunks n (promptSlots tokens)) batch context w =
      (.ok (), batch', context', w')) : cache.Holds context' tokens := by
  rw [Holds, records_submitAll_eq_ok h, hempty, List.nil_append, flatten_chunks,
    map_place_promptSlots]

/-- **One more token**, submitted at the position behind the others. -/
theorem Holds.concat {tokens : List Token} {token : Token} {pos : Nat} {logits : Bool}
    (hholds : cache.Holds context tokens) (hpos : pos = tokens.length)
    (h : E.submitSlots [.ofToken token pos logits] batch context w =
      (.ok (), batch', context', w')) : cache.Holds context' (tokens ++ [token]) := by
  rw [Holds, records_submitSlots_eq_ok h, List.map_append, hholds, placesOf_concat, hpos]
  rfl

/-- As numbers, the positions are those from zero on, for as long as a word can hold them. -/
theorem Holds.map_toInt_pos {tokens : List Token} (h : cache.Holds context tokens)
    (hle : tokens.length ≤ twoTo 31) :
    (cache.records context).map (fun slot => slot.pos.toInt) =
      (List.range tokens.length).map Int.ofNat := by
  have hpos := congrArg (List.map fun place => place.2.1.toInt) h
  rw [List.map_map] at hpos
  refine hpos.trans (List.ext_getElem (by simp [placesOf]) fun i hi hi' => ?_)
  have hlt : i < twoTo 31 := by
    rw [List.length_map, List.length_range] at hi'
    exact Nat.lt_of_lt_of_le hi' hle
  simp only [placesOf, List.getElem_map, List.getElem_mapIdx, List.getElem_range]
  exact Int32.toInt_ofNat_of_lt hlt

end Engine.Cache

/-! ## The cache of a script -/

/-- The records that a scripted engine keeps. -/
def Script.cache (s : Script) : s.engine.Cache where
  records context := (show Script.Context from context).records.toList
  records_newContext := by
    intro model config w context w' h
    simp only [engine, Script.newContext] at h
    split at h
    · exact nomatch h
    · cases h
      rfl
  records_clearMemory := by
    intro full context w context' w' h
    cases h
    rfl
  records_decode := by
    intro batch context w context' w' h
    simp only [engine, decode] at h
    split at h
    · exact nomatch h
    split at h
    · exact nomatch h
    split at h
    · next hall =>
      -- no slot is refused, so all of them are recorded
      have htake : batch.filled.takeWhile (Context.holds context) = batch.filled :=
        List.takeWhile_eq_self_iff.2 (List.all_eq_true.1 hall)
      cases h
      simp [htake]
    · exact nomatch h

end LlmSession
