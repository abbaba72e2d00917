import LlmSession.Batch
import LlmSession.Text.Search
import LlmSession.Text.Utf8

/-!
# When a reply is over

Two independent checks end a reply early.  One asks whether the token that was drawn belongs
to a set of tokens, made once from the texts of the *stop strings*.  The other looks for
*markers* in the bytes of the reply, and finds those that no single token spells.

## The scan for markers

The reply grows by one piece at a time, so only a window at its end has to be searched: an
occurrence that is not wholly in the earlier text ends inside the new piece, and begins at
most the length of the longest marker earlier.  `findMarker?` answers with the first marker
in the configured order that occurs in the window.

What has been released cannot be taken back, so the scan has a companion:
`partialMarkerLength` is the length of the longest end of the reply that may still grow into
a marker, and just that much is held back.

## Main definitions

* `StopConditions`: the stop strings, the markers and the set of tokens.
* `StopConditions.prepare`: makes the set, all of it or none.
* `StopConditions.findMarker?`, `markerStart?`, `StopConditions.partialMarkerLength`: the
  scan.
-/

namespace LlmSession

/-- What ends a reply early. -/
structure StopConditions where
  /-- The texts whose tokens end a reply. -/
  stopStrings : List String
  /-- The texts that end a reply where they occur, in the order in which they are looked
  for. -/
  markers : List String
  /-- The tokens that end a reply, once they are known. -/
  tokens : Option (List Token) := none
  /-- The empty text, which occurs everywhere, is no marker. -/
  markers_ne : ∀ m ∈ markers, m ≠ ""
  deriving DecidableEq

/-- The stop strings of a chat in ChatML. -/
def defaultStopStrings : List String := ["<|im_end|>", "<|endoftext|>"]

/-- The markers of a chat in ChatML. -/
def defaultMarkers : List String := ["<|im_end|>"]

/-! ## Markers in bytes -/

/-- The offset of the last occurrence of a marker in a reply. -/
def markerStart? (reply : List UInt8) (marker : String) : Option Nat :=
  if marker = "" then none else lastOffset? (Utf8.encode marker) reply

namespace StopConditions

/-- Conditions with the given texts, and with no set of tokens yet.  Empty markers are left
out. -/
def ofLists (stopStrings markers : List String) : StopConditions where
  stopStrings := stopStrings
  markers := markers.filter (· ≠ "")
  markers_ne := by
    intro m hm
    simpa using (List.mem_filter.1 hm).2

/-- The conditions of a chat in ChatML. -/
def default : StopConditions := ofLists defaultStopStrings defaultMarkers

instance : Inhabited StopConditions := ⟨default⟩

/-! ## The set of tokens -/

/-- The tokens of all the texts, in their order.  The first text that has none is the last
that is asked for. -/
def tokensOfAll {σ : Type} (tokenize : String → σ → Except SessionError (List Token) × σ) :
    List String → σ → Except SessionError (List Token) × σ
  | [], s => (.ok [], s)
  | text :: texts, s =>
    match tokenize text s with
    | (.error e, s) => (.error e, s)
    | (.ok tokens, s) =>
      match tokensOfAll tokenize texts s with
      | (.error e, s) => (.error e, s)
      | (.ok more, s) => (.ok (tokens ++ more), s)

/-- Makes the set of tokens, unless there is one.  A failure keeps nothing of what was asked
for before it. -/
def prepare {σ : Type} (c : StopConditions)
    (tokenize : String → σ → Except SessionError (List Token) × σ) (s : σ) :
    Except SessionError StopConditions × σ :=
  match c.tokens with
  | some _ => (.ok c, s)
  | none =>
    match tokensOfAll tokenize c.stopStrings s with
    | (.ok tokens, s) => (.ok { c with tokens := some tokens }, s)
    | (.error e, s) => (.error e, s)

/-- Whether the set of tokens is there. -/
def isPrepared (c : StopConditions) : Bool := c.tokens.isSome

/-- Whether a token ends the reply; none does before the set is there. -/
def isStopToken (c : StopConditions) (token : Token) : Bool :=
  match c.tokens with
  | some tokens => decide (token ∈ tokens)
  | none => false

/-- The ids in the set of tokens, ascending and each one once. -/
def stopTokenIds (c : StopConditions) : Option (List Int32) :=
  c.tokens.map fun tokens => (tokens.map Token.id).eraseDups.mergeSort fun a b => decide (a ≤ b)

/-! ## The scan -/

/-- The number of bytes of the longest marker, and zero without markers. -/
def longestMarker (c : StopConditions) : Nat :=
  (c.markers.map fun m => (Utf8.encode m).length).max?.getD 0

/-- The end of a reply in which an occurrence may lie that the last `appended` bytes have
completed. -/
def window (c : StopConditions) (reply : List UInt8) (appended : Nat) : List UInt8 :=
  reply.drop (reply.length - (appended + (c.longestMarker - 1)))

/-- The first marker, in the configured order, that the last `appended` bytes of a reply may
have completed. -/
def findMarker? (c : StopConditions) (reply : List UInt8) (appended : Nat) : Option String :=
  if c.longestMarker = 0 ∨ appended = 0 then none
  else c.markers.find? fun m => occursIn (Utf8.encode m) (c.window reply appended)

/-- The number of bytes at the end of a reply that may be the beginning of a marker: the
longest end that is a proper beginning of one. -/
def partialMarkerLength (c : StopConditions) (reply : List UInt8) : Nat :=
  let backwards := reply.reverse
  (c.markers.map fun m =>
    longestStart (Utf8.encode m) backwards ((Utf8.encode m).length - 1)).max?.getD 0

/-! ## What the operations leave alone -/

@[simp] theorem markers_ofLists (stopStrings markers : List String) :
    (ofLists stopStrings markers).markers = markers.filter (· ≠ "") := rfl

@[simp] theorem tokens_ofLists (stopStrings markers : List String) :
    (ofLists stopStrings markers).tokens = none := rfl

theorem isStopToken_of_tokens_eq_none {c : StopConditions} (h : c.tokens = none)
    (token : Token) : c.isStopToken token = false := by
  simp [isStopToken, h]

/-- A set that is there stays, and nothing is asked for. -/
theorem prepare_of_isPrepared {σ : Type} {c : StopConditions} (h : c.isPrepared)
    (tokenize : String → σ → Except SessionError (List Token) × σ) (s : σ) :
    c.prepare tokenize s = (.ok c, s) := by
  obtain ⟨tokens, ht⟩ := Option.isSome_iff_exists.1 h
  simp [prepare, ht]

end StopConditions
end LlmSession
