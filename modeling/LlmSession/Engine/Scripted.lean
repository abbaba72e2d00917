import LlmSession.Engine.Basic
import LlmSession.Text.Utf8

/-!
# An engine that follows a script

A model whose vocabulary is the 256 bytes and five special tokens, and whose replies are
written down beforehand.  It does what a real engine does as far as a session can tell: it
keeps the positions that were submitted, refuses those past the end of its cache, and gives
back bytes that may cut a character.  What a real engine does rarely, it does on request: a
`Script` says which calls fail, and how.

## Vocabulary

A token below 256 is that byte.  Of the five others two have no text, and three are spelled
by control text; that text becomes its token only where the caller asks for it, and is read
from left to right.

## Main definitions

* `Script`: the replies and the failures.
* `Script.tokens`: the tokens of a text.
* `Script.engine`: the engine that follows the script.
-/

namespace LlmSession

/-- How a forward pass fails that is told to. -/
inductive InjectedFailure where
  /-- As a failed pass. -/
  | decode
  /-- As a text that has no tokens. -/
  | tokenization
  /-- As a failed worker. -/
  | worker
  /-- As a batch without room. -/
  | capacity
  /-- As a prompt without room. -/
  | promptLength
  deriving DecidableEq, Repr

/-- The error of the pass with the given number. -/
def InjectedFailure.error (call : Nat) : InjectedFailure → SessionError
  | .decode => .decodeFailed ("injected at call " ++ toString call)
  | .tokenization => .tokenization ("bad batch " ++ toString call)
  | .worker => .worker ("bad batch " ++ toString call)
  | .capacity => .capacityExceeded call
  | .promptLength => .promptTooLong call 1

/-! ## The vocabulary -/

/-- The token of a byte. -/
def Token.ofByte (b : UInt8) : Token := ⟨b.toUInt32.toInt32⟩

/-- The token that opens a prompt. -/
def Token.opening : Token := ⟨256⟩

/-- The token that ends every reply. -/
def Token.closing : Token := ⟨257⟩

/-- The control texts and their tokens. -/
def controlTexts : List (Token × String) :=
  [(⟨258⟩, "<|im_end|>"), (⟨259⟩, "<|endoftext|>"), (⟨260⟩, "<|im_start|>")]

/-- The token of the control text that `cs` begins with, and its length. -/
def controlAt? (cs : List Char) : Option (Token × Nat) :=
  controlTexts.findSome? fun c =>
    if c.2.toList.isPrefixOf cs then some (c.1, c.2.length) else none

/-- The tokens of a text after its first `skip` characters: control text, if it is to be
read as such, gives one token, and every other character gives one for each of its bytes. -/
def tokensAfter (parseControl : Bool) : (skip : Nat) → List Char → List Token
  | _, [] => []
  | skip + 1, _ :: cs => tokensAfter parseControl skip cs
  | 0, c :: cs =>
    match if parseControl then controlAt? (c :: cs) else none with
    | some (token, length) => token :: tokensAfter parseControl (length - 1) cs
    | none => (String.utf8EncodeChar c).map Token.ofByte ++ tokensAfter parseControl 0 cs

/-! ## Scripts -/

/-- What the model replies, and which calls fail. -/
structure Script where
  /-- The tokens drawn, in this order, by every new sampler. -/
  replies : List Token := []
  /-- The token drawn when there are no more. -/
  filler : Token := Token.closing
  /-- Bytes of tokens that stand in the place of the usual ones. -/
  pieces : List (Token × List UInt8) := []
  /-- Further tokens that end the reply. -/
  endings : List Token := []
  /-- Whether no model can be loaded. -/
  failModelLoad : Bool := false
  /-- How many contexts can be created, if not all. -/
  contextsBeforeFailure : Option Nat := none
  /-- The tokenizations that fail, by their number, counted from one. -/
  failTokenize : List Nat := []
  /-- The forward passes of each context that fail, counted from one. -/
  failDecode : List Nat := []
  /-- How those passes fail. -/
  decodeFailure : InjectedFailure := .decode
  /-- Whether prompts are not opened by a token of their own. -/
  noOpening : Bool := false
  /-- The size of every context, if not the one asked for. -/
  contextSize : Option UInt32 := none
  deriving Repr

namespace Script

/-- What the engine remembers over all its contexts. -/
structure World where
  /-- The contexts created so far. -/
  contextsCreated : Nat := 0
  /-- The tokenizations asked for so far. -/
  tokenizations : Nat := 0
  /-- The time that the passes took so far, in nanoseconds. -/
  elapsed : Nat := 0
  deriving DecidableEq, Repr

/-- The cache of a context and what was done with it. -/
structure Context where
  /-- The number of positions. -/
  size : UInt32
  /-- What was submitted since the cache was last emptied, oldest first. -/
  records : Array BatchSlot := #[]
  /-- The forward passes so far. -/
  passes : Nat := 0
  /-- Whether the last pass that went well left a distribution to sample from. -/
  logitsReady : Bool := false
  deriving Repr

/-- The replies that are still to be drawn. -/
structure Sampler where
  /-- The tokens to draw. -/
  remaining : List Token
  deriving Repr

/-- The time that a pass takes for each of its slots, in nanoseconds. -/
def slotTime : Nat := 1000

/-- The tokens of a text. -/
def tokens (s : Script) (text : String) (addSpecial parseControl : Bool) : List Token :=
  (if addSpecial && !s.noOpening then [Token.opening] else []) ++
    tokensAfter parseControl 0 text.toList

/-- The bytes of a token, if it has any text. -/
def bytes? (s : Script) (token : Token) : Option (List UInt8) :=
  match s.pieces.lookup token with
  | some piece => some piece
  | none =>
    if 0 ≤ token.id ∧ token.id < 256 then some [token.id.toUInt32.toUInt8]
    else if token = Token.opening ∨ token = Token.closing then some []
    else (controlTexts.lookup token).map Utf8.encode

/-- Whether a slot's position, read as an unsigned number, is in the cache. -/
def Context.holds (c : Context) (slot : BatchSlot) : Bool :=
  decide (slot.pos.toUInt32 < c.size)

/-- A new context, as long as contexts can be created. -/
def newContext (s : Script) (config : ContextConfig) (w : World) :
    Except SessionError Context × World :=
  if s.contextsBeforeFailure.any (· ≤ w.contextsCreated) then
    (.error (.contextCreateFailed "out of memory"), w)
  else
    (.ok { size := s.contextSize.getD config.resolvedContextSize },
      { w with contextsCreated := w.contextsCreated + 1 })

/-- The tokens of a text, unless this call is one of those that fail. -/
def tokenize (s : Script) (text : String) (addSpecial parseControl : Bool) (w : World) :
    Except SessionError (List Token) × World :=
  let call := w.tokenizations + 1
  (if call ∈ s.failTokenize then
      .error (.tokenization ("injected at call " ++ toString call))
    else .ok (s.tokens text addSpecial parseControl),
    { w with tokenizations := call })

/-- One forward pass.  The slots are recorded in order up to the first that the cache has no
place for. -/
def decode (s : Script) (slots : List BatchSlot) (c : Context) (w : World) :
    Except SessionError Unit × Context × World :=
  let call := c.passes + 1
  let counted := { c with passes := call }
  let later := { w with elapsed := w.elapsed + slotTime * slots.length }
  if call ∈ s.failDecode then (.error (s.decodeFailure.error call), counted, later)
  else if slots.isEmpty then (.error (.decodeFailed "empty batch"), counted, later)
  else
    let recorded := { counted with records := c.records ++ slots.takeWhile c.holds }
    if slots.all c.holds then
      (.ok (), { recorded with logitsReady := slots.getLast?.any (·.logits) }, later)
    else (.error (.decodeFailed "KV cache full"), recorded, later)

/-- Draws the next token of the script. -/
def sample (s : Script) : Sampler → Token × Sampler
  | ⟨token :: remaining⟩ => (token, ⟨remaining⟩)
  | ⟨[]⟩ => (s.filler, ⟨[]⟩)

/-- What the engine tells about the model at a path. -/
def summary (path : String) : ModelSummary where
  path := path
  description := "mock 1M"
  vocabSize := 261
  embeddingDim := 8
  contextLength := 4096
  paramCount := 1000000
  sizeBytes := 4000000

/-- The engine that follows the script. -/
def engine (s : Script) : Engine where
  World := World
  Model := String
  Context := Context
  Sampler := Sampler
  loadModel path _ w :=
    (if s.failModelLoad then .error (.loadFailed ("cannot read " ++ path)) else .ok path, w)
  newContext _ config w := s.newContext config w
  newSampler _ w := (⟨s.replies⟩, w)
  tokenize _ text addSpecial parseControl w := s.tokenize text addSpecial parseControl w
  decode batch c w := s.decode batch.filled c w
  sample sampler _ w := ((s.sample sampler).1, (s.sample sampler).2, w)
  clearMemory _ c w := ({ c with records := #[] }, w)
  detokenize _ token :=
    match s.bytes? token with
    | some piece => .ok piece
    | none => .error (.detokenization ("unknown token " ++ toString token.id.toInt))
  isEndOfGeneration _ token := decide (token = Token.closing ∨ token ∈ s.endings)
  contextSize c := c.size
  describe := summary
  name := "mock"
  systemInfo := "mock backend"
  clock w := w.elapsed

end Script
end LlmSession
