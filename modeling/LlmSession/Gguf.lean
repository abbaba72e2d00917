import LlmSession.Error
import LlmSession.Power

/-!
# The header of a model file

A model file in the GGUF format begins with a header of fixed size: a magic number, a version
and two counts, all with the least significant byte first.  Looking at it is cheap, and tells
a wrong or truncated file from a model before an engine is asked to load it.

A file is read in pieces, and a system may give fewer bytes than were asked for.  A piece
without bytes is the end of the file.  The pieces are put together until the header is
complete, so how a file is cut does not matter.

## Main definitions

* `Gguf.gatherHeader?`: the first bytes of a file, from its pieces.
* `Gguf.Header.ofBytes`, `Gguf.Header.bytes`: the header of some bytes, and the bytes of a
  header.
* `Gguf.probe`: both together.
-/

namespace LlmSession
namespace Gguf

/-- Why a file is no model file. -/
inductive ProbeError where
  /-- The file could not be read. -/
  | fileOpen (detail : String)
  /-- The file does not begin with the magic number. -/
  | invalidMagic (magic : Nat)
  /-- The version is not one of those that can be read. -/
  | unsupportedVersion (version : Nat)
  /-- The file ends inside the header. -/
  | fileTooSmall
  deriving DecidableEq, Repr

/-- A hexadecimal number with capital letters and at least eight digits. -/
def hexWord (n : Nat) : String :=
  let digits := (Nat.toDigits 16 n).map Char.toUpper
  String.ofList (List.replicate (8 - digits.length) '0' ++ digits)

/-- The wording of each cause. -/
def ProbeError.message : ProbeError → String
  | .fileOpen detail => "Failed to open file: " ++ detail
  | .invalidMagic magic => "Not a GGUF file: magic 0x" ++ hexWord magic
  | .unsupportedVersion version => "Unsupported GGUF version: " ++ toString version
  | .fileTooSmall => "File too small to be valid GGUF"

/-- The same cause as an error of a session. -/
def ProbeError.toSessionError (e : ProbeError) : SessionError := .modelValidation e.message

/-! ## Numbers in bytes -/

/-- The number that some bytes spell, the least significant byte first. -/
def littleEndian : List UInt8 → Nat
  | [] => 0
  | b :: bs => b.toNat + 256 * littleEndian bs

/-- The bytes of a number, the least significant byte first. -/
def toLittleEndian : (width : Nat) → Nat → List UInt8
  | 0, _ => []
  | width + 1, n => UInt8.ofNat n :: toLittleEndian width (n / 256)

@[simp] theorem length_toLittleEndian (width n : Nat) :
    (toLittleEndian width n).length = width := by
  induction width generalizing n with
  | zero => rfl
  | succ width ih => simp [toLittleEndian, ih]

/-- A number that fits is read back from its bytes. -/
theorem littleEndian_toLittleEndian {width n : Nat} (h : n < twoTo (8 * width)) :
    littleEndian (toLittleEndian width n) = n := by
  induction width generalizing n with
  | zero => simp at h; simp [toLittleEndian, littleEndian, h]
  | succ width ih =>
    have hlt : n / 256 < twoTo (8 * width) := by
      rw [Nat.div_lt_iff_lt_mul (by decide)]
      rwa [Nat.mul_succ, twoTo_add] at h
    simp only [toLittleEndian, littleEndian, ih hlt, UInt8.toNat_ofNat']
    omega

/-! ## Headers -/

/-- The number of bytes of a header. -/
def headerLength : Nat := 24

/-- The magic number: the letters of the format's name. -/
def magicNumber : Nat := 0x46554747

/-- What a header tells about its file. -/
structure Header where
  /-- The version of the format. -/
  version : UInt32
  /-- The number of tensors. -/
  tensorCount : UInt64
  /-- The number of metadata entries. -/
  metadataCount : UInt64
  deriving DecidableEq, Repr

/-- The versions that can be read. -/
def supportedVersions : List Nat := [2, 3]

/-- The header that some bytes spell.  The magic number is looked at first, then the
version. -/
def Header.ofBytes (bytes : List UInt8) : Except ProbeError Header :=
  let magic := littleEndian (bytes.take 4)
  let version := littleEndian ((bytes.drop 4).take 4)
  if magic ≠ magicNumber then .error (.invalidMagic magic)
  else if version ∉ supportedVersions then .error (.unsupportedVersion version)
  else .ok {
    version := UInt32.ofNat version
    tensorCount := UInt64.ofNat (littleEndian ((bytes.drop 8).take 8))
    metadataCount := UInt64.ofNat (littleEndian ((bytes.drop 16).take 8)) }

/-- The bytes of a header. -/
def Header.bytes (h : Header) : List UInt8 :=
  toLittleEndian 4 magicNumber ++ toLittleEndian 4 h.version.toNat ++
    toLittleEndian 8 h.tensorCount.toNat ++ toLittleEndian 8 h.metadataCount.toNat

/-! ## Reading a file -/

/-- The first bytes of a file, as many as a header has.  Of every piece so many bytes are
taken as are still missing; without another piece, or with an empty one, the file is over. -/
def gatherHeader? (gathered : List UInt8) : List (List UInt8) → Option (List UInt8)
  | [] => if headerLength ≤ gathered.length then some gathered else none
  | piece :: pieces =>
    if headerLength ≤ gathered.length then some gathered
    else if piece = [] then none
    else gatherHeader? (gathered ++ piece.take (headerLength - gathered.length)) pieces

/-- The header of a file that is read in the given pieces. -/
def probe (pieces : List (List UInt8)) : Except ProbeError Header :=
  match gatherHeader? [] pieces with
  | none => .error .fileTooSmall
  | some bytes => Header.ofBytes bytes

end Gguf
end LlmSession
