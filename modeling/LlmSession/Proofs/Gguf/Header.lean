import LlmSession.Gguf
import LlmSession.Text.Utf8
import Mathlib.Data.List.Basic

/-!
# Which files begin with a header

A file that is read in pieces is known by its first bytes: as many as a header has, if there are so
many.  How it was cut plays no part, and neither do the bytes behind the header
(`probe_eq`).  What is left is to say which twenty-four bytes are a header, and there the two
directions are the two directions of the byte order: bytes are what their number spells, and a
number is what its bytes spell.

## Three ways to fail

The length is looked at first, so a short file is too small whatever its bytes are; then the magic
number, and then the version.  So each error says what the checks before it found, too, and the
errors and the headers together are all that can come of a file.

## Main statements

* `toLittleEndian_littleEndian`, `toLittleEndian_eq_iff`: bytes and their number.
* `probe_eq`: a file in pieces.
* `Header.ofBytes_eq_ok_iff`: which bytes are a header.
* `probe_decides`: what comes of a file.
-/

namespace LlmSession
namespace Gguf

/-! ## Bytes and their number -/

/-- The number of some bytes fits a word of so many. -/
theorem littleEndian_lt (bytes : List UInt8) : littleEndian bytes < twoTo (8 * bytes.length) := by
  induction bytes with
  | nil => decide
  | cons b bytes ih =>
    have hb := b.toNat_lt
    have hstep : twoTo (8 * (bytes.length + 1)) = twoTo (8 * bytes.length) * 256 :=
      twoTo_add (8 * bytes.length) 8
    rw [littleEndian, List.length_cons, hstep]
    omega

/-- **Bytes are what their number spells.** -/
theorem toLittleEndian_littleEndian (bytes : List UInt8) :
    toLittleEndian bytes.length (littleEndian bytes) = bytes := by
  induction bytes with
  | nil => rfl
  | cons b bytes ih =>
    have hb := b.toNat_lt
    have hbyte : UInt8.ofNat (b.toNat + 256 * littleEndian bytes) = b := by
      rw [← UInt8.toNat_inj, UInt8.toNat_ofNat', Nat.add_mul_mod_self_left, Nat.mod_eq_of_lt hb]
    have hrest : (b.toNat + 256 * littleEndian bytes) / 256 = littleEndian bytes := by omega
    rw [List.length_cons, littleEndian, toLittleEndian, hbyte, hrest, ih]

/-- A number that fits a word is the one that a word spells exactly if the word is its bytes. -/
theorem toLittleEndian_eq_iff {width n : Nat} {bytes : List UInt8} (hn : n < twoTo (8 * width))
    (hlength : bytes.length = width) :
    toLittleEndian width n = bytes ↔ littleEndian bytes = n := by
  constructor
  · rintro rfl
    exact littleEndian_toLittleEndian hn
  · rintro rfl
    rw [← hlength, toLittleEndian_littleEndian]

/-- The magic number is spelled by the letters of the format's name. -/
theorem littleEndian_eq_magicNumber_iff {bytes : List UInt8} (hlength : bytes.length = 4) :
    littleEndian bytes = magicNumber ↔ bytes = Utf8.encode "GGUF" := by
  have hname : toLittleEndian 4 magicNumber = Utf8.encode "GGUF" := by decide +kernel
  rw [← toLittleEndian_eq_iff (by decide) hlength, hname, eq_comm]

/-! ## A file in pieces -/

/-- Of a piece only so much counts as is still missing. -/
theorem take_append_take_append (n : Nat) (gathered piece rest : List UInt8) :
    (gathered ++ piece.take (n - gathered.length) ++ rest).take n =
      (gathered ++ piece ++ rest).take n := by
  have hrest : n - (gathered.length + min (n - gathered.length) piece.length) =
      n - (gathered.length + piece.length) := by omega
  simp only [List.take_append, List.take_take, Nat.min_self, List.length_append, List.length_take,
    hrest]

/-- The bytes that are gathered are the first ones, as many as a header has. -/
theorem gatherHeader?_eq {gathered : List UInt8} {pieces : List (List UInt8)}
    (hgathered : gathered.length ≤ headerLength) (hpieces : ∀ piece ∈ pieces, piece ≠ []) :
    gatherHeader? gathered pieces =
      if headerLength ≤ (gathered ++ pieces.flatten).length then
        some ((gathered ++ pieces.flatten).take headerLength)
      else none := by
  induction pieces generalizing gathered with
  | nil =>
    rw [gatherHeader?, List.flatten_nil, List.append_nil, List.take_of_length_le hgathered]
  | cons piece pieces ih =>
    obtain ⟨hpiece, hpieces⟩ := List.forall_mem_cons.1 hpieces
    by_cases hfull : headerLength ≤ gathered.length
    · -- the header is complete, and no more is read
      have hlength : gathered.length = headerLength := Nat.le_antisymm hgathered hfull
      rw [gatherHeader?, if_pos hfull, if_pos (by rw [List.length_append]; omega), ← hlength,
        List.take_left]
    · have htaken : (gathered ++ piece.take (headerLength - gathered.length)).length ≤
          headerLength := by
        rw [List.length_append, List.length_take]
        omega
      have henough : headerLength ≤
            (gathered ++ piece.take (headerLength - gathered.length) ++ pieces.flatten).length ↔
          headerLength ≤ (gathered ++ piece ++ pieces.flatten).length := by
        simp only [List.length_append, List.length_take]
        omega
      rw [gatherHeader?, if_neg hfull, if_neg hpiece, ih htaken hpieces, List.flatten_cons,
        ← List.append_assoc, take_append_take_append]
      exact if_congr henough rfl rfl

/-- What stands behind a header is not looked at. -/
theorem Header.ofBytes_take (bytes : List UInt8) :
    ofBytes (bytes.take headerLength) = ofBytes bytes := by
  simp only [ofBytes, headerLength, List.drop_take, List.take_take]
  rfl

/-- **A file in pieces** is too small, or its first bytes are looked at. -/
theorem probe_eq {pieces : List (List UInt8)} (hpieces : ∀ piece ∈ pieces, piece ≠ []) :
    probe pieces =
      if headerLength ≤ pieces.flatten.length then Header.ofBytes pieces.flatten
      else .error .fileTooSmall := by
  rw [probe, gatherHeader?_eq (Nat.zero_le _) hpieces, List.nil_append]
  by_cases hlength : headerLength ≤ pieces.flatten.length
  · rw [if_pos hlength, if_pos hlength, ← Header.ofBytes_take]
  · rw [if_neg hlength, if_neg hlength]

/-! ## Which bytes are a header -/

/-- The number that so many bytes spell from an offset on. -/
def field (bytes : List UInt8) (start width : Nat) : Nat :=
  littleEndian ((bytes.drop start).take width)

theorem length_take_drop {bytes : List UInt8} (hlength : headerLength ≤ bytes.length)
    {start width : Nat} (hle : start + width ≤ headerLength) :
    ((bytes.drop start).take width).length = width := by
  rw [List.length_take, List.length_drop]
  omega

/-- A field fits the word that it is read into. -/
theorem field_lt {bytes : List UInt8} (hlength : headerLength ≤ bytes.length) {start width : Nat}
    (hle : start + width ≤ headerLength) : field bytes start width < twoTo (8 * width) := by
  have hlt := littleEndian_lt ((bytes.drop start).take width)
  rwa [length_take_drop hlength hle] at hlt

namespace Header

variable {header : Header} {bytes : List UInt8}

@[simp] theorem length_bytes (header : Header) : header.bytes.length = headerLength := by
  simp only [Header.bytes, List.length_append, length_toLittleEndian]
  rfl

/-- The first bytes of a sequence, field by field. -/
theorem take_headerLength (bytes : List UInt8) :
    bytes.take headerLength = (bytes.drop 0).take 4 ++ (bytes.drop 4).take 4 ++
      (bytes.drop 8).take 8 ++ (bytes.drop 16).take 8 := by
  rw [show headerLength = 4 + 4 + 8 + 8 from rfl, List.take_add, List.take_add, List.take_add,
    List.drop_zero]

/-- A sequence begins with the bytes of a header exactly if its fields are those of the header. -/
theorem bytes_prefix_iff (hlength : headerLength ≤ bytes.length) :
    header.bytes <+: bytes ↔ field bytes 0 4 = magicNumber ∧
      field bytes 4 4 = header.version.toNat ∧ field bytes 8 8 = header.tensorCount.toNat ∧
      field bytes 16 8 = header.metadataCount.toNat := by
  have hmagic : ((bytes.drop 0).take 4).length = 4 := length_take_drop hlength (by decide)
  have hversion : ((bytes.drop 4).take 4).length = 4 := length_take_drop hlength (by decide)
  have htensors : ((bytes.drop 8).take 8).length = 8 := length_take_drop hlength (by decide)
  have hmetadata : ((bytes.drop 16).take 8).length = 8 := length_take_drop hlength (by decide)
  rw [List.prefix_iff_eq_take, length_bytes, take_headerLength, Header.bytes,
    List.append_eq_append_iff_of_size_eq_left, List.append_eq_append_iff_of_size_eq_left,
    List.append_eq_append_iff_of_size_eq_left,
    toLittleEndian_eq_iff (by decide) hmagic,
    toLittleEndian_eq_iff header.version.toNat_lt hversion,
    toLittleEndian_eq_iff header.tensorCount.toNat_lt htensors,
    toLittleEndian_eq_iff header.metadataCount.toNat_lt hmetadata, and_assoc, and_assoc]
  · rfl
  · rw [length_toLittleEndian, hmagic]
  · rw [List.length_append, List.length_append, length_toLittleEndian, length_toLittleEndian,
      hmagic, hversion]
  · simp only [List.length_append, length_toLittleEndian, hmagic, hversion, htensors]

/-- The checks and their order. -/
theorem ofBytes_eq (bytes : List UInt8) :
    ofBytes bytes =
      if field bytes 0 4 ≠ magicNumber then .error (.invalidMagic (field bytes 0 4))
      else if field bytes 4 4 ∉ supportedVersions then
        .error (.unsupportedVersion (field bytes 4 4))
      else .ok {
        version := UInt32.ofNat (field bytes 4 4)
        tensorCount := UInt64.ofNat (field bytes 8 8)
        metadataCount := UInt64.ofNat (field bytes 16 8) } := rfl

/-- **Which bytes are a header**: those of a header, if the version can be read. -/
theorem ofBytes_eq_ok_iff (hlength : headerLength ≤ bytes.length) :
    ofBytes bytes = .ok header ↔
      header.bytes <+: bytes ∧ header.version.toNat ∈ supportedVersions := by
  have hversion : field bytes 4 4 < twoTo 32 := field_lt hlength (by decide)
  have htensors : field bytes 8 8 < twoTo 64 := field_lt hlength (by decide)
  have hmetadata : field bytes 16 8 < twoTo 64 := field_lt hlength (by decide)
  obtain ⟨version, tensorCount, metadataCount⟩ := header
  rw [bytes_prefix_iff hlength, ofBytes_eq]
  by_cases hmagic : field bytes 0 4 = magicNumber
  · by_cases hread : field bytes 4 4 ∈ supportedVersions
    · rw [if_neg (not_not.2 hmagic), if_neg (not_not.2 hread), Except.ok.injEq, Header.mk.injEq,
        ← UInt32.toNat_inj, ← UInt64.toNat_inj, ← UInt64.toNat_inj,
        UInt32.toNat_ofNat_of_lt' hversion, UInt64.toNat_ofNat_of_lt' htensors,
        UInt64.toNat_ofNat_of_lt' hmetadata]
      exact ⟨fun h => ⟨⟨hmagic, h⟩, h.1 ▸ hread⟩, fun h => h.1.2⟩
    · rw [if_neg (not_not.2 hmagic), if_pos hread]
      exact ⟨nofun, fun h => absurd (h.1.2.1 ▸ h.2) hread⟩
  · rw [if_pos hmagic]
    exact ⟨nofun, fun h => absurd h.1.1 hmagic⟩

theorem exists_ofBytes_eq_ok_iff :
    (∃ header, ofBytes bytes = .ok header) ↔
      field bytes 0 4 = magicNumber ∧ field bytes 4 4 ∈ supportedVersions := by
  rw [ofBytes_eq]
  by_cases hmagic : field bytes 0 4 = magicNumber
  · by_cases hread : field bytes 4 4 ∈ supportedVersions
    · simp [hmagic, hread]
    · simp [hmagic, hread]
  · simp [hmagic]

theorem ofBytes_eq_invalidMagic_iff {magic : Nat} :
    ofBytes bytes = .error (.invalidMagic magic) ↔
      field bytes 0 4 ≠ magicNumber ∧ magic = field bytes 0 4 := by
  rw [ofBytes_eq]
  by_cases hmagic : field bytes 0 4 = magicNumber
  · by_cases hread : field bytes 4 4 ∈ supportedVersions
    · simp [hmagic, hread]
    · simp [hmagic, hread]
  · simp [hmagic, eq_comm]

theorem ofBytes_eq_unsupportedVersion_iff {version : Nat} :
    ofBytes bytes = .error (.unsupportedVersion version) ↔ field bytes 0 4 = magicNumber ∧
      field bytes 4 4 ∉ supportedVersions ∧ version = field bytes 4 4 := by
  rw [ofBytes_eq]
  by_cases hmagic : field bytes 0 4 = magicNumber
  · by_cases hread : field bytes 4 4 ∈ supportedVersions
    · simp [hmagic, hread]
    · simp [hmagic, hread, eq_comm]
  · simp [hmagic]

/-- Bytes that are looked at are not too few. -/
theorem ofBytes_ne_fileTooSmall : ofBytes bytes ≠ .error .fileTooSmall := by
  rw [ofBytes_eq]
  split_ifs <;> exact nofun

end Header

/-! ## What comes of a file -/

/-- Files with the same first bytes come to the same. -/
theorem probe_congr {pieces others : List (List UInt8)} (hpieces : ∀ piece ∈ pieces, piece ≠ [])
    (hothers : ∀ piece ∈ others, piece ≠ [])
    (h : others.flatten.take headerLength = pieces.flatten.take headerLength) :
    probe others = probe pieces := by
  have hlength := congrArg List.length h
  rw [List.length_take, List.length_take] at hlength
  have hiff : headerLength ≤ others.flatten.length ↔ headerLength ≤ pieces.flatten.length := by
    omega
  rw [probe_eq hothers, probe_eq hpieces, ← Header.ofBytes_take, h, Header.ofBytes_take]
  exact if_congr hiff rfl rfl

theorem mem_supportedVersions_iff {n : Nat} : n ∈ supportedVersions ↔ n = 2 ∨ n = 3 := by
  rw [supportedVersions, List.mem_cons, List.mem_singleton]

/-- **What comes of a file** that is read in pieces, none of which is empty, however it was cut.
There is a header exactly if there are twenty-four bytes, the name of the format is in front, and
the version that follows is one of the two that can be read; and then the header is the one whose
bytes the file begins with, whatever stands behind them.  Each error says which check failed first:
a short file is too small, whatever its bytes are, and the name is looked at before the version.
Files with the same first bytes come to the same. -/
theorem probe_decides {pieces : List (List UInt8)} (hpieces : ∀ piece ∈ pieces, piece ≠ []) :
    let content := pieces.flatten
    ((∃ header, probe pieces = .ok header) ↔ 24 ≤ content.length ∧
      content.take 4 = Utf8.encode "GGUF" ∧ (field content 4 4 = 2 ∨ field content 4 4 = 3)) ∧
    (∀ header, probe pieces = .ok header ↔
      header.bytes <+: content ∧ (header.version = 2 ∨ header.version = 3)) ∧
    (probe pieces = .error .fileTooSmall ↔ content.length < 24) ∧
    (∀ magic, probe pieces = .error (.invalidMagic magic) ↔ 24 ≤ content.length ∧
      content.take 4 ≠ Utf8.encode "GGUF" ∧ magic = field content 0 4) ∧
    (∀ version, probe pieces = .error (.unsupportedVersion version) ↔ 24 ≤ content.length ∧
      content.take 4 = Utf8.encode "GGUF" ∧ ¬ (field content 4 4 = 2 ∨ field content 4 4 = 3) ∧
      version = field content 4 4) ∧
    ∀ others : List (List UInt8), (∀ piece ∈ others, piece ≠ []) →
      others.flatten.take 24 = content.take 24 → probe others = probe pieces := by
  intro content
  have hversion (header : Header) : header.version.toNat ∈ supportedVersions ↔
      header.version = 2 ∨ header.version = 3 := by
    rw [mem_supportedVersions_iff, ← UInt32.toNat_inj, ← UInt32.toNat_inj]
    rfl
  have hsame (others : List (List UInt8)) (hothers : ∀ piece ∈ others, piece ≠ [])
      (h : others.flatten.take 24 = content.take 24) : probe others = probe pieces :=
    probe_congr hpieces hothers h
  by_cases hlength : 24 ≤ content.length
  · have hname : field content 0 4 = magicNumber ↔ content.take 4 = Utf8.encode "GGUF" :=
      littleEndian_eq_magicNumber_iff (length_take_drop hlength (by decide))
    have hread := mem_supportedVersions_iff (n := field content 4 4)
    have hfound : probe pieces = Header.ofBytes content := (probe_eq hpieces).trans (if_pos hlength)
    refine ⟨?_, fun header => ?_, ?_, fun magic => ?_, fun version => ?_, hsame⟩ <;> rw [hfound]
    · rw [Header.exists_ofBytes_eq_ok_iff, hname, hread, and_iff_right hlength]
    · rw [Header.ofBytes_eq_ok_iff hlength, hversion]
    · exact iff_of_false Header.ofBytes_ne_fileTooSmall (Nat.not_lt.2 hlength)
    · rw [Header.ofBytes_eq_invalidMagic_iff, ne_eq, hname, and_iff_right hlength]
    · rw [Header.ofBytes_eq_unsupportedVersion_iff, hname, hread, and_iff_right hlength]
  · have hfound : probe pieces = .error .fileTooSmall := (probe_eq hpieces).trans (if_neg hlength)
    refine ⟨?_, fun header => ?_, ?_, fun magic => ?_, fun version => ?_, hsame⟩ <;> rw [hfound]
    · exact iff_of_false nofun fun h => hlength h.1
    · refine iff_of_false nofun fun h => hlength ?_
      have hle := h.1.length_le
      rwa [Header.length_bytes] at hle
    · exact iff_of_true rfl (Nat.lt_of_not_le hlength)
    · exact iff_of_false nofun fun h => hlength h.1
    · exact iff_of_false nofun fun h => hlength h.1

/-- A header that is cut inside its magic number and inside a count, with more behind it. -/
theorem probe_decides_of_cut_header :
    let header : Header := { version := 3, tensorCount := 291, metadataCount := 24 }
    let content := header.bytes ++ [0xFF]
    let pieces := [content.take 2, (content.drop 2).take 11, content.drop 13]
    (∀ piece ∈ pieces, piece ≠ []) ∧ probe pieces = .ok header ∧
      probe [content.take 2, (content.drop 2).take 11] = .error .fileTooSmall := by
  intro header content pieces
  have hpieces : ∀ piece ∈ pieces, piece ≠ [] := by decide +kernel
  have hshort : ∀ piece ∈ [content.take 2, (content.drop 2).take 11], piece ≠ [] := by
    decide +kernel
  exact ⟨hpieces, ((probe_decides hpieces).2.1 header).2 ⟨by decide +kernel, Or.inr rfl⟩,
    (probe_decides hshort).2.2.1.2 (by decide +kernel)⟩

end Gguf
end LlmSession
