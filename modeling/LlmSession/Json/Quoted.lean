/-!
# Quoted text

Text between quotation marks, as it is spelled in a JSON file.  An escape names a 16-bit
unit, and a character past the first plane takes two of them, a pair of surrogates.  Half a
pair may be spelled, but it stands for no character.  So what is spelled is a list of
`TextUnit`s, and whether it stands for a text is a second question, which `joined?` answers.

## Main definitions

* `readQuoted`: what is spelled up to the closing mark.
* `joined?`: the text that it stands for.
* `quoted`: the spelling of a text.  Marks, backslashes and control characters are escaped,
  and nothing else is.

## Main statements

* `readQuoted_quoted`: what is written is read back, with nothing left over and nothing taken
  from what follows.
-/

namespace LlmSession
namespace Json

/-- A unit of quoted text. -/
inductive TextUnit where
  /-- A character. -/
  | char (c : Char)
  /-- Half of a pair that stands for one character. -/
  | surrogate (code : Nat)
  deriving DecidableEq, Repr

/-! ## Reading -/

/-- The value of a hexadecimal digit. -/
def hexValue? (c : Char) : Option Nat :=
  if '0' ≤ c ∧ c ≤ '9' then some (c.toNat - '0'.toNat)
  else if 'a' ≤ c ∧ c ≤ 'f' then some (c.toNat - 'a'.toNat + 10)
  else if 'A' ≤ c ∧ c ≤ 'F' then some (c.toNat - 'A'.toNat + 10)
  else none

/-- The unit with a 16-bit code. -/
def TextUnit.ofCode (n : Nat) : TextUnit :=
  if 0xD800 ≤ n ∧ n ≤ 0xDFFF then .surrogate n else .char (Char.ofNat n)

/-- The unit that four hexadecimal digits name. -/
def TextUnit.ofHex? (a b c d : Char) : Option TextUnit :=
  match hexValue? a, hexValue? b, hexValue? c, hexValue? d with
  | some a, some b, some c, some d => some (.ofCode (((a * 16 + b) * 16 + c) * 16 + d))
  | _, _, _, _ => none

/-- The character that a letter after a backslash stands for. -/
def escaped? : Char → Option Char
  | '"' => some '"'
  | '\\' => some '\\'
  | '/' => some '/'
  | 'b' => some '\x08'
  | 'f' => some '\x0C'
  | 'n' => some '\n'
  | 'r' => some '\r'
  | 't' => some '\t'
  | _ => none

/-- What is spelled up to the closing mark, and what follows that mark. -/
def readQuoted : List Char → Option (List TextUnit × List Char)
  | [] => none
  | '"' :: rest => some ([], rest)
  | '\\' :: 'u' :: a :: b :: c :: d :: rest =>
    match TextUnit.ofHex? a b c d, readQuoted rest with
    | some unit, some (units, rest) => some (unit :: units, rest)
    | _, _ => none
  | '\\' :: c :: rest =>
    match escaped? c, readQuoted rest with
    | some c, some (units, rest) => some (.char c :: units, rest)
    | _, _ => none
  | c :: rest =>
    if c < ' ' then none
    else
      match readQuoted rest with
      | some (units, rest) => some (.char c :: units, rest)
      | none => none

/-- The text that some units stand for; half a pair stands for none. -/
def joined? : List TextUnit → Option (List Char)
  | [] => some []
  | .char c :: units => (joined? units).map (c :: ·)
  | .surrogate high :: .surrogate low :: units =>
    if high < 0xDC00 ∧ 0xDC00 ≤ low then
      (joined? units).map (Char.ofNat ((high - 0xD800) * 0x400 + (low - 0xDC00) + 0x10000) :: ·)
    else none
  | .surrogate _ :: _ => none

/-! ## Writing -/

/-- The four hexadecimal digits of a 16-bit code. -/
def hexDigits (n : Nat) : List Char :=
  [Nat.digitChar (n / 0x1000 % 16), Nat.digitChar (n / 0x100 % 16), Nat.digitChar (n / 0x10 % 16),
    Nat.digitChar (n % 16)]

/-- The spelling of a character. -/
def spelled (c : Char) : List Char :=
  if c = '"' then ['\\', '"']
  else if c = '\\' then ['\\', '\\']
  else if c = '\x08' then ['\\', 'b']
  else if c = '\x0C' then ['\\', 'f']
  else if c = '\n' then ['\\', 'n']
  else if c = '\r' then ['\\', 'r']
  else if c = '\t' then ['\\', 't']
  else if c < ' ' then '\\' :: 'u' :: hexDigits c.toNat
  else [c]

/-- The spelling of a unit. -/
def TextUnit.spelled : TextUnit → List Char
  | .char c => Json.spelled c
  | .surrogate code => '\\' :: 'u' :: hexDigits code

/-- The spelling of some units, with both marks. -/
def quoted (units : List TextUnit) : List Char :=
  '"' :: (units.flatMap TextUnit.spelled ++ ['"'])

/-- The units of a text. -/
def unitsOf (s : String) : List TextUnit := s.toList.map .char

/-- The text of some units. -/
def textOf? (units : List TextUnit) : Option String := (joined? units).map String.ofList

/-! ## Reading back -/

@[simp] theorem joined?_map_char (cs : List Char) : joined? (cs.map .char) = some cs := by
  induction cs with
  | nil => rfl
  | cons c cs ih => simp [joined?, ih]

@[simp] theorem textOf?_unitsOf (s : String) : textOf? (unitsOf s) = some s := by
  simp [textOf?, unitsOf]

/-- A control character's four digits name it. -/
theorem ofHex?_hexDigits_of_lt {n : Nat} (h : n < 32) :
    TextUnit.ofHex? (Nat.digitChar (n / 0x1000 % 16)) (Nat.digitChar (n / 0x100 % 16))
      (Nat.digitChar (n / 0x10 % 16)) (Nat.digitChar (n % 16)) = some (.char (Char.ofNat n)) := by
  have key : ∀ n : Fin 32,
      TextUnit.ofHex? (Nat.digitChar (n.val / 0x1000 % 16)) (Nat.digitChar (n.val / 0x100 % 16))
        (Nat.digitChar (n.val / 0x10 % 16)) (Nat.digitChar (n.val % 16)) =
          some (.char (Char.ofNat n.val)) := by decide
  exact key ⟨n, h⟩

theorem readQuoted_cons_of_ge {c : Char} {cs : List Char} (h1 : c ≠ '"') (h2 : c ≠ '\\')
    (h3 : ¬ c < ' ') :
    readQuoted (c :: cs) = (readQuoted cs).map fun r => (.char c :: r.1, r.2) := by
  rw [readQuoted.eq_def]
  split
  · simp_all
  · simp_all
  · simp_all
  · simp_all
  · rename_i heq
    obtain ⟨rfl, rfl⟩ := List.cons.inj heq
    rw [if_neg h3]
    cases readQuoted cs <;> rfl

/-- A character is read back from its spelling. -/
theorem readQuoted_spelled (c : Char) (cs : List Char) :
    readQuoted (spelled c ++ cs) = (readQuoted cs).map fun r => (.char c :: r.1, r.2) := by
  unfold spelled
  split
  · subst c; cases h : readQuoted cs <;> simp [readQuoted, escaped?, h]
  split
  · subst c; cases h : readQuoted cs <;> simp [readQuoted, escaped?, h]
  split
  · subst c; cases h : readQuoted cs <;> simp [readQuoted, escaped?, h]
  split
  · subst c; cases h : readQuoted cs <;> simp [readQuoted, escaped?, h]
  split
  · subst c; cases h : readQuoted cs <;> simp [readQuoted, escaped?, h]
  split
  · subst c; cases h : readQuoted cs <;> simp [readQuoted, escaped?, h]
  split
  · subst c; cases h : readQuoted cs <;> simp [readQuoted, escaped?, h]
  split
  · rename_i hlt
    have hn : c.toNat < 32 := hlt
    have hof : Char.ofNat c.toNat = c := Char.ofNat_toNat c
    have hhex := ofHex?_hexDigits_of_lt hn
    rw [hof] at hhex
    simp only [hexDigits, List.cons_append, List.nil_append]
    cases h : readQuoted cs <;> simp [readQuoted, hhex, h]
  · rename_i h1 h2 _ _ _ _ _ h3
    rw [List.singleton_append]
    exact readQuoted_cons_of_ge h1 h2 h3

/-- **What is written is read back**, and what follows it is left. -/
theorem readQuoted_quoted (s : String) (rest : List Char) :
    readQuoted ((quoted (unitsOf s)).tail ++ rest) = some (unitsOf s, rest) := by
  have key : ∀ cs : List Char,
      readQuoted ((cs.map TextUnit.char).flatMap TextUnit.spelled ++ '"' :: rest) =
        some (cs.map .char, rest) := by
    intro cs
    induction cs with
    | nil => simp [readQuoted]
    | cons c cs ih =>
      simp only [List.map_cons, List.flatMap_cons, List.append_assoc]
      show readQuoted (Json.spelled c ++ _) = _
      rw [readQuoted_spelled, ih]
      rfl
  simpa [quoted, unitsOf] using key s.toList

end Json
end LlmSession
