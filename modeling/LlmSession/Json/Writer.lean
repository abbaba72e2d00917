import LlmSession.Json.Basic

/-!
# Writing JSON

Two spellings of a value.  The compact one has no blank characters.  The indented one has
each item and each member on a line of its own, two spaces further in than what holds it, and
nothing between the brackets of an empty list.
-/

namespace LlmSession
namespace Json

/-- A truth value. -/
def boolChars (b : Bool) : List Char := if b then ['t', 'r', 'u', 'e'] else ['f', 'a', 'l', 's', 'e']

/-- The word for no value. -/
def nullChars : List Char := ['n', 'u', 'l', 'l']

/-! ## The compact spelling -/

mutual

/-- A value without blank characters. -/
def compactChars : Json → List Char
  | .null => nullChars
  | .bool b => boolChars b
  | .number n => n.chars
  | .text units => quoted units
  | .array [] => ['[', ']']
  | .array (item :: items) => '[' :: (compactChars item ++ compactItems items)
  | .object [] => ['{', '}']
  | .object ((name, v) :: members) =>
    '{' :: (quoted name ++ ':' :: (compactChars v ++ compactMembers members))

/-- The further items of a list, with its closing bracket. -/
def compactItems : List Json → List Char
  | [] => [']']
  | item :: items => ',' :: (compactChars item ++ compactItems items)

/-- The further members of an object, with its closing brace. -/
def compactMembers : List (List TextUnit × Json) → List Char
  | [] => ['}']
  | (name, v) :: members =>
    ',' :: (quoted name ++ ':' :: (compactChars v ++ compactMembers members))

end

/-- A value without blank characters, as a string. -/
def compact (v : Json) : String := String.ofList (compactChars v)

/-! ## The indented spelling -/

/-- A new line, so many levels in. -/
def newLine (level : Nat) : List Char := '\n' :: List.replicate (2 * level) ' '

mutual

/-- A value on several lines, whose first line is already so many levels in. -/
def indentedChars (level : Nat) : Json → List Char
  | .null => nullChars
  | .bool b => boolChars b
  | .number n => n.chars
  | .text units => quoted units
  | .array [] => ['[', ']']
  | .array (item :: items) =>
    '[' :: (newLine (level + 1) ++ indentedChars (level + 1) item ++ indentedItems level items)
  | .object [] => ['{', '}']
  | .object ((name, v) :: members) =>
    '{' :: (newLine (level + 1) ++ quoted name ++ ':' :: ' ' ::
      (indentedChars (level + 1) v ++ indentedMembers level members))

/-- The further items of a list, with its closing bracket. -/
def indentedItems (level : Nat) : List Json → List Char
  | [] => newLine level ++ [']']
  | item :: items =>
    ',' :: (newLine (level + 1) ++ indentedChars (level + 1) item ++ indentedItems level items)

/-- The further members of an object, with its closing brace. -/
def indentedMembers (level : Nat) : List (List TextUnit × Json) → List Char
  | [] => newLine level ++ ['}']
  | (name, v) :: members =>
    ',' :: (newLine (level + 1) ++ quoted name ++ ':' :: ' ' ::
      (indentedChars (level + 1) v ++ indentedMembers level members))

end

/-- A value on several lines, as a string. -/
def indented (v : Json) : String := String.ofList (indentedChars 0 v)

end Json
end LlmSession
