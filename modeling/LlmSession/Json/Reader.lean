import LlmSession.Json.Basic

/-!
# Reading JSON

A reader by recursive descent over a list of characters.  Every value that it reads takes at
least one character, so the number of characters bounds the number of steps: `read?` starts
with that bound, and no text is refused for running out of it.

## Main definitions

* `skipBlanks`: the four blank characters of the format.
* `readValue`: one value at the beginning of a text.
* `read?`: a text that is one value.
-/

namespace LlmSession
namespace Json

/-- Whether a character is blank between the parts of a value. -/
def isBlankChar (c : Char) : Bool := c = ' ' || c = '\n' || c = '\t' || c = '\r'

/-- The text after its blank characters. -/
def skipBlanks (cs : List Char) : List Char := cs.dropWhile isBlankChar

mutual

/-- One value at the beginning of a text, and what follows it. -/
def readValue : (steps : Nat) → List Char → Option (Json × List Char)
  | 0, _ => none
  | steps + 1, cs =>
    match skipBlanks cs with
    | 'n' :: 'u' :: 'l' :: 'l' :: rest => some (.null, rest)
    | 't' :: 'r' :: 'u' :: 'e' :: rest => some (.bool true, rest)
    | 'f' :: 'a' :: 'l' :: 's' :: 'e' :: rest => some (.bool false, rest)
    | '"' :: rest =>
      match readQuoted rest with
      | some (units, rest) => some (.text units, rest)
      | none => none
    | '[' :: rest =>
      match skipBlanks rest with
      | ']' :: rest => some (.array [], rest)
      | _ =>
        match readValue steps rest with
        | none => none
        | some (item, rest) =>
          match readItems steps rest with
          | none => none
          | some (items, rest) => some (.array (item :: items), rest)
    | '{' :: rest =>
      match skipBlanks rest with
      | '}' :: rest => some (.object [], rest)
      | _ =>
        match readMember steps rest with
        | none => none
        | some (member, rest) =>
          match readMembers steps rest with
          | none => none
          | some (members, rest) => some (.object (member :: members), rest)
    | cs =>
      match readNumeral cs with
      | some (n, rest) => some (.number n, rest)
      | none => none

/-- The further items of a list, with its closing bracket. -/
def readItems : (steps : Nat) → List Char → Option (List Json × List Char)
  | 0, _ => none
  | steps + 1, cs =>
    match skipBlanks cs with
    | ']' :: rest => some ([], rest)
    | ',' :: rest =>
      match readValue steps rest with
      | none => none
      | some (item, rest) =>
        match readItems steps rest with
        | none => none
        | some (items, rest) => some (item :: items, rest)
    | _ => none

/-- A name and its value. -/
def readMember : (steps : Nat) → List Char → Option ((List TextUnit × Json) × List Char)
  | 0, _ => none
  | steps + 1, cs =>
    match skipBlanks cs with
    | '"' :: rest =>
      match readQuoted rest with
      | none => none
      | some (units, rest) =>
        match skipBlanks rest with
        | ':' :: rest =>
          match readValue steps rest with
          | none => none
          | some (v, rest) => some ((units, v), rest)
        | _ => none
    | _ => none

/-- The further members of an object, with its closing brace. -/
def readMembers : (steps : Nat) → List Char → Option (List (List TextUnit × Json) × List Char)
  | 0, _ => none
  | steps + 1, cs =>
    match skipBlanks cs with
    | '}' :: rest => some ([], rest)
    | ',' :: rest =>
      match readMember steps rest with
      | none => none
      | some (member, rest) =>
        match readMembers steps rest with
        | none => none
        | some (members, rest) => some (member :: members, rest)
    | _ => none

end

/-- The value that a text spells, with nothing but blank characters around it. -/
def read? (s : String) : Option Json :=
  let cs := s.toList
  match readValue (cs.length + 1) cs with
  | some (v, rest) => if (skipBlanks rest).isEmpty then some v else none
  | none => none

end Json
end LlmSession
