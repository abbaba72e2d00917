import LlmSession.Json.Basic

/-!
# Records

A record with named fields is spelled as an object, or as an array of its fields in their
order.  An object may have members that are no fields, which are passed over, but every name
in it has to be a text, and no field may come twice.  An array may end early, but may not go
on past the last field.
-/

namespace LlmSession
namespace Json

/-- Values by the name of their field. -/
abbrev Fields := List (String × Json)

/-- The members of an object that are fields of a record with the given names. -/
def knownFields? (names : List String) : List (List TextUnit × Json) → Option Fields
  | [] => some []
  | (units, v) :: members =>
    match textOf? units, knownFields? names members with
    | some name, some fields =>
      if name ∈ names then
        if name ∈ fields.map Prod.fst then none else some ((name, v) :: fields)
      else some fields
    | _, _ => none

/-- The fields of a record with the given names, in either spelling. -/
def fields? (names : List String) : Json → Option Fields
  | .object members => knownFields? names members
  | .array items => if items.length ≤ names.length then some (names.zip items) else none
  | _ => none

/-- The value of a field, or the given one if the field is not there. -/
def Fields.get? {α : Type} (fields : Fields) (name : String) (value? : Json → Option α)
    (absent : α) : Option α :=
  match fields.lookup name with
  | none => some absent
  | some v => value? v

/-- The value of a field that has to be there. -/
def Fields.require? {α : Type} (fields : Fields) (name : String) (value? : Json → Option α) :
    Option α :=
  (fields.lookup name).bind value?

end Json
end LlmSession
