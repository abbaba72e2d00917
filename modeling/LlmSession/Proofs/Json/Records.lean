import LlmSession.Proofs.Decimal.Shortest
import LlmSession.Proofs.Json.Values
import LlmSession.Settings.Json

/-!
# Values of a kind, and records

What was written as a value of some kind is read as one of that kind, and it is the value that was
written.  For texts, choices and lists that is so without any condition, and for records if no two
of their fields have one name.

## Single-precision numbers

A number that is not finite is written as `null`, and `null` is no number.  A finite one is written
as the shortest decimal that rounds to it.  But the reader rounds twice, to a double first, and it
may be that the decimal is so near to the middle of two numbers that this makes a difference.
`Binary32.ReadsBack` says of one number that it does not.  It is a statement about the digits of that
number and can be computed.

## Main statements

* `toBinary32?_ofBinary32`: which numbers are read back.
* `fields?_ofFields`: the fields of a record.
-/

namespace LlmSession

/-- If the number is finite, its numeral stands for it. -/
def Binary32.ReadsBack (x : Binary32) : Prop :=
  x.isFinite = true → (Json.Numeral.ofBinary32 x).number?.map Json.Number.binary32 = some x

instance (x : Binary32) : Decidable x.ReadsBack :=
  inferInstanceAs (Decidable (x.isFinite = true →
    (Json.Numeral.ofBinary32 x).number?.map Json.Number.binary32 = some x))

namespace Json

/-! ## Values of a kind -/

@[simp] theorem toString?_ofString (s : String) : (ofString s).toString? = some s :=
  textOf?_unitsOf s

@[simp] theorem choice?_ofString {α : Type} (named : String → Option α) (s : String) :
    (ofString s).choice? named = named s := by
  show (textOf? (unitsOf s)).bind named = _
  rw [textOf?_unitsOf, Option.bind_some]

@[simp] theorem toList?_array_map_ofString (texts : List String) :
    (array (texts.map ofString)).toList? toString? = some texts := by
  show (texts.map ofString).mapM toString? = some texts
  induction texts with
  | nil => rfl
  | cons s texts ih => simp [ih]

@[simp] theorem toBool?_bool (b : Bool) : (bool b).toBool? = some b := rfl

/-- **A single-precision number** is read back if it is finite, and is none otherwise. -/
theorem toBinary32?_ofBinary32 {x : Binary32} (h : x.ReadsBack) :
    (ofBinary32 x).toBinary32? = if x.isFinite = true then some x else none := by
  by_cases hfinite : x.isFinite = true
  · rw [ofBinary32, if_pos hfinite, if_pos hfinite]
    exact h hfinite
  · rw [ofBinary32, if_neg hfinite, if_neg hfinite]
    rfl

theorem wellSpelled_ofBinary32 (x : Binary32) : (ofBinary32 x).WellSpelled := by
  unfold ofBinary32
  split
  · exact .number (Numeral.wellSpelled_ofBinary32 x)
  · exact .null

/-! ## Records -/

/-- The members of a record that was written, for all fields or for the last of them. -/
theorem knownFields?_map {names : List String} {fields : Fields}
    (hnames : ∀ f ∈ fields, f.1 ∈ names) (hnodup : (fields.map Prod.fst).Nodup) :
    knownFields? names (fields.map fun f => (unitsOf f.1, f.2)) = some fields := by
  induction fields with
  | nil => rfl
  | cons f fields ih =>
    obtain ⟨hname, hnames⟩ := List.forall_mem_cons.1 hnames
    rw [List.map_cons, List.nodup_cons] at hnodup
    simp only [List.map_cons, knownFields?, textOf?_unitsOf, ih hnames hnodup.2, if_pos hname,
      if_neg hnodup.1]

/-- **The fields of a record** that was written are those that it has. -/
theorem fields?_ofFields {names : List String} {fields : Fields}
    (hnames : fields.map Prod.fst = names) (hnodup : names.Nodup) :
    (ofFields fields).fields? names = some fields := by
  subst hnames
  exact knownFields?_map (fun _ => List.mem_map_of_mem) hnodup

end Json
end LlmSession
