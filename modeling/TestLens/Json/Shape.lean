import TestLens.Json

namespace TestLens.Json

def valuesFor (key : String) (members : List (String × Json)) : List Json :=
  members.filterMap fun (k, j) => if k = key then some j else none

def member? (members : List (String × Json)) (key : String) : Option (Option Json) :=
  match valuesFor key members with
  | [] => some none
  | [j] => some (some j)
  | _ => none

inductive ListForm where
  | exact
  -- One value for each field, where the last one may be left out.
  | lastOptional
  deriving DecidableEq

-- The values given for the fields, in the order of the names. Members whose keys name no field are
-- passed over, and a field given twice is refused.
def slots (names : List String) (form : ListForm) : Json → Option (List (Option Json))
  | .obj members => names.mapM (member? members)
  | .arr items =>
    if items.length = names.length then some (items.map some)
    else if form = .lastOptional ∧ items.length + 1 = names.length then
      some (items.map some ++ [none])
    else none
  | _ => none

def required {α : Type} (read : Json → Option α) (slot : Option Json) : Option α :=
  slot.bind read

def optional {α : Type} (read : Json → Option α) : Option Json → Option (Option α)
  | none => some none
  | some .null => some none
  | some j => (read j).map some

def listOf {α : Type} (read : Json → Option α) : Json → Option (List α)
  | .arr items => items.mapM read
  | _ => none

end TestLens.Json
