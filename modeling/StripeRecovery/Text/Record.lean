import StripeRecovery.Text.Json

/-!
Records in JSON: a record is read from an object, where fields that are not known are
skipped and a known field may stand once, or from an array of its fields in order.
-/
namespace StripeRecovery.Json

def fields? (names : List String) : Json → Option (List (Option Json))
  | .obj fields => names.mapM fun name =>
      match fields.filter (·.1 == name) with
      | [] => some none
      | [field] => some (some field.2)
      | _ => none
  | .arr items =>
      if items.length ≤ names.length then
        some (items.map some ++ List.replicate (names.length - items.length) none)
      else none
  | _ => none

def word? : Json → Option Nat
  | .nat n => if n < UInt64.size then some n else none
  | _ => none

def bool? : Json → Option Bool
  | .bool b => some b
  | _ => none

def text? : Json → Option String
  | .str s => some s
  | _ => none

def orNull? {α : Type} (read : Json → Option α) : Json → Option (Option α)
  | .null => some none
  | v => (read v).map some

def required? {α : Type} (read : Json → Option α) (field : Option Json) : Option α := field.bind read

def optional? {α : Type} (read : Json → Option α) (absent : α) : Option Json → Option α
  | none => some absent
  | some v => read v

end StripeRecovery.Json
