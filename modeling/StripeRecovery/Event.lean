import StripeRecovery.Notice
import StripeRecovery.Text.Record
import StripeRecovery.Text.Timestamp

/-!
Events: notices with the time at which they were raised, and their JSON form, a record whose
field `type` tells which other fields it has.
-/
namespace StripeRecovery

structure Event where
  notice : Notice
  time : Timestamp
deriving DecidableEq, Repr

def Notice.fields (n : Notice) : List (String × Json) :=
  [("type", .str n.kind),
    (match n with
      | .repair position => ("position", .nat position)
      | .recoverable stripe | .unrecoverable stripe => ("stripe", .nat stripe))]

def Notice.toJson (n : Notice) : Json := .obj n.fields

def Json.overflows (written : List Char) : Bool :=
  let cs := written.dropWhile (· == '-')
  let whole := cs.takeWhile Char.isDigit
  let rest := cs.drop whole.length
  let fraction :=
    match rest with
    | '.' :: more => more.takeWhile Char.isDigit
    | _ => []
  let mantissa := Json.natOfDigits (whole ++ fraction)
  let power := (rest.dropWhile fun c => c != 'e' && c != 'E').drop 1
  let exponent : Int :=
    match power with
    | '-' :: digits => -(Json.natOfDigits digits : Int)
    | '+' :: digits => Json.natOfDigits digits
    | digits => Json.natOfDigits digits
  let shift := exponent - fraction.length
  let limit := Nat.pow 2 1024 - Nat.pow 2 970
  if mantissa = 0 then false
  else if 310 < shift then true
  else if 0 ≤ shift then limit ≤ mantissa * Nat.pow 10 shift.toNat
  else
    let digits := (Nat.toDigits 10 mantissa).length
    309 ≤ digits + shift && limit * Nat.pow 10 (-shift).toNat ≤ mantissa

mutual

/-- Whether a value can be kept until the type of its record is known: every string has a text,
    every number fits a float, and values are not nested deeper than `depth`. -/
def Json.isKeepable : Nat → Json → Bool
  | _, .halfPair => false
  | _, .decimal written => !Json.overflows written
  | _, .nat n => n < 2 ^ 1024 - 2 ^ 970
  | 0, .arr _ | 0, .obj _ => false
  | depth + 1, .arr items => Json.areKeepable depth items
  | depth + 1, .obj fields => Json.areFieldsKeepable depth fields
  | _, _ => true

def Json.areKeepable (depth : Nat) : List Json → Bool
  | [] => true
  | v :: rest => Json.isKeepable depth v && Json.areKeepable depth rest

def Json.areFieldsKeepable (depth : Nat) : List (String × Json) → Bool
  | [] => true
  | f :: rest => Json.isKeepable depth f.2 && Json.areFieldsKeepable depth rest

end

namespace Event

def toJson (e : Event) : Json := .obj (e.notice.fields ++ [("timestamp", .str e.time.withLetter)])

def time? (v : Json) : Option Timestamp := (v.text?).bind Timestamp.parse?

def ofKind? (kind : String) (v : Json) : Option Event := do
  let read (subject : String) (notice : Nat → Notice) : Option Event := do
    match ← v.fields? [subject, "timestamp"] with
    | [n, time] => some ⟨notice (← Json.required? Json.word? n), ← Json.required? time? time⟩
    | _ => none
  if kind = "StripeRecoverable" then read "stripe" .recoverable
  else if kind = "StripeFailed" then read "stripe" .unrecoverable
  else if kind = "ChunkNeedsRepair" then read "position" .repair
  else none

def ofJson? (v : Json) : Option Event :=
  if !Json.isKeepable 127 v then none
  else
    match v with
    | .obj fields =>
      match fields.filter (·.1 == "type") with
      | [(_, .str kind)] => ofKind? kind (.obj (fields.filter (·.1 != "type")))
      | _ => none
    | .arr (.str kind :: rest) => ofKind? kind (.arr rest)
    | _ => none

end Event
end StripeRecovery
