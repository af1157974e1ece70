import StripeRecovery.Settings
import StripeRecovery.Text.Yaml.Node

/-!
Settings in YAML. A mapping gives the fields it names, and a place where nothing is written
stands for a mapping without fields; fields that are not known are skipped, and a known one
may stand once.
-/
namespace StripeRecovery.Yaml

def isNullWord (s : String) : Bool := s = "null" || s = "Null" || s = "NULL" || s = "~"

def isReadable (style : Style) (tag : Option String) (kind : String) : Bool :=
  style == .plain || (style == .literal && tag == some ("tag:yaml.org,2002:" ++ kind))

def digitsIn? (base : Nat) (cs : List Char) : Option Nat :=
  if cs.isEmpty then none
  else do
    let digits ← cs.mapM Json.hexValue?
    if digits.all (· < base) then
      let n := digits.foldl (fun n d => n * base + d) 0
      if n < UInt64.size then some n else none
    else none

def basedNumber? : List Char → Option Nat
  | '0' :: 'x' :: cs => digitsIn? 16 cs
  | '0' :: 'o' :: cs => digitsIn? 8 cs
  | '0' :: 'b' :: cs => digitsIn? 2 cs
  | _ => none

/-- A whole number that a 64-bit word holds. It may have a plus sign; with a zero in front of
    more digits it is a text. -/
def wordOf? (text : String) : Option Nat :=
  let cs :=
    match text.toList with
    | '+' :: cs => cs
    | cs => cs
  match basedNumber? cs with
  | some n => some n
  | none =>
    if 1 < cs.length && cs.head? = some '0' then none
    else if cs.all Char.isDigit then digitsIn? 10 cs
    else none

namespace Document

def word? (d : Document) (n : Node) : Option Nat := do
  match ← d.resolve n with
  | .scalar text style tag => if isReadable style tag "int" then wordOf? text else none
  | _ => none

def bool? (d : Document) (n : Node) : Option Bool := do
  match ← d.resolve n with
  | .scalar text style tag =>
    if !isReadable style tag "bool" then none
    else if ["true", "True", "TRUE"].contains text then some true
    else if ["false", "False", "FALSE"].contains text then some false
    else none
  | _ => none

def text? (d : Document) (n : Node) : Option String := do
  match ← d.resolve n with
  | .scalar text _ _ => some text
  | _ => none

def orNull? {α : Type} (d : Document) (read : Node → Option α) (n : Node) : Option (Option α) := do
  match ← d.resolve n with
  | .scalar text .plain none =>
    if text.isEmpty || isNullWord text then some none else (read n).map some
  | .scalar text .plain (some tag) =>
    if tag = "tag:yaml.org,2002:null" then (if isNullWord text then some none else none)
    else (read n).map some
  | _ => (read n).map some

def fields? (d : Document) (names : List String) (n : Node) : Option (List (Option Node)) := do
  let entries ←
    match ← d.resolve n with
    | .map entries => entries.mapM fun e => (d.text? e.1).map fun name => (name, e.2)
    | .scalar text .plain _ => if text.isEmpty then some [] else none
    | _ => none
  names.mapM fun name =>
    match entries.filter (·.1 == name) with
    | [] => some none
    | [e] => some (some e.2)
    | _ => none

def field? {α : Type} (read : Node → Option α) (absent : α) : Option Node → Option α
  | none => some absent
  | some n => read n

def logSettings? (d : Document) (n : Node) : Option LogSettings := do
  match ← d.fields? LogSettings.fieldNames n with
  | [level, json] =>
    some ⟨← field? d.text? LogSettings.standard.level level,
      ← field? d.bool? LogSettings.standard.json json⟩
  | _ => none

def poolSettings? (d : Document) (n : Node) : Option PoolSettings := do
  match ← d.fields? PoolSettings.fieldNames n with
  | [smallest, largest, shelfRoom] =>
    some ⟨← field? d.word? PoolSettings.standard.smallest smallest,
      ← field? d.word? PoolSettings.standard.largest largest,
      ← field? d.word? PoolSettings.standard.shelfRoom shelfRoom⟩
  | _ => none

def settings? (d : Document) : Option Settings := do
  match ← d.fields? Settings.fieldNames d.root with
  | [readTimeout, pool, log] =>
    some ⟨← field? (d.orNull? d.word?) Settings.standard.readTimeout readTimeout,
      ← field? d.poolSettings? Settings.standard.pool pool,
      ← field? d.logSettings? Settings.standard.log log⟩
  | _ => none

end Document
end StripeRecovery.Yaml

namespace StripeRecovery.Settings

def ofYaml (text : String) : Except Error Settings := do
  let settings ←
    match Yaml.Document.ofText? text with
    | none => .error (.settings .unreadable)
    | some none => .ok standard
    | some (some d) =>
      match d.settings? with
      | some settings => .ok settings
      | none => .error (.settings .unreadable)
  settings.check
  .ok settings

end StripeRecovery.Settings
