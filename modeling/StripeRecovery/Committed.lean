import StripeRecovery.Error
import StripeRecovery.Text.Record

/-!
Lists of committed extents in normal form: sorted, without empty extents, without overlaps,
and with extents of one version merged where they touch. Extents of different versions must
not share a byte.
-/
namespace StripeRecovery

structure Committed where
  extents : List Extent
deriving DecidableEq, Repr

namespace Committed

def empty : Committed := ⟨[]⟩

def inOrder (a b : Extent) : Bool := a.first < b.first || a.first == b.first && a.past ≤ b.past

/-- Merges sorted extents into `last`, the one built so far. -/
def merge (last : Extent) : List Extent → Except ExtentFault (List Extent)
  | [] => .ok [last]
  | next :: rest =>
    if last.overlaps next then
      if last.version = next.version then merge { last with past := max last.past next.past } rest
      else .error (.conflict last next)
    else if last.past = next.first ∧ last.version = next.version then
      merge { last with past := next.past } rest
    else (merge next rest).map (last :: ·)

def mergeAll : List Extent → Except ExtentFault (List Extent)
  | [] => .ok []
  | first :: rest => merge first rest

def normalize (raw : List Extent) : Except Error Committed :=
  match raw.find? (fun e => e.past < e.first) with
  | some e => .error (.extents (.reversed e.first e.past))
  | none =>
    match mergeAll ((raw.filter (!·.isEmpty)).mergeSort inOrder) with
    | .ok merged => .ok ⟨merged⟩
    | .error fault => .error (.extents fault)

def reaches (past cursor : Nat) : List Extent → Bool
  | [] => past ≤ cursor
  | e :: rest =>
    if cursor < e.first then past ≤ cursor
    else if past ≤ max cursor e.past then true
    else reaches past (max cursor e.past) rest

def covers (c : Committed) (first past : Nat) : Bool := reaches past first c.extents

end Committed

namespace Extent

def fieldNames : List String := ["start", "end", "version"]

def toJson (e : Extent) : Json :=
  .obj (fieldNames.zip [.nat e.first, .nat e.past, .nat e.version])

def ofJson? (v : Json) : Option Extent := do
  match ← v.fields? fieldNames with
  | [first, past, version] =>
    some ⟨← Json.required? Json.word? first, ← Json.required? Json.word? past,
      ← Json.required? Json.word? version⟩
  | _ => none

end Extent

namespace Committed

def toJson (c : Committed) : Json := .arr (c.extents.map Extent.toJson)

def ofJson? : Json → Option Committed
  | .arr items => do
    match normalize (← items.mapM Extent.ofJson?) with
    | .ok c => some c
    | .error _ => none
  | _ => none

end Committed
end StripeRecovery
