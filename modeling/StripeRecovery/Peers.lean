import StripeRecovery.Text.Record

/-!
The storage nodes of a replica: for every position of a stripe an address, where one is known.
-/
namespace StripeRecovery

structure Peers where
  addresses : List (Option String)
deriving DecidableEq, Repr

namespace Peers

def ofAddresses (addresses : List String) : Peers := ⟨addresses.map some⟩

def size (p : Peers) : Nat := p.addresses.length

def get? (p : Peers) (position : Nat) : Option String := (p.addresses[position]?).bind id

def toJson (p : Peers) : Json := .arr (p.addresses.map fun a => (a.map Json.str).getD .null)

def ofJson? : Json → Option Peers
  | .arr items => (items.mapM (Json.orNull? Json.text?)).map Peers.mk
  | _ => none

end Peers
end StripeRecovery
