/-!
Extents: half-open byte ranges `[first, past)` that carry the version of the write that
committed them. Only the extents themselves; their lists are in `StripeRecovery.Committed`.
-/
namespace StripeRecovery

structure Extent where
  first : Nat
  past : Nat
  version : Nat
deriving DecidableEq, Repr

namespace Extent

def length (e : Extent) : Nat := e.past - e.first

def isEmpty (e : Extent) : Bool := e.length == 0

def overlaps (a b : Extent) : Bool := a.first < b.past && b.first < a.past

def Contains (e : Extent) (b : Nat) : Prop := e.first ≤ b ∧ b < e.past

instance (e : Extent) (b : Nat) : Decidable (e.Contains b) :=
  inferInstanceAs (Decidable (_ ∧ _))

end Extent
end StripeRecovery
