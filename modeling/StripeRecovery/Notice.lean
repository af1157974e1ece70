/-!
What a session reports to its callback.
-/
namespace StripeRecovery

inductive Notice where
  | recoverable (stripe : Nat)
  | unrecoverable (stripe : Nat)
  | repair (position : Nat)
deriving DecidableEq, Repr

namespace Notice

def kind : Notice → String
  | recoverable _ => "StripeRecoverable"
  | unrecoverable _ => "StripeFailed"
  | repair _ => "ChunkNeedsRepair"

def subject : Notice → Nat
  | recoverable stripe | unrecoverable stripe => stripe
  | repair position => position

def stripe? : Notice → Option Nat
  | recoverable stripe | unrecoverable stripe => some stripe
  | repair _ => none

def isTerminal : Notice → Bool
  | repair _ => false
  | _ => true

end Notice
end StripeRecovery
