/-!
The accounts of the reads of one start: how many were to come, and what came of them. Reads
report on any thread, so each update of an account is atomic, and others may come between two.
-/
namespace StripeRecovery

structure Tally where
  expected : Nat
  responses : Nat
  errors : Nat
  quickFails : Nat
  outstanding : Nat
deriving DecidableEq, Repr

namespace Tally

def make (expected : Nat) : Tally := ⟨expected, 0, 0, 0, expected⟩

def quickFail (t : Tally) : Tally := { t with quickFails := t.quickFails + 1 }

def error (t : Tally) : Tally := { t with errors := t.errors + 1 }

/-- Counts an answer. Its read is taken off what is outstanding by a `settle` of its own. -/
def answer (t : Tally) : Tally := { t with responses := t.responses + 1 }

/-- Leaves out reads that will never be sent. They are taken off likewise. -/
def waive (t : Tally) (count : Nat) : Tally := { t with expected := t.expected - count }

def settle (t : Tally) (count : Nat) : Tally := { t with outstanding := t.outstanding - count }

def isDrained (t : Tally) : Bool := t.outstanding == 0

end Tally
end StripeRecovery
