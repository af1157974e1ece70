/-!
Lengths of time and their short text: the largest of the units s, ms, µs and ns that
has a non-zero whole part, then the fraction of that unit without trailing zeros.
-/
namespace StripeRecovery

structure Duration where
  seconds : Nat
  nanos : Nat
deriving DecidableEq, Repr

namespace Duration

def make (seconds nanos : Nat) : Duration :=
  ⟨seconds + nanos / 1000000000, nanos % 1000000000⟩

def ofMillis (ms : Nat) : Duration := ⟨ms / 1000, ms % 1000 * 1000000⟩

/-- `value` in `digits` decimal places, without the zeros at its end. -/
def fractionDigits : Nat → Nat → List Char
  | 0, _ => []
  | digits + 1, value =>
    if value = 0 then []
    else
      let scale := 10 ^ digits
      (Nat.digitChar (value / scale % 10)) :: fractionDigits digits (value % scale)

def inUnit (whole fraction digits : Nat) (unit : String) : String :=
  let shown := fractionDigits digits fraction
  toString whole ++ (if shown.isEmpty then "" else "." ++ String.ofList shown) ++ unit

def text (d : Duration) : String :=
  if 0 < d.seconds then inUnit d.seconds d.nanos 9 "s"
  else if 1000000 ≤ d.nanos then inUnit (d.nanos / 1000000) (d.nanos % 1000000) 6 "ms"
  else if 1000 ≤ d.nanos then inUnit (d.nanos / 1000) (d.nanos % 1000) 3 "µs"
  else inUnit d.nanos 0 0 "ns"

end Duration
end StripeRecovery
