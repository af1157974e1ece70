/-!
The field with 256 elements: bytes as polynomials over two elements, reduced by
x^8 + x^4 + x^3 + x^2 + 1. Addition is exclusive or, so every element is its own
negative. Multiplication adds up shifted copies, one for each bit of the second
factor; nothing is looked up in a table.
-/
namespace StripeRecovery

structure GF256 where
  byte : UInt8
deriving DecidableEq, Repr

namespace GF256

def zero : GF256 := ⟨0⟩

def one : GF256 := ⟨1⟩

def add (a b : GF256) : GF256 := ⟨a.byte ^^^ b.byte⟩

/-- Multiplication by the polynomial x: a bit that leaves on the left comes back as `0x1D`. -/
def timesX (a : UInt8) : UInt8 :=
  if a &&& 0x80 = 0 then a <<< 1 else (a <<< 1) ^^^ 0x1D

/-- The sum of `a`, `a * x`, `a * x^2`, … over the lowest `n` bits of `b` that are set. -/
def mulBits : Nat → UInt8 → UInt8 → UInt8
  | 0, _, _ => 0
  | n + 1, a, b => (if b &&& 1 = 1 then a else 0) ^^^ mulBits n (timesX a) (b >>> 1)

def mul (a b : GF256) : GF256 := ⟨mulBits 8 a.byte b.byte⟩

instance : Zero GF256 := ⟨zero⟩
instance : One GF256 := ⟨one⟩
instance : Add GF256 := ⟨add⟩
instance : Mul GF256 := ⟨mul⟩

def squarings : Nat → GF256 → GF256
  | 0, _ => 1
  | n + 1, a => (a * a) * squarings n (a * a)

/-- The inverse of a non-zero element is its power 254 = 2 + 4 + … + 128; zero goes to zero. -/
def inv (a : GF256) : GF256 := squarings 7 a

def div (a b : GF256) : GF256 := a * b.inv

instance : Inv GF256 := ⟨inv⟩
instance : Div GF256 := ⟨div⟩

def point (i : Nat) : GF256 := ⟨UInt8.ofNat i⟩

end GF256
end StripeRecovery
