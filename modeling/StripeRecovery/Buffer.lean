import StripeRecovery.Text.Json

/-!
Byte buffers and their storage. A buffer shows `bytes`; behind them the storage may still
hold `stale` bytes of earlier use, and has room for `capacity` bytes in all. A pooled buffer
is counted by a pool and gives its storage back when it is released.
-/
namespace StripeRecovery

structure Buffer where
  bytes : List UInt8
  stale : List UInt8
  capacity : Nat
  pooled : Bool
deriving DecidableEq, Repr

namespace Buffer

/-- A buffer that no pool counts; its storage has room for at least its bytes. -/
def unpooled (bytes : List UInt8) (capacity : Nat) : Buffer :=
  ⟨bytes, [], max capacity bytes.length, false⟩

def length (b : Buffer) : Nat := b.bytes.length

/-- Shortens the buffer; what it no longer shows stays in the storage. -/
def shorten (b : Buffer) (length : Nat) : Buffer :=
  if length < b.length then
    { b with bytes := b.bytes.take length, stale := b.bytes.drop length ++ b.stale }
  else b

def fill (b : Buffer) (byte : UInt8) : Buffer :=
  { b with bytes := List.replicate b.length byte }

def growInPlace (b : Buffer) (size : Nat) : Buffer :=
  { b with
    bytes := b.bytes ++ List.replicate (size - b.length) 0
    stale := b.stale.drop (size - b.length) }

def withBytes (b : Buffer) (bytes : List UInt8) : Buffer :=
  { b with bytes := bytes, capacity := max b.capacity bytes.length }

end Buffer
end StripeRecovery
