import StripeRecovery.Text.Json

/-!
Byte strings as text: two hexadecimal digits a byte, a 64-bit digest, and byte patterns that
are given by a formula.
-/
namespace StripeRecovery.Bytes

def hexByte (b : UInt8) : List Char :=
  [Json.hexDigit (b.toNat / 16), Json.hexDigit b.toNat]

def hex (bytes : List UInt8) : String := String.ofList (bytes.flatMap hexByte)

def ofHexDigits? : List Char → Option (List UInt8)
  | [] => some []
  | [_] => none
  | a :: b :: rest => do
    let a ← Json.hexValue? a
    let b ← Json.hexValue? b
    let bytes ← ofHexDigits? rest
    some (UInt8.ofNat (a * 16 + b) :: bytes)

def ofHex? (text : String) : Option (List UInt8) := ofHexDigits? text.toList

/-- The FNV-1a digest: exclusive or with every byte, then multiplication by a fixed prime. -/
def digest (bytes : List UInt8) : UInt64 :=
  bytes.foldl (fun h b => (h ^^^ b.toUInt64) * 0x100000001b3) 0xcbf29ce484222325

def hexNat : Nat → Nat → List Char
  | 0, _ => []
  | digits + 1, n => hexNat digits (n / 16) ++ [Json.hexDigit n]

def digestText (bytes : List UInt8) : String :=
  String.ofList (hexNat 16 (digest bytes).toNat)

def pattern (length slope start modulus : Nat) : List UInt8 :=
  (List.range length).map fun j => UInt8.ofNat ((slope * j + start) % modulus)

def fit (bytes : List UInt8) (size : Nat) : List UInt8 :=
  bytes.take size ++ List.replicate (size - bytes.length) 0

end StripeRecovery.Bytes
