/-!
A place in a YAML text, and the character classes that the format tells apart there.
-/
namespace StripeRecovery.Yaml

structure Cursor where
  rest : List Char
  index : Nat
  line : Nat
  column : Nat
deriving DecidableEq, Repr

def isBlank (c : Char) : Bool := c = ' ' || c = '\t'

def isBreak (c : Char) : Bool :=
  c = '\n' || c = '\r' || c.toNat = 0x85 || c.toNat = 0x2028 || c.toNat = 0x2029

def isWord (c : Char) : Bool := c.isAlphanum || c = '_' || c = '-'

def isAllowed (c : Char) : Bool :=
  let n := c.toNat
  n == 9 || n == 10 || n == 13 || (0x20 ≤ n && n ≤ 0x7e) || n == 0x85 ||
    (0xa0 ≤ n && n ≤ 0xd7ff) || (0xe000 ≤ n && n ≤ 0xfffd && n != 0xfeff) ||
    (0x10000 ≤ n && n ≤ 0x10ffff)

namespace Cursor

def ofText (cs : List Char) : Cursor := ⟨cs, 0, 0, 0⟩

def atEnd (c : Cursor) : Bool := c.rest.isEmpty

def sees (c : Cursor) (n : Nat) (p : Char → Bool) : Bool :=
  match c.rest[n]? with
  | some ch => p ch
  | none => false

def seesChar (c : Cursor) (ch : Char) : Bool := c.sees 0 (· == ch)

def seesEndOfLine (c : Cursor) (n : Nat) : Bool :=
  match c.rest[n]? with
  | some ch => isBreak ch
  | none => true

def seesGap (c : Cursor) (n : Nat) : Bool :=
  match c.rest[n]? with
  | some ch => isBlank ch || isBreak ch
  | none => true

def skip (c : Cursor) (n : Nat) : Cursor :=
  { c with rest := c.rest.drop n, index := c.index + n, column := c.column + n }

def skipWhile (c : Cursor) (p : Char → Bool) : Cursor := c.skip (c.rest.takeWhile p).length

def take (c : Cursor) (p : Char → Bool) : List Char × Cursor :=
  let word := c.rest.takeWhile p
  (word, c.skip word.length)

def skipBreak (c : Cursor) : Cursor :=
  match c.rest with
  | '\r' :: '\n' :: rest => ⟨rest, c.index + 2, c.line + 1, 0⟩
  | _ :: rest => ⟨rest, c.index + 1, c.line + 1, 0⟩
  | [] => c

/-- What the line break that is here stands for in a scalar: the usual ones are all alike. -/
def breakText (c : Cursor) : List Char :=
  match c.rest with
  | [] => []
  | ch :: _ => if ch.toNat = 0x2028 || ch.toNat = 0x2029 then [ch] else ['\n']

def seesMarker (c : Cursor) (ch : Char) : Bool :=
  c.column == 0 && c.rest.take 3 == [ch, ch, ch] && c.seesGap 3

def seesDocumentEdge (c : Cursor) : Bool := c.seesMarker '-' || c.seesMarker '.'

end Cursor
end StripeRecovery.Yaml
