/-!
JSON texts: a value type, a reader and a compact writer. Whole numbers without a sign are
kept exactly; every other number is kept as it is written, since nothing here computes
with one. Fields of an object stay in order, repeated names included. A string whose
escapes name half of a surrogate pair has no text: constructor `halfPair`.
-/
namespace StripeRecovery

inductive Json where
  | null
  | bool (value : Bool)
  | nat (value : Nat)
  | decimal (written : List Char)
  | str (text : String)
  | halfPair
  | arr (items : List Json)
  | obj (fields : List (String × Json))
deriving Repr

namespace Json

def isBlank (c : Char) : Bool := c = ' ' || c = '\t' || c = '\n' || c = '\r'

def skipBlanks : List Char → List Char
  | [] => []
  | c :: rest => if isBlank c then skipBlanks rest else c :: rest

def hexValue? (c : Char) : Option Nat :=
  if '0' ≤ c ∧ c ≤ '9' then some (c.toNat - 48)
  else if 'a' ≤ c ∧ c ≤ 'f' then some (c.toNat - 87)
  else if 'A' ≤ c ∧ c ≤ 'F' then some (c.toNat - 55)
  else none

def readUnit : List Char → Option (Nat × List Char)
  | a :: b :: c :: d :: rest => do
    let a ← hexValue? a
    let b ← hexValue? b
    let c ← hexValue? c
    let d ← hexValue? d
    some (((a * 16 + b) * 16 + c) * 16 + d, rest)
  | _ => none

inductive Piece where
  | char (c : Char)
  | half
  | close
deriving DecidableEq, Repr

/-- What follows `\u`: a character, two units that make one, or half a pair. -/
def readEscapedUnit (cs : List Char) : Option (Piece × List Char) := do
  let (unit, rest) ← readUnit cs
  if 0xD800 ≤ unit ∧ unit < 0xDC00 then
    match rest with
    | '\\' :: 'u' :: more =>
      let (low, after) ← readUnit more
      if 0xDC00 ≤ low ∧ low < 0xE000 then
        some (.char (Char.ofNat (0x10000 + (unit - 0xD800) * 0x400 + (low - 0xDC00))), after)
      else some (.half, rest)
    | _ => some (.half, rest)
  else if 0xDC00 ≤ unit ∧ unit < 0xE000 then some (.half, rest)
  else some (.char (Char.ofNat unit), rest)

def readPiece : List Char → Option (Piece × List Char)
  | [] => none
  | '"' :: rest => some (.close, rest)
  | '\\' :: c :: rest =>
    match c with
    | '"' => some (.char '"', rest)
    | '\\' => some (.char '\\', rest)
    | '/' => some (.char '/', rest)
    | 'b' => some (.char '\x08', rest)
    | 'f' => some (.char '\x0c', rest)
    | 'n' => some (.char '\n', rest)
    | 'r' => some (.char '\r', rest)
    | 't' => some (.char '\t', rest)
    | 'u' => readEscapedUnit rest
    | _ => none
  | c :: rest => if c = '\\' || c.toNat < 0x20 then none else some (.char c, rest)

def readPieces : Nat → List Char → Option (List (Option Char) × List Char)
  | 0, _ => none
  | fuel + 1, cs =>
    match readPiece cs with
    | none => none
    | some (.close, rest) => some ([], rest)
    | some (.char c, rest) => (readPieces fuel rest).map fun r => (some c :: r.1, r.2)
    | some (.half, rest) => (readPieces fuel rest).map fun r => (none :: r.1, r.2)

def readText (fuel : Nat) (cs : List Char) : Option (Option String × List Char) :=
  (readPieces fuel cs).map fun r => ((r.1.mapM id).map String.ofList, r.2)

def readDigits (cs : List Char) : List Char × List Char :=
  (cs.takeWhile Char.isDigit, cs.dropWhile Char.isDigit)

def natOfDigits (digits : List Char) : Nat := digits.foldl (fun n c => n * 10 + (c.toNat - 48)) 0

def readFraction : List Char → Option (List Char × List Char)
  | '.' :: cs =>
    let (digits, rest) := readDigits cs
    if digits.isEmpty then none else some ('.' :: digits, rest)
  | cs => some ([], cs)

def readExponent : List Char → Option (List Char × List Char)
  | [] => some ([], [])
  | e :: cs =>
    if e = 'e' || e = 'E' then
      let (sign, cs) :=
        match cs with
        | '+' :: rest => (['+'], rest)
        | '-' :: rest => (['-'], rest)
        | _ => ([], cs)
      let (digits, rest) := readDigits cs
      if digits.isEmpty then none else some (e :: sign ++ digits, rest)
    else some ([], e :: cs)

def readNumber (cs : List Char) : Option (Json × List Char) := do
  let (sign, cs) :=
    match cs with
    | '-' :: rest => (['-'], rest)
    | _ => ([], cs)
  let (digits, cs) := readDigits cs
  if digits.isEmpty || (digits.head? = some '0' && 1 < digits.length) then none
  else
    let (fraction, cs) ← readFraction cs
    let (exponent, cs) ← readExponent cs
    if sign.isEmpty && fraction.isEmpty && exponent.isEmpty then some (.nat (natOfDigits digits), cs)
    else some (.decimal (sign ++ digits ++ fraction ++ exponent), cs)

mutual

/-- One value and the text behind it; a fuel of the text's length is enough. -/
def readValue : Nat → List Char → Option (Json × List Char)
  | 0, _ => none
  | fuel + 1, cs =>
    match skipBlanks cs with
    | 'n' :: 'u' :: 'l' :: 'l' :: rest => some (.null, rest)
    | 't' :: 'r' :: 'u' :: 'e' :: rest => some (.bool true, rest)
    | 'f' :: 'a' :: 'l' :: 's' :: 'e' :: rest => some (.bool false, rest)
    | '"' :: rest =>
      (readText fuel rest).map fun r => ((r.1.map Json.str).getD .halfPair, r.2)
    | '[' :: rest =>
      match skipBlanks rest with
      | ']' :: rest => some (.arr [], rest)
      | rest => (readItems fuel rest).map fun r => (.arr r.1, r.2)
    | '\x7b' :: rest =>
      match skipBlanks rest with
      | '\x7d' :: rest => some (.obj [], rest)
      | rest => (readFields fuel rest).map fun r => (.obj r.1, r.2)
    | rest => readNumber rest

def readItems : Nat → List Char → Option (List Json × List Char)
  | 0, _ => none
  | fuel + 1, cs =>
    match readValue fuel cs with
    | none => none
    | some (v, rest) =>
      match skipBlanks rest with
      | ']' :: rest => some ([v], rest)
      | ',' :: rest => (readItems fuel rest).map fun r => (v :: r.1, r.2)
      | _ => none

def readFields : Nat → List Char → Option (List (String × Json) × List Char)
  | 0, _ => none
  | fuel + 1, cs =>
    match skipBlanks cs with
    | '"' :: rest =>
      match readText fuel rest with
      | some (some name, rest) =>
        match skipBlanks rest with
        | ':' :: rest =>
          match readValue fuel rest with
          | none => none
          | some (v, rest) =>
            match skipBlanks rest with
            | '\x7d' :: rest => some ([(name, v)], rest)
            | ',' :: rest => (readFields fuel rest).map fun r => ((name, v) :: r.1, r.2)
            | _ => none
        | _ => none
      | _ => none
    | _ => none

end

def parse? (text : String) : Option Json :=
  let cs := text.toList
  match readValue (cs.length + 1) cs with
  | some (v, rest) => if (skipBlanks rest).isEmpty then some v else none
  | none => none

def hexDigit (n : Nat) : Char := Nat.digitChar (n % 16)

def writeChar (c : Char) (rest : List Char) : List Char :=
  if c = '"' then '\\' :: '"' :: rest
  else if c = '\\' then '\\' :: '\\' :: rest
  else if c = '\n' then '\\' :: 'n' :: rest
  else if c = '\r' then '\\' :: 'r' :: rest
  else if c = '\t' then '\\' :: 't' :: rest
  else if c = '\x08' then '\\' :: 'b' :: rest
  else if c = '\x0c' then '\\' :: 'f' :: rest
  else if c.toNat < 0x20 then
    '\\' :: 'u' :: '0' :: '0' :: hexDigit (c.toNat / 16) :: hexDigit c.toNat :: rest
  else c :: rest

def writeText (text : String) (rest : List Char) : List Char :=
  '"' :: text.toList.foldr writeChar ('"' :: rest)

mutual

def write : Json → List Char → List Char
  | .null, rest => 'n' :: 'u' :: 'l' :: 'l' :: rest
  | .bool true, rest => 't' :: 'r' :: 'u' :: 'e' :: rest
  | .bool false, rest => 'f' :: 'a' :: 'l' :: 's' :: 'e' :: rest
  | .nat n, rest => Nat.toDigits 10 n ++ rest
  | .decimal written, rest => written ++ rest
  | .str text, rest => writeText text rest
  | .halfPair, rest => '"' :: '"' :: rest
  | .arr [], rest => '[' :: ']' :: rest
  | .arr (v :: vs), rest => '[' :: write v (writeItems vs rest)
  | .obj [], rest => '\x7b' :: '\x7d' :: rest
  | .obj (f :: fs), rest => '\x7b' :: writeField f (writeFields fs rest)

def writeItems : List Json → List Char → List Char
  | [], rest => ']' :: rest
  | v :: vs, rest => ',' :: write v (writeItems vs rest)

def writeField : String × Json → List Char → List Char
  | (name, v), rest => writeText name (':' :: write v rest)

def writeFields : List (String × Json) → List Char → List Char
  | [], rest => '\x7d' :: rest
  | f :: fs, rest => ',' :: writeField f (writeFields fs rest)

end

def print (v : Json) : String := String.ofList (write v [])

end Json
end StripeRecovery
