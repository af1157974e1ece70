import StripeRecovery.Text.Json
import StripeRecovery.Text.Yaml.Cursor

/-!
The four written forms of scalars: plain, quoted once or twice, and blocks. Line breaks
inside a scalar are folded: a single one becomes a space, of more the first is dropped.
Blocks keep their breaks if they are literal, and fold between unindented lines otherwise.
-/
namespace StripeRecovery.Yaml

inductive Style where
  | plain
  | quoted
  | literal
  | folded
deriving DecidableEq, Repr

/-- White space met inside a scalar, which counts only if more text follows: blanks, or a
    first line break and those after it. -/
structure Gap where
  blanks : List Char
  first : Option (List Char)
  more : List Char
  broken : Bool
deriving DecidableEq, Repr

namespace Gap

def none : Gap := ⟨[], .none, [], false⟩

def folded (g : Gap) : List Char :=
  if g.broken then
    match g.first with
    | some first =>
      if first.head? = some '\n' then (if g.more.isEmpty then [' '] else g.more)
      else first ++ g.more
    | .none => g.more
  else g.blanks

/-- Reads the gap that is here. A tab may not stand in the indentation of a plain scalar. -/
def read (tabsFrom : Option Nat) : Nat → Gap → Cursor → Option (Gap × Cursor)
  | 0, _, _ => .none
  | fuel + 1, g, c =>
    match c.rest with
    | [] => some (g, c)
    | ch :: _ =>
      if isBlank ch then
        let abused :=
          match tabsFrom with
          | some indent => g.broken && c.column < indent && ch == '\t'
          | .none => false
        if abused then .none
        else if g.broken then read tabsFrom fuel g (c.skip 1)
        else read tabsFrom fuel { g with blanks := g.blanks ++ [ch] } (c.skip 1)
      else if isBreak ch then
        if g.broken then
          read tabsFrom fuel { g with more := g.more ++ c.breakText } c.skipBreak
        else
          read tabsFrom fuel { g with blanks := [], first := some c.breakText, broken := true }
            c.skipBreak
      else some (g, c)

end Gap

def isFlowMark (ch : Char) : Bool :=
  ch = ',' || ch = '[' || ch = ']' || ch = '\x7b' || ch = '\x7d'

def endsPlain (inFlow : Bool) (c : Cursor) : Bool :=
  c.seesGap 0 || (c.seesChar ':' && c.seesGap 1) || (inFlow && c.sees 0 isFlowMark)

def strayColon (inFlow : Bool) (c : Cursor) : Bool :=
  inFlow && c.seesChar ':' && c.sees 1 fun ch => isFlowMark ch || ch = '?'

def plainPiece (inFlow : Bool) : Nat → List Char → Cursor → Option (List Char × Cursor)
  | 0, _, _ => none
  | fuel + 1, text, c =>
    if strayColon inFlow c then none
    else if endsPlain inFlow c then some (text, c)
    else
      match c.rest with
      | ch :: _ => plainPiece inFlow fuel (ch :: text) (c.skip 1)
      | [] => some (text, c)

def plainScalar (inFlow : Bool) (indent : Nat) : Nat → List Char → Gap → Cursor →
    Option (List Char × Bool × Cursor)
  | 0, _, _, _ => none
  | fuel + 1, text, gap, c =>
    if c.seesDocumentEdge || c.seesChar '#' then some (text, gap.broken, c)
    else do
      let (piece, after) ← plainPiece inFlow (c.rest.length + 1) [] c
      let (text, gap) :=
        if piece.isEmpty then (text, gap) else (text ++ gap.folded ++ piece.reverse, Gap.none)
      if after.sees 0 fun ch => isBlank ch || isBreak ch then
        let (gap, after) ← Gap.read (some indent) (after.rest.length + 1) gap after
        if !inFlow && after.column < indent then some (text, gap.broken, after)
        else plainScalar inFlow indent fuel text gap after
      else some (text, gap.broken, after)

def namedChar (digits : Nat) (c : Cursor) : Option (List Char × Cursor) := do
  let word := c.rest.take digits
  if word.length < digits then none
  else
    let values ← word.mapM Json.hexValue?
    let n := values.foldl (fun n v => n * 16 + v) 0
    if (0xd800 ≤ n && n ≤ 0xdfff) || 0x10ffff < n then none
    else some ([Char.ofNat n], c.skip digits)

def escaped (c : Cursor) : Option (List Char × Cursor) :=
  match c.rest with
  | [] => none
  | ch :: _ =>
    let next := c.skip 1
    match ch with
    | '0' => some (['\x00'], next)
    | 'a' => some (['\x07'], next)
    | 'b' => some (['\x08'], next)
    | 't' => some (['\t'], next)
    | '\t' => some (['\t'], next)
    | 'n' => some (['\n'], next)
    | 'v' => some (['\x0b'], next)
    | 'f' => some (['\x0c'], next)
    | 'r' => some (['\r'], next)
    | 'e' => some (['\x1b'], next)
    | ' ' => some ([' '], next)
    | '"' => some (['"'], next)
    | '/' => some (['/'], next)
    | '\\' => some (['\\'], next)
    | 'N' => some ([Char.ofNat 0x85], next)
    | '_' => some ([Char.ofNat 0xa0], next)
    | 'L' => some ([Char.ofNat 0x2028], next)
    | 'P' => some ([Char.ofNat 0x2029], next)
    | 'x' => namedChar 2 next
    | 'u' => namedChar 4 next
    | 'U' => namedChar 8 next
    | _ => none

def quotedPiece (quote : Char) : Nat → List Char → Cursor → Option (List Char × Bool × Cursor)
  | 0, _, _ => none
  | fuel + 1, text, c =>
    if c.seesGap 0 then some (text, false, c)
    else
      match c.rest with
      | [] => some (text, false, c)
      | ch :: rest =>
        if ch = quote then
          if quote = '\'' && rest.head? = some '\'' then
            quotedPiece quote fuel ('\'' :: text) (c.skip 2)
          else some (text, false, c)
        else if quote = '"' && ch = '\\' then
          if c.sees 1 isBreak then some (text, true, (c.skip 1).skipBreak)
          else do
            let (chars, after) ← escaped (c.skip 1)
            quotedPiece quote fuel (chars.reverse ++ text) after
        else quotedPiece quote fuel (ch :: text) (c.skip 1)

def quotedScalar (quote : Char) : Nat → List Char → Cursor → Option (List Char × Cursor)
  | 0, _, _ => none
  | fuel + 1, text, c =>
    if c.seesDocumentEdge || c.atEnd then none
    else do
      let (piece, escapedBreak, after) ← quotedPiece quote (c.rest.length + 1) [] c
      let text := text ++ piece.reverse
      if after.seesChar quote then some (text, after.skip 1)
      else
        let start : Gap := { Gap.none with broken := escapedBreak }
        let (gap, after) ← Gap.read none (after.rest.length + 1) start after
        quotedScalar quote fuel (text ++ gap.folded) after

inductive Chomp where
  | strip
  | clip
  | keep
deriving DecidableEq, Repr

def blockMarks (c : Cursor) : Option (Option Nat × Chomp × Cursor) :=
  let chomp? (c : Cursor) : Option (Chomp × Cursor) :=
    if c.seesChar '+' then some (.keep, c.skip 1)
    else if c.seesChar '-' then some (.strip, c.skip 1)
    else none
  let digit? (c : Cursor) : Option (Nat × Cursor) :=
    match c.rest with
    | ch :: _ => if ch.isDigit then some (ch.toNat - 48, c.skip 1) else none
    | [] => none
  match chomp? c with
  | some (chomp, c) =>
    match digit? c with
    | some (0, _) => none
    | some (n, c) => some (some n, chomp, c)
    | none => some (none, chomp, c)
  | none =>
    match digit? c with
    | some (0, _) => none
    | some (n, c) =>
      match chomp? c with
      | some (chomp, c) => some (some n, chomp, c)
      | none => some (some n, .clip, c)
    | none => some (none, .clip, c)

/-- The empty lines that are here: their breaks, the deepest indentation seen, and the place of
    the first line with text. An indentation of 0 is not known yet. -/
def emptyLines (indent : Nat) : Nat → Nat → List Char → Cursor → Option (Nat × List Char × Cursor)
  | 0, _, _, _ => none
  | fuel + 1, deepest, breaks, c =>
    let spaces := (c.rest.takeWhile (· == ' ')).length
    let c := c.skip (if indent = 0 then spaces else min spaces (indent - c.column))
    let deepest := max deepest c.column
    if (indent = 0 || c.column < indent) && c.seesChar '\t' then none
    else if c.sees 0 isBreak then
      emptyLines indent fuel deepest (breaks ++ c.breakText) c.skipBreak
    else some (deepest, breaks, c)

/-- The lines of a block from here on. `ending` is the break of the line before, `breaks` those
    of the empty lines after it, `wasBlank` tells whether that line began with a blank. -/
def blockLines (literal : Bool) (indent : Nat) : Nat → List Char → List Char → List Char → Bool →
    Cursor → Option (List Char × List Char × List Char × Cursor)
  | 0, _, _, _, _, _ => none
  | fuel + 1, text, ending, breaks, wasBlank, c =>
    if c.column == indent && !c.atEnd then do
      let isBlankLine := c.sees 0 isBlank
      let joined :=
        if !literal && ending.head? = some '\n' && !wasBlank && !isBlankLine then
          (if breaks.isEmpty then [' '] else []) ++ breaks
        else ending ++ breaks
      let (line, after) := c.take fun ch => !isBreak ch
      let (ending, after) :=
        if after.atEnd then ([], after) else (after.breakText, after.skipBreak)
      let (_, breaks, after) ← emptyLines indent (after.rest.length + 1) 0 [] after
      blockLines literal indent fuel (text ++ joined ++ line) ending breaks isBlankLine after
    else some (text, ending, breaks, c)

def blockScalar (literal : Bool) (outer : Int) (c : Cursor) : Option (List Char × Cursor) := do
  let (given, chomp, c) ← blockMarks c
  let c := c.skipWhile isBlank
  let c := if c.seesChar '#' then c.skipWhile (fun ch => !isBreak ch) else c
  if !c.seesEndOfLine 0 then none
  else
    let c := if c.atEnd then c else c.skipBreak
    let start :=
      match given with
      | some n => if 0 ≤ outer then outer.toNat + n else n
      | none => 0
    let (deepest, breaks, c) ← emptyLines start (c.rest.length + 1) 0 [] c
    let indent := if start = 0 then max deepest (max (outer + 1).toNat 1) else start
    let (text, ending, breaks, c) ←
      blockLines literal indent (c.rest.length + 1) [] [] breaks false c
    let text := if chomp = .strip then text else text ++ ending
    some (if chomp = .keep then text ++ breaks else text, c)

end StripeRecovery.Yaml
