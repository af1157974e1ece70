import StripeRecovery.Text.Yaml.Scalar

/-!
The tokens of a YAML text. Indentation is told by tokens that open and close blocks. A key
without a mark of its own is known as a key only by the colon behind it, so its tokens go in
later, at the place where it began.
-/
namespace StripeRecovery.Yaml

inductive Token where
  | version (major minor : Nat)
  | tagHandle (handle stem : String)
  | otherDirective
  | documentStart
  | documentEnd
  | blockSequence
  | blockMapping
  | blockEnd
  | flowSequence
  | flowSequenceEnd
  | flowMapping
  | flowMappingEnd
  | blockEntry
  | flowEntry
  | key
  | value
  | alias (name : String)
  | anchor (name : String)
  | tag (handle suffix : String)
  | scalar (text : String) (style : Style)
deriving DecidableEq, Repr

structure KeyStart where
  token : Nat
  index : Nat
  line : Nat
  column : Nat
  required : Bool
deriving DecidableEq, Repr

structure Scan where
  cursor : Cursor
  tokens : List Token
  /-- The indentation of the innermost block; -1 outside of all blocks. -/
  indent : Int
  outer : List Int
  keyAllowed : Bool
  keyStart : Option KeyStart
  /-- The same for everything around, the innermost first; its length is the flow depth. -/
  outerKeys : List (Option KeyStart)
deriving Repr

namespace Scan

def ofText (cs : List Char) : Scan := ⟨.ofText cs, [], -1, [], true, none, []⟩

def inFlow (s : Scan) : Bool := !s.outerKeys.isEmpty

def push (s : Scan) (t : Token) : Scan := { s with tokens := s.tokens ++ [t] }

def insert (s : Scan) (at_ : Nat) (t : Token) : Scan :=
  { s with tokens := s.tokens.take at_ ++ t :: s.tokens.drop at_ }

def unroll (column : Int) : List Int → Scan → Scan
  | outer :: rest, s =>
    if column < s.indent then
      unroll column rest { s.push .blockEnd with indent := outer, outer := rest }
    else s
  | [], s => s

def closeBlocks (s : Scan) (column : Int) : Scan :=
  if s.inFlow then s else unroll column s.outer s

def openBlock (s : Scan) (column : Nat) (at_ : Nat) (t : Token) : Scan :=
  if s.inFlow then s
  else if s.indent < column then
    { s.insert at_ t with indent := column, outer := s.indent :: s.outer }
  else s

def dropKey (s : Scan) : Option Scan :=
  match s.keyStart with
  | some k => if k.required then none else some { s with keyStart := none }
  | none => some s

def markKey (s : Scan) : Option Scan :=
  if s.keyAllowed then do
    let required := !s.inFlow && s.indent == (s.cursor.column : Int)
    let s ← s.dropKey
    let c := s.cursor
    some { s with keyStart := some ⟨s.tokens.length, c.index, c.line, c.column, required⟩ }
  else some s

def isStale (c : Cursor) (k : KeyStart) : Bool := k.line < c.line || k.index + 1024 < c.index

def dropStaleKeys (s : Scan) : Option Scan := do
  let check (k : Option KeyStart) : Option (Option KeyStart) :=
    match k with
    | some start =>
      if isStale s.cursor start then (if start.required then none else some none) else some k
    | none => some none
  let keyStart ← check s.keyStart
  let outerKeys ← s.outerKeys.mapM check
  some { s with keyStart := keyStart, outerKeys := outerKeys }

/-- Goes to the next token: over blanks, comments and line breaks. A tab may not stand where
    indentation counts. -/
def toNextToken : Nat → Scan → Scan
  | 0, s => s
  | fuel + 1, s =>
    let tabs := s.inFlow || !s.keyAllowed
    let c := s.cursor.skipWhile fun ch => ch = ' ' || (tabs && ch = '\t')
    let c := if c.seesChar '#' then c.skipWhile (fun ch => !isBreak ch) else c
    if c.sees 0 isBreak then
      toNextToken fuel
        { s with cursor := c.skipBreak, keyAllowed := s.keyAllowed || !s.inFlow }
    else { s with cursor := c }

def mark (s : Scan) (width : Nat) (t : Token) : Scan :=
  { s.push t with cursor := s.cursor.skip width }

def documentEdge (s : Scan) (t : Token) : Option Scan := do
  let s ← (s.closeBlocks (-1)).dropKey
  some ({ s with keyAllowed := false }.mark 3 t)

def flowStart (s : Scan) (t : Token) : Option Scan := do
  let s ← s.markKey
  some ({ s with outerKeys := s.keyStart :: s.outerKeys, keyStart := none,
                 keyAllowed := true }.mark 1 t)

def flowEnd (s : Scan) (t : Token) : Option Scan := do
  let s ← s.dropKey
  let s :=
    match s.outerKeys with
    | k :: rest => { s with keyStart := k, outerKeys := rest }
    | [] => s
  some ({ s with keyAllowed := false }.mark 1 t)

def flowEntry (s : Scan) : Option Scan := do
  let s ← s.dropKey
  some ({ s with keyAllowed := true }.mark 1 .flowEntry)

def blockEntry (s : Scan) : Option Scan := do
  if !s.inFlow && !s.keyAllowed then none
  else
    let s ← (s.openBlock s.cursor.column s.tokens.length .blockSequence).dropKey
    some ({ s with keyAllowed := true }.mark 1 .blockEntry)

def explicitKey (s : Scan) : Option Scan := do
  if !s.inFlow && !s.keyAllowed then none
  else
    let s ← (s.openBlock s.cursor.column s.tokens.length .blockMapping).dropKey
    some ({ s with keyAllowed := !s.inFlow }.mark 1 .key)

def valueMark (s : Scan) : Option Scan :=
  match s.keyStart with
  | some k =>
    let s := s.insert k.token .key
    let s := s.openBlock k.column k.token .blockMapping
    some ({ s with keyStart := none, keyAllowed := false }.mark 1 .value)
  | none =>
    if !s.inFlow && !s.keyAllowed then none
    else
      let s := s.openBlock s.cursor.column s.tokens.length .blockMapping
      some ({ s with keyAllowed := !s.inFlow }.mark 1 .value)

def anchorName (s : Scan) (t : String → Token) : Option Scan := do
  let s ← s.markKey
  let (name, c) := (s.cursor.skip 1).take isWord
  let ends := c.seesGap 0 || c.sees 0 fun ch => ['?', ':', ',', ']', '\x7d', '%', '@', '`'].contains ch
  if name.isEmpty || !ends then none
  else some { s.push (t (String.ofList name)) with cursor := c, keyAllowed := false }

def isUri (verbatim : Bool) (ch : Char) : Bool :=
  isWord ch || [';', '/', '?', ':', '@', '&', '=', '+', '$', '.', '%', '!', '~', '*', '\'', '(',
    ')'].contains ch || (verbatim && [',', '[', ']'].contains ch)

def decodeUri : Nat → List Char → Option (List Char)
  | 0, _ => some []
  | fuel + 1, cs =>
    match cs with
    | [] => some []
    | '%' :: a :: b :: rest => do
      let a ← Json.hexValue? a
      let b ← Json.hexValue? b
      let rest ← decodeUri fuel rest
      some (Char.ofNat (a * 16 + b) :: rest)
    | '%' :: _ => none
    | c :: rest => (decodeUri fuel rest).map (c :: ·)

def uri (verbatim : Bool) (c : Cursor) : Option (String × Cursor) := do
  let (written, c) := c.take (isUri verbatim)
  let chars ← decodeUri written.length written
  some (String.ofList chars, c)

def tagMark (s : Scan) : Option Scan := do
  let s ← s.markKey
  let c := s.cursor
  let (t, c) ←
    if c.sees 1 (· == '<') then do
      let (suffix, c) ← uri true (c.skip 2)
      if suffix.isEmpty || !c.seesChar '>' then none else some (Token.tag "" suffix, c.skip 1)
    else do
      let (word, named) := (c.skip 1).take isWord
      if named.seesChar '!' then do
        let (suffix, c) ← uri false (named.skip 1)
        if suffix.isEmpty then none
        else some (Token.tag ("!" ++ String.ofList word ++ "!") suffix, c)
      else do
        let (more, c) ← uri false named
        let suffix := String.ofList word ++ more
        some (if suffix.isEmpty then Token.tag "" "!" else Token.tag "!" suffix, c)
  if c.seesGap 0 || (s.inFlow && c.seesChar ',') then
    some { s.push t with cursor := c, keyAllowed := false }
  else none

def endDirective (s : Scan) (t : Token) (c : Cursor) : Option Scan :=
  let c := c.skipWhile isBlank
  let c := if c.seesChar '#' then c.skipWhile (fun ch => !isBreak ch) else c
  if c.seesEndOfLine 0 then
    some { s.push t with cursor := if c.atEnd then c else c.skipBreak }
  else none

def directiveNumber (c : Cursor) : Option (Nat × Cursor) :=
  let (digits, c) := c.take Char.isDigit
  if digits.isEmpty || 9 < digits.length then none else some (Json.natOfDigits digits, c)

def directive (s : Scan) : Option Scan := do
  let s ← (s.closeBlocks (-1)).dropKey
  let s := { s with keyAllowed := false }
  let (name, c) := (s.cursor.skip 1).take isWord
  if name.isEmpty || !c.seesGap 0 then none
  else
    let c := c.skipWhile isBlank
    if name = "YAML".toList then do
      let (major, c) ← directiveNumber c
      if !c.seesChar '.' then none
      else
        let (minor, c) ← directiveNumber (c.skip 1)
        s.endDirective (.version major minor) c
    else if name = "TAG".toList then
      if !c.seesChar '!' then none
      else
        let (word, c) := (c.skip 1).take isWord
        let closed := c.seesChar '!'
        let handle := "!" ++ String.ofList word ++ (if closed then "!" else "")
        let c := if closed then c.skip 1 else c
        if (!closed && !word.isEmpty) || !c.sees 0 isBlank then none
        else do
          let (stem, c) ← uri true (c.skipWhile isBlank)
          if stem.isEmpty || !c.seesGap 0 then none else s.endDirective (.tagHandle handle stem) c
    else none

def block (s : Scan) (literal : Bool) : Option Scan := do
  let s ← s.dropKey
  let (text, c) ← blockScalar literal s.indent (s.cursor.skip 1)
  some { s.push (.scalar (String.ofList text) (if literal then .literal else .folded)) with
    cursor := c, keyAllowed := true }

def quoted (s : Scan) (quote : Char) : Option Scan := do
  let s ← s.markKey
  let (text, c) ← quotedScalar quote (s.cursor.rest.length + 1) [] (s.cursor.skip 1)
  some { s.push (.scalar (String.ofList text) .quoted) with cursor := c, keyAllowed := false }

def plain (s : Scan) : Option Scan := do
  let s ← s.markKey
  let (text, broken, c) ←
    plainScalar s.inFlow (s.indent + 1).toNat (s.cursor.rest.length + 1) [] Gap.none s.cursor
  some { s.push (.scalar (String.ofList text) .plain) with cursor := c, keyAllowed := broken }

def isIndicator (ch : Char) : Bool :=
  ['-', '?', ':', ',', '[', ']', '\x7b', '\x7d', '#', '&', '*', '!', '|', '>', '\'', '"', '%', '@',
    '`'].contains ch

def beginsPlain (s : Scan) : Bool :=
  let c := s.cursor
  c.sees 0 (fun ch => !isBlank ch && !isBreak ch && !isIndicator ch) ||
    (c.seesChar '-' && !c.sees 1 isBlank) ||
    (!s.inFlow && (c.seesChar '?' || c.seesChar ':') && !c.seesGap 1)

def token (s : Scan) : Option Scan :=
  let c := s.cursor
  if c.column = 0 && c.seesChar '%' then s.directive
  else if c.seesMarker '-' then s.documentEdge .documentStart
  else if c.seesMarker '.' then s.documentEdge .documentEnd
  else if c.seesChar '[' then s.flowStart .flowSequence
  else if c.seesChar '\x7b' then s.flowStart .flowMapping
  else if c.seesChar ']' then s.flowEnd .flowSequenceEnd
  else if c.seesChar '\x7d' then s.flowEnd .flowMappingEnd
  else if c.seesChar ',' then s.flowEntry
  else if c.seesChar '-' && c.seesGap 1 then s.blockEntry
  else if c.seesChar '?' && (s.inFlow || c.seesGap 1) then s.explicitKey
  else if c.seesChar ':' && (s.inFlow || c.seesGap 1) then s.valueMark
  else if c.seesChar '*' then s.anchorName .alias
  else if c.seesChar '&' then s.anchorName .anchor
  else if c.seesChar '!' then s.tagMark
  else if c.seesChar '|' && !s.inFlow then s.block true
  else if c.seesChar '>' && !s.inFlow then s.block false
  else if c.seesChar '\'' then s.quoted '\''
  else if c.seesChar '"' then s.quoted '"'
  else if s.beginsPlain then s.plain
  else none

def finish (s : Scan) : Option Scan := (s.closeBlocks (-1)).dropKey

def run : Nat → Scan → Option (List Token)
  | 0, _ => none
  | fuel + 1, s => do
    let s := s.toNextToken (s.cursor.rest.length + 1)
    let s ← s.dropStaleKeys
    let s := s.closeBlocks s.cursor.column
    if s.cursor.atEnd then (← s.finish).tokens else run fuel (← s.token)

end Scan

def Token.ofText? (text : String) : Option (List Token) :=
  let cs := text.toList
  if cs.all isAllowed then Scan.run (cs.length + 1) (.ofText cs) else none

end StripeRecovery.Yaml
