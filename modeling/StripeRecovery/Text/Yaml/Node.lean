import StripeRecovery.Text.Yaml.Token

/-!
YAML documents as nodes. An alias keeps the number of the anchored node that it stands for;
a node may even refer to itself, so nodes are looked up when they are read.
-/
namespace StripeRecovery.Yaml

inductive Node where
  | scalar (text : String) (style : Style) (tag : Option String)
  | seq (items : List Node)
  | map (entries : List (Node × Node))
  | alias (number : Nat)
deriving Repr

def Node.empty : Node := .scalar "" .plain none

structure Document where
  root : Node
  anchored : List (Nat × Node)
deriving Repr

namespace Document

def resolve (d : Document) : Node → Option Node
  | .alias number => d.anchored.lookup number
  | n => some n

end Document

structure Build where
  tokens : List Token
  names : List (String × Nat)
  anchored : List (Nat × Node)
  next : Nat
  handles : List (String × String)
deriving Repr

namespace Build

def head? (b : Build) : Option Token := b.tokens.head?

def skip (b : Build) : Build := { b with tokens := b.tokens.tail }

def sees (b : Build) (ts : List Token) : Bool :=
  match b.head? with
  | some t => ts.contains t
  | none => false

def expect (b : Build) (t : Token) : Option Build := if b.sees [t] then some b.skip else none

def nameAnchor (b : Build) (name : String) : Build :=
  { b.skip with names := (name, b.next) :: b.names, next := b.next + 1 }

def tagText (b : Build) (handle suffix : String) : Option String :=
  if handle.isEmpty then some suffix else (b.handles.lookup handle).map (· ++ suffix)

def properties (b : Build) : Option (Option Nat × Option String × Build) :=
  match b.head? with
  | some (.anchor name) =>
    let number := b.next
    let b := b.nameAnchor name
    match b.head? with
    | some (.tag handle suffix) => (b.tagText handle suffix).map fun t => (some number, some t, b.skip)
    | _ => some (some number, none, b)
  | some (.tag handle suffix) => do
    let t ← b.tagText handle suffix
    let b := b.skip
    match b.head? with
    | some (.anchor name) => some (some b.next, some t, b.nameAnchor name)
    | _ => some (none, some t, b)
  | _ => some (none, none, b)

def asSeq (r : List Node × Build) : Node × Build := (.seq r.1, r.2)

def asMap (r : List (Node × Node) × Build) : Node × Build := (.map r.1, r.2)

def bare (number : Option Nat) (tag : Option String) (b : Build) : Option (Node × Build) :=
  if number.isSome || tag.isSome then some (.scalar "" .plain tag, b) else none

def bind (b : Build) (number : Option Nat) (n : Node) : Build :=
  match number with
  | some i => { b with anchored := (i, n) :: b.anchored }
  | none => b

mutual

/-- The node that begins here. Block collections are read only where blocks may stand, and a
    sequence that is not indented only as the value of a mapping. -/
def node (isBlock indentless : Bool) : Nat → Build → Option (Node × Build)
  | 0, _ => none
  | fuel + 1, b =>
    match b.head? with
    | some (.alias name) =>
      match b.names.lookup name with
      | some number => some (.alias number, b.skip)
      | none => none
    | _ =>
      match b.properties with
      | none => none
      | some (number, tag, b) =>
        let content : Option (Node × Build) :=
          match b.head? with
          | some (.scalar text style) => some (Node.scalar text style tag, b.skip)
          | some .flowSequence => (flowItems true fuel b.skip).map asSeq
          | some .flowMapping => (flowFields true fuel b.skip).map asMap
          | some .blockEntry =>
            if indentless then (looseItems fuel b).map asSeq else bare number tag b
          | some .blockSequence =>
            if isBlock then (blockItems fuel b.skip).map asSeq else bare number tag b
          | some .blockMapping =>
            if isBlock then (blockFields fuel b.skip).map asMap else bare number tag b
          | _ => bare number tag b
        content.map fun r => (r.1, r.2.bind number r.1)

def blockItems : Nat → Build → Option (List Node × Build)
  | 0, _ => none
  | fuel + 1, b =>
    match b.head? with
    | some .blockEnd => some ([], b.skip)
    | some .blockEntry =>
      let b := b.skip
      let item :=
        if b.sees [.blockEntry, .blockEnd] then some (Node.empty, b) else node true false fuel b
      match item with
      | some (n, b) => (blockItems fuel b).map fun r => (n :: r.1, r.2)
      | none => none
    | _ => none

def looseItems : Nat → Build → Option (List Node × Build)
  | 0, _ => none
  | fuel + 1, b =>
    match b.head? with
    | some .blockEntry =>
      let b := b.skip
      let item :=
        if b.sees [.blockEntry, .key, .value, .blockEnd] then some (Node.empty, b)
        else node true false fuel b
      match item with
      | some (n, b) => (looseItems fuel b).map fun r => (n :: r.1, r.2)
      | none => none
    | _ => some ([], b)

def blockFields : Nat → Build → Option (List (Node × Node) × Build)
  | 0, _ => none
  | fuel + 1, b =>
    match b.head? with
    | some .blockEnd => some ([], b.skip)
    | some .key =>
      let b := b.skip
      let key :=
        if b.sees [.key, .value, .blockEnd] then some (Node.empty, b) else node true true fuel b
      match key with
      | none => none
      | some (k, b) =>
        let value :=
          if b.sees [.value] then
            let b := b.skip
            if b.sees [.key, .value, .blockEnd] then some (Node.empty, b)
            else node true true fuel b
          else some (Node.empty, b)
        match value with
        | some (v, b) => (blockFields fuel b).map fun r => ((k, v) :: r.1, r.2)
        | none => none
    | _ => none

def flowItems (first : Bool) : Nat → Build → Option (List Node × Build)
  | 0, _ => none
  | fuel + 1, b =>
    if b.sees [.flowSequenceEnd] then some ([], b.skip)
    else
      match if first then some b else b.expect .flowEntry with
      | none => none
      | some b =>
        if b.sees [.flowSequenceEnd] then some ([], b.skip)
        else
          let item :=
            if b.sees [.key] then
              match flowField [.flowEntry, .flowSequenceEnd] fuel b.skip with
              | some (f, b) => some (Node.map [f], b)
              | none => none
            else node false false fuel b
          match item with
          | some (n, b) => (flowItems false fuel b).map fun r => (n :: r.1, r.2)
          | none => none

def flowField (ends : List Token) : Nat → Build → Option ((Node × Node) × Build)
  | 0, _ => none
  | fuel + 1, b =>
    let key :=
      if b.sees (.value :: ends) then some (Node.empty, b) else node false false fuel b
    match key with
    | none => none
    | some (k, b) =>
      if b.sees [.value] then
        let b := b.skip
        if b.sees ends then some ((k, Node.empty), b)
        else (node false false fuel b).map fun r => ((k, r.1), r.2)
      else some ((k, Node.empty), b)

def flowFields (first : Bool) : Nat → Build → Option (List (Node × Node) × Build)
  | 0, _ => none
  | fuel + 1, b =>
    if b.sees [.flowMappingEnd] then some ([], b.skip)
    else
      match if first then some b else b.expect .flowEntry with
      | none => none
      | some b =>
        if b.sees [.flowMappingEnd] then some ([], b.skip)
        else
          let field :=
            if b.sees [.key] then flowField [.flowEntry, .flowMappingEnd] fuel b.skip
            else (node false false fuel b).map fun r => ((r.1, Node.empty), r.2)
          match field with
          | some (f, b) => (flowFields false fuel b).map fun r => (f :: r.1, r.2)
          | none => none

end

def directives (version : Bool) (declared : List String) : List Token → Build →
    Option (Build × Bool)
  | .version major minor :: rest, b =>
    if version || major ≠ 1 || (minor ≠ 1 && minor ≠ 2) then none
    else directives true declared rest b
  | .tagHandle handle stem :: rest, b =>
    if declared.contains handle then none
    else
      directives version (handle :: declared) rest
        { b with handles := (handle, stem) :: b.handles }
  | tokens, b => some ({ b with tokens := tokens }, version || !declared.isEmpty)

def ofTokens (tokens : List Token) : Build :=
  ⟨tokens, [], [], 0, [("!", "!"), ("!!", "tag:yaml.org,2002:")]⟩

def root (explicit : Bool) (b : Build) : Option (Node × Build) :=
  if explicit && (b.tokens.isEmpty || b.sees [.documentStart, .documentEnd]) then some (.empty, b)
  else node true false (b.tokens.length + 1) b

end Build

def Document.ofText? (text : String) : Option (Option Document) := do
  let tokens ← Token.ofText? text
  if tokens.isEmpty then some none
  else
    let (b, directed) ← Build.directives false [] tokens (Build.ofTokens tokens)
    let explicit := b.sees [.documentStart]
    if directed && !explicit then none
    else
      let (root, b) ← (if explicit then b.skip else b).root explicit
      if b.tokens.all (· == .documentEnd) then some (some ⟨root, b.anchored⟩) else none

end StripeRecovery.Yaml
