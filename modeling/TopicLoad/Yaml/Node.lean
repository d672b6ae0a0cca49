import TopicLoad.Yaml.Token

/-! The nodes of a YAML document. -/
namespace TopicLoad
namespace Yaml

inductive Node where
  | scalar (mark : Mark) (tag : Option String) (style : Style) (text : String)
  | list (mark : Mark) (tag : Option String) (items : List Node)
  | map (mark : Mark) (tag : Option String) (entries : List (Node × Node))
  /-- Stands for the node of an anchor. -/
  | reference (mark : Mark) (anchor : Nat)
deriving Repr

def Node.mark : Node → Mark
  | scalar m .. | list m .. | map m .. | reference m _ => m

/-- The node of an anchor; `begin` is the place of its beginning among those of all nodes. -/
structure Anchored where
  anchor : Nat
  begin : Nat
  node : Node
deriving Repr

/-- A document, without a node if the text is empty. `size` counts beginnings and ends of nodes. -/
structure Document where
  root : Option Node
  anchors : List Anchored
  size : Nat
deriving Repr

/-- Of several nodes with one anchor the one that begins last counts. -/
def Document.find? (d : Document) (anchor : Nat) : Option Node :=
  let later (best : Option Anchored) (a : Anchored) : Option Anchored :=
    if a.anchor ≠ anchor then best
    else match best with
      | some b => if b.begin < a.begin then some a else some b
      | none => some a
  (d.anchors.foldl later none).map Anchored.node

namespace Document

/-- What is known while nodes are put together from tokens. -/
structure Building where
  tokens : List Token
  handles : List (String × String)
  names : List (String × Nat) := []
  anchors : List Anchored := []
  size : Nat := 0

abbrev Builder := StateT Building Option

namespace Builder

def fail {α : Type} : Builder α := fun _ => none

def peek : Builder Token := do
  match (← get).tokens with
  | t :: _ => pure t
  | [] => fail

def advance : Builder Unit := modify fun b => { b with tokens := b.tokens.drop 1 }

def count : Builder Nat := do
  let n := (← get).size
  modify fun b => { b with size := n + 1 }
  pure n

/-- A new anchor is numbered by how many names are known. -/
def declare (name : String) : Builder Nat := do
  let b ← get
  let n := b.names.length
  let names := (b.names.filter fun e => e.1 ≠ name) ++ [(name, n)]
  set { b with names := names }
  pure n

def empty (mark : Mark) : Builder Node := do
  let _ ← count
  pure (.scalar mark none .plain "")

def resolveTag (handle suffix : String) : Builder String := do
  if handle = "" then pure suffix
  else match (← get).handles.lookup handle with
    | some expansion => pure (expansion ++ suffix)
    | none => fail

/-- The anchor and the tag in front of a node, in either order, and where they begin. -/
def properties : Builder (Option String × Option String × Mark) := do
  let first ← peek
  match first.kind with
  | .anchor name =>
    advance
    let t ← peek
    match t.kind with
    | .tag handle suffix =>
      advance
      pure (some name, some (← resolveTag handle suffix), first.start)
    | _ => pure (some name, none, first.start)
  | .tag handle suffix =>
    advance
    let t ← peek
    match t.kind with
    | .anchor name =>
      advance
      pure (some name, some (← resolveTag handle suffix), first.start)
    | _ => pure (none, some (← resolveTag handle suffix), first.start)
  | _ => pure (none, none, first.start)

/-- Tokens before which a node of a block may be left out. -/
def endsBlockNode (k : Kind) : Bool := k = .key || k = .value || k = .blockEnd

mutual

/-- A node; inside a block it may be a block, and as a value or key a list without indentation. -/
def node : Nat → Bool → Bool → Builder Node
  | 0, _, _ => fail
  | fuel + 1, block, indentless => do
    let t ← peek
    match t.kind with
    | .reference name =>
      advance
      match (← get).names.lookup name with
      | some n =>
        let _ ← count
        pure (.reference t.start n)
      | none => fail
    | _ =>
      let (anchor, tag, start) ← properties
      let begin ← count
      let number ← match anchor with
        | some name => some <$> declare name
        | none => pure none
      let t ← peek
      let made ← content fuel block indentless start tag (anchor.isSome || tag.isSome) t
      if let some n := number then
        modify fun b => { b with anchors := ⟨n, begin, made⟩ :: b.anchors }
      pure made

def content : Nat → Bool → Bool → Mark → Option String → Bool → Token → Builder Node
  | 0, _, _, _, _, _, _ => fail
  | fuel + 1, block, indentless, start, tag, marked, t => do
    match t.kind with
    | .scalar text style => advance *> pure (.scalar start tag style text)
    | .flowListStart => advance *> (.list start tag <$> flowItems fuel true)
    | .flowMapStart => advance *> (.map start tag <$> flowEntries fuel true)
    | k =>
      if indentless ∧ k = .blockEntry then .list start tag <$> looseItems fuel
      else if block ∧ k = .blockListStart then advance *> (.list start tag <$> blockItems fuel)
      else if block ∧ k = .blockMapStart then advance *> (.map start tag <$> blockEntries fuel)
      else if marked then pure (.scalar start tag .plain "")
      else fail

def blockItems : Nat → Builder (List Node)
  | 0 => fail
  | fuel + 1 => do
    let t ← peek
    match t.kind with
    | .blockEnd => advance *> count *> pure []
    | .blockEntry =>
      advance
      let k := (← peek).kind
      let item ← if k = .blockEntry ∨ k = .blockEnd then empty t.stop else node fuel true false
      let items ← blockItems fuel
      pure (item :: items)
    | _ => fail

/-- The items of a list that is not indented more than the key before it. -/
def looseItems : Nat → Builder (List Node)
  | 0 => fail
  | fuel + 1 => do
    let t ← peek
    if t.kind = .blockEntry then
      advance
      let k := (← peek).kind
      let item ←
        if k = .blockEntry ∨ endsBlockNode k then empty t.stop else node fuel true false
      let items ← looseItems fuel
      pure (item :: items)
    else count *> pure []

def blockEntries : Nat → Builder (List (Node × Node))
  | 0 => fail
  | fuel + 1 => do
    let t ← peek
    match t.kind with
    | .blockEnd => advance *> count *> pure []
    | .key =>
      advance
      let key ← if endsBlockNode (← peek).kind then empty t.stop else node fuel true true
      let v ← peek
      let value ←
        if v.kind = .value then
          advance
          if endsBlockNode (← peek).kind then empty v.stop else node fuel true true
        else empty v.start
      let entries ← blockEntries fuel
      pure ((key, value) :: entries)
    | _ => fail

def flowItems : Nat → Bool → Builder (List Node)
  | 0, _ => fail
  | fuel + 1, first => do
    if (← peek).kind = .flowListEnd then advance *> count *> pure []
    else
      if ¬ first then
        if (← peek).kind = .flowEntry then advance else fail
      let t ← peek
      match t.kind with
      | .flowListEnd => advance *> count *> pure []
      | .key =>
        let _ ← count
        advance
        let k ← peek
        let key ←
          if k.kind = .value ∨ k.kind = .flowEntry ∨ k.kind = .flowListEnd then
            advance *> empty k.stop
          else node fuel false false
        let value ← flowValue fuel .flowListEnd
        let _ ← count
        let items ← flowItems fuel false
        pure (.map t.start none [(key, value)] :: items)
      | _ =>
        let item ← node fuel false false
        let items ← flowItems fuel false
        pure (item :: items)

def flowEntries : Nat → Bool → Builder (List (Node × Node))
  | 0, _ => fail
  | fuel + 1, first => do
    if (← peek).kind = .flowMapEnd then advance *> count *> pure []
    else
      if ¬ first then
        if (← peek).kind = .flowEntry then advance else fail
      let t ← peek
      match t.kind with
      | .flowMapEnd => advance *> count *> pure []
      | .key =>
        advance
        let k ← peek
        let key ←
          if k.kind = .value ∨ k.kind = .flowEntry ∨ k.kind = .flowMapEnd then empty k.start
          else node fuel false false
        let value ← flowValue fuel .flowMapEnd
        let entries ← flowEntries fuel false
        pure ((key, value) :: entries)
      | _ =>
        let key ← node fuel false false
        let value ← empty (← peek).start
        let entries ← flowEntries fuel false
        pure ((key, value) :: entries)

def flowValue : Nat → Kind → Builder Node
  | 0, _ => fail
  | fuel + 1, close => do
    if (← peek).kind = .value then
      advance
      let t ← peek
      if t.kind = .flowEntry ∨ t.kind = close then empty t.start else node fuel false false
    else empty (← peek).start

end

def standardHandles : List (String × String) := [("!", "!"), ("!!", "tag:yaml.org,2002:")]

def directives : Nat → Bool → List (String × String) → Builder (List (String × String))
  | 0, _, _ => fail
  | fuel + 1, versioned, handles => do
    match (← peek).kind with
    | .version major minor =>
      if versioned ∨ major ≠ 1 ∨ (minor ≠ 1 ∧ minor ≠ 2) then fail
      else advance *> directives fuel true handles
    | .tagDirective handle expansion =>
      if (handles.lookup handle).isSome then fail
      else advance *> directives fuel versioned (handles ++ [(handle, expansion)])
    | _ => pure handles

def isDirective : Kind → Bool
  | .version .. | .tagDirective .. => true
  | _ => false

def document : Builder (Option Node) := do
  let fuel := 4 * (← get).tokens.length + 8
  let first := (← peek).kind
  if first = .streamEnd then pure none
  else
    let root ←
      if isDirective first ∨ first = .documentStart then do
        let handles ← directives fuel false []
        modify fun b => { b with handles := handles ++ standardHandles }
        if (← peek).kind ≠ .documentStart then fail
        advance
        let t ← peek
        if isDirective t.kind ∨ t.kind = .documentStart ∨ t.kind = .documentEnd ∨
            t.kind = .streamEnd then empty t.start
        else node fuel true false
      else node fuel true false
    modify fun b => { b with tokens := b.tokens.dropWhile fun t => t.kind = .documentEnd }
    if (← peek).kind = .streamEnd then pure (some root) else fail

end Builder

def ofTokens? (tokens : List Token) : Option Document :=
  match Builder.document { tokens := tokens, handles := Builder.standardHandles } with
  | some (root, b) => some ⟨root, b.anchors, b.size⟩
  | none => none

def ofText? (text : String) : Option Document := (tokens? text).bind ofTokens?

end Document
end Yaml
end TopicLoad
