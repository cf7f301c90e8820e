import Stencil.Yaml.Tag
import Stencil.Yaml.Tokens

/-!
# The tree of a document

Tokens form nodes: scalars, sequences and mappings, each with its type. An alias is the node that
its anchor names. A text holds one document at most.

* `Yaml.Node`;
* `Yaml.Composition`, the tokens that are left with what anchors and handles stand for;
* `Node.ofTokens`, the tree of the one document.
-/

set_option autoImplicit false

namespace Stencil

namespace Yaml

/-- A node of a document with its type. -/
inductive Node where
  | scalar (tag : Tag) (text : Text)
  | sequence (tag : Tag) (items : List Node)
  | mapping (tag : Tag) (entries : List (Node × Node))
  deriving Repr

/-- The node where none is written. -/
def Node.empty : Node :=
  .scalar .null []

/-! ## State -/

/-- An anchor and the node it names, which is none as long as the node is not complete. -/
structure Anchor where
  name : Text
  node : Option Node

/-- The tokens that are left. The newest anchor comes first; `handles` are what the handles of tags
stand for, and `room` is how many more collections may be opened inside the ones that are open. -/
structure Composition where
  tokens : List Token
  anchors : List Anchor
  handles : List (Text × Text)
  legacy : Bool
  room : Nat

/-- Work on the tokens of a document. -/
abbrev Compose (α : Type) := StateT Composition (Except Failure) α

namespace Compose

/-- The next token; a fault ends the work. -/
def peek : Compose Token := do
  match (← get).tokens with
  | [] => throw .malformed
  | .fault failure :: _ => throw failure
  | token :: _ => return token

/-- Goes on to the token behind the next one. -/
def skip : Compose Unit :=
  modify fun state => { state with tokens := state.tokens.tail }

/-- Adds the anchor of a node that is yet to come, and tells how many there are. -/
def openAnchor (name : Option Text) : Compose Nat := do
  match name with
  | some name => modify fun state => { state with anchors := ⟨name, none⟩ :: state.anchors }
  | none => pure ()
  return (← get).anchors.length

/-- Gives the anchor that was the newest of `count` its node. -/
def closeAnchor (name : Option Text) (count : Nat) (node : Node) : Compose Node := do
  match name with
  | some name =>
    modify fun state =>
      { state with anchors := state.anchors.set (state.anchors.length - count) ⟨name, some node⟩ }
  | none => pure ()
  return node

/-- The node that an alias stands for. One that stands for a node it is part of is refused. -/
def referred (name : Text) : Compose Node := do
  match (← get).anchors.find? fun anchor => anchor.name = name with
  | some ⟨_, some node⟩ => return node
  | _ => throw .malformed

/-! ## Properties -/

/-- What the tag of a node asks for: nothing, a type by form whatever the quotes, or a type. -/
inductive TagChoice where
  | absent
  | byForm
  | typed (tag : Tag)
  deriving DecidableEq, Repr

/-- What a tag asks for, its handle replaced by what that stands for. -/
def tagChoice (label : TagLabel) : Compose TagChoice := do
  let uri ←
    match label.handle with
    | none => pure label.suffix
    | some handle =>
      match (← get).handles.find? fun entry => entry.1 = handle with
      | some (_, expansion) => pure (expansion ++ label.suffix)
      | none => throw .malformed
  return if uri = ("!" : Text) then .byForm else .typed (Tag.ofUri uri)

/-- The anchor and the tag before a node, in either order. -/
def properties : Compose (Option Text × TagChoice) := do
  match ← peek with
  | .anchor name =>
    skip
    match ← peek with
    | .tag label => skip; return (some name, ← tagChoice label)
    | _ => return (some name, .absent)
  | .tag label =>
    skip
    match ← peek with
    | .anchor name => skip; return (some name, ← tagChoice label)
    | _ => return (none, ← tagChoice label)
  | _ => return (none, .absent)

/-- The type of a collection. -/
def TagChoice.orElse (choice : TagChoice) (usual : Tag) : Tag :=
  match choice with
  | .typed tag => tag
  | _ => usual

/-- Work on what stands inside a collection, which takes the room of one while it goes on. -/
def inside {α : Type} (work : Compose α) : Compose α := do
  match (← get).room with
  | 0 => throw .tooDeep
  | room + 1 =>
    modify fun state => { state with room := room }
    let result ← work
    modify fun state => { state with room := room + 1 }
    return result

/-- A scalar with its type; without a tag, quotes make it a string. -/
def scalar (choice : TagChoice) (text : Text) (plain : Bool) : Compose Node := do
  let byForm := Tag.ofPlain (← get).legacy text
  return match choice with
    | .typed tag => .scalar tag text
    | .byForm => .scalar byForm text
    | .absent => .scalar (if plain then byForm else .string) text

/-! ## Nodes -/

/-- Where a node stands: in a block collection, there with entries that may be no deeper, or between
brackets. -/
inductive Place where
  | block
  | undented
  | flow
  deriving DecidableEq, Repr

mutual

/-- A node. Every step down the tree or along a collection takes one from `steps`. -/
def node (place : Place) : Nat → Compose Node
  | 0 => throw .malformed
  | steps + 1 => do
    match ← peek with
    | .reference name => skip; referred name
    | _ =>
      let (anchor, choice) ← properties
      let count ← openAnchor anchor
      let body ← content place anchor choice steps
      closeAnchor anchor count body

/-- What stands behind the properties of a node; nothing may, if it has some. -/
def content (place : Place) (anchor : Option Text) (choice : TagChoice) : Nat → Compose Node
  | 0 => throw .malformed
  | steps + 1 => do
    match ← peek, place with
    | .blockEntry, .undented =>
      return .sequence (choice.orElse .sequence) (← inside (undentedItems steps))
    | .scalar text plain, _ => skip; scalar choice text plain
    | .flowStart .sequence, _ =>
      skip
      return .sequence (choice.orElse .sequence) (← inside (flowItems true steps))
    | .flowStart .mapping, _ =>
      skip
      return .mapping (choice.orElse .mapping) (← inside (flowEntries true steps))
    | .blockSequenceStart, .block | .blockSequenceStart, .undented =>
      skip
      return .sequence (choice.orElse .sequence) (← inside (blockItems steps))
    | .blockMappingStart, .block | .blockMappingStart, .undented =>
      skip
      return .mapping (choice.orElse .mapping) (← inside (blockEntries steps))
    | _, _ =>
      if anchor.isNone && choice = .absent then throw .malformed else scalar choice [] true

/-- The items of a block sequence up to its end. -/
def blockItems : Nat → Compose (List Node)
  | 0 => throw .malformed
  | steps + 1 => do
    match ← peek with
    | .blockEntry =>
      skip
      let item ←
        match ← peek with
        | .blockEntry | .blockEnd => pure Node.empty
        | _ => node .block steps
      return item :: (← blockItems steps)
    | .blockEnd => skip; return []
    | _ => throw .malformed

/-- The items of a sequence that is no deeper than the mapping it stands in. -/
def undentedItems : Nat → Compose (List Node)
  | 0 => throw .malformed
  | steps + 1 => do
    match ← peek with
    | .blockEntry =>
      skip
      let item ←
        match ← peek with
        | .blockEntry | .key | .value | .blockEnd => pure Node.empty
        | _ => node .block steps
      return item :: (← undentedItems steps)
    | _ => return []

/-- A key or a value of a block mapping, behind its mark. -/
def blockPart : Nat → Compose Node
  | 0 => throw .malformed
  | steps + 1 => do
    match ← peek with
    | .key | .value | .blockEnd => return Node.empty
    | _ => node .undented steps

/-- The value of an entry of a block mapping, if its mark follows. -/
def blockValue : Nat → Compose Node
  | 0 => throw .malformed
  | steps + 1 => do
    match ← peek with
    | .value => skip; blockPart steps
    | _ => return Node.empty

/-- The entries of a block mapping up to its end. Only the newer rules know entries without a key.
-/
def blockEntries : Nat → Compose (List (Node × Node))
  | 0 => throw .malformed
  | steps + 1 => do
    match ← peek with
    | .key =>
      skip
      let key ← blockPart steps
      let value ← blockValue steps
      return (key, value) :: (← blockEntries steps)
    | .value =>
      if (← get).legacy then throw .malformed
      let value ← blockValue steps
      return (Node.empty, value) :: (← blockEntries steps)
    | .blockEnd => skip; return []
    | _ => throw .malformed

/-- A key or a value between brackets, behind its mark. -/
def flowPart (bracket : Bracket) : Nat → Compose Node
  | 0 => throw .malformed
  | steps + 1 => do
    let token ← peek
    if token = .flowEntry ∨ token = .flowEnd bracket then return Node.empty
    else node .flow steps

/-- The key of an entry between brackets, behind its mark. -/
def flowKey (bracket : Bracket) : Nat → Compose Node
  | 0 => throw .malformed
  | steps + 1 => do
    match ← peek with
    | .value => return Node.empty
    | _ => flowPart bracket steps

/-- The value of an entry between brackets, if its mark follows. -/
def flowValue (bracket : Bracket) : Nat → Compose Node
  | 0 => throw .malformed
  | steps + 1 => do
    match ← peek with
    | .value => skip; flowPart bracket steps
    | _ => return Node.empty

/-- The items of a flow sequence up to its end. All but the first follow a comma, and a key among
them makes a mapping of one entry. -/
def flowItems (first : Bool) : Nat → Compose (List Node)
  | 0 => throw .malformed
  | steps + 1 => do
    let token ← peek
    if token = .flowEnd .sequence then skip; return []
    if !first then
      if token ≠ .flowEntry then throw .malformed
      skip
    match ← peek with
    | .flowEnd .sequence => skip; return []
    | .key =>
      skip
      let entry ← inside do
        let key ← flowKey .sequence steps
        return (key, ← flowValue .sequence steps)
      return .mapping .mapping [entry] :: (← flowItems false steps)
    | _ =>
      let item ← node .flow steps
      return item :: (← flowItems false steps)

/-- The entries of a flow mapping up to its end. All but the first follow a comma. -/
def flowEntries (first : Bool) : Nat → Compose (List (Node × Node))
  | 0 => throw .malformed
  | steps + 1 => do
    let token ← peek
    if token = .flowEnd .mapping then skip; return []
    if !first then
      if token ≠ .flowEntry then throw .malformed
      skip
    let legacy := (← get).legacy
    match ← peek, legacy with
    | .flowEnd .mapping, _ => skip; return []
    | .key, _ =>
      skip
      let key ← flowKey .mapping steps
      let value ← flowValue .mapping steps
      return (key, value) :: (← flowEntries false steps)
    | .value, false =>
      let value ← flowValue .mapping steps
      return (Node.empty, value) :: (← flowEntries false steps)
    | _, _ =>
      let key ← node .flow steps
      return (key, Node.empty) :: (← flowEntries false steps)

end

/-! ## Documents -/

/-- What handles stand for unless a document says otherwise. -/
def usualHandles : List (Text × Text) :=
  [("!", "!"), ("!!", Tag.commonPrefix)]

/-- The directives before a document. There is one version at most, of the first major number, and
each handle is explained once. -/
def directives (versioned : Bool) (own : List (Text × Text)) : Nat → Compose Unit
  | 0 => throw .malformed
  | steps + 1 => do
    match ← peek with
    | .directive (.version major minor) =>
      skip
      if versioned || major ≠ 1 then throw .malformed
      modify fun state => { state with legacy := minor = 1 }
      directives true own steps
    | .directive (.handle handle expansion) =>
      skip
      if own.any fun entry => entry.1 = handle then throw .malformed
      modify fun state => { state with handles := (handle, expansion) :: state.handles }
      directives versioned ((handle, expansion) :: own) steps
    | .directive .other => skip; directives versioned own steps
    | _ => return ()

/-- A document behind its directives and its marker. -/
def explicitDocument (steps : Nat) : Compose Node := do
  directives false [] steps
  match ← peek with
  | .documentStart => skip
  | _ => throw .malformed
  match ← peek with
  | .directive _ | .documentStart | .documentEnd | .streamEnd => return Node.empty
  | _ => node .block steps

/-- The markers that may end a document. The older rules allow more than one. -/
def documentEnds : Nat → Compose Unit
  | 0 => throw .malformed
  | steps + 1 => do
    match ← peek with
    | .documentEnd =>
      skip
      if (← get).legacy then documentEnds steps
    | _ => return ()

/-- The one document of a text, if there is any. -/
def document (steps : Nat) : Compose (Option Node) := do
  let root ←
    match ← peek with
    | .streamEnd => pure none
    | .directive _ | .documentStart => some <$> explicitDocument steps
    | _ => some <$> node .block steps
  documentEnds steps
  match ← peek with
  | .streamEnd => return root
  | _ => throw .malformed

end Compose

/-- The tree of the one document that the tokens form, with no more than `room` collections inside
each other, and whether the older rules hold for it. No step takes more than five calls without
going on to the next token. -/
def Node.ofTokens (room : Nat) (tokens : List Token) : Except Failure (Option Node × Bool) :=
  let start : Composition := ⟨tokens, [], Compose.usualHandles, false, room⟩
  match (Compose.document (5 * tokens.length + 5)).run start with
  | .ok (root, state) => .ok (root, state.legacy)
  | .error failure => .error failure

end Yaml

end Stencil
