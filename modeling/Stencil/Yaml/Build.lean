import Stencil.Value.Key
import Stencil.Yaml.Node
import Stencil.Yaml.Scalar

/-!
# Values of nodes

Every node has a value according to its type. A mapping may take over the entries of others by the
key `<<`; its own entries win over those, and without such a key none of its keys may come twice.

When more than one thing is wrong in a document, the one nearest to the root counts, and of several
at one depth the first; a key counts as a whole with the mapping it belongs to.

* `Yaml.Fault` and `Yaml.Outcome`;
* `Yaml.Built`, what becomes of a node, for its own place and for a mapping that takes it over;
* `Node.build`, and `Node.value` for the root.
-/

set_option autoImplicit false

namespace Stencil

namespace Yaml

/-- A failure, and how deep below the node in question it is. -/
structure Fault where
  depth : Nat
  failure : Failure
  deriving DecidableEq, Repr

/-- A value, or why there is none. -/
abbrev Outcome (α : Type) := Except Fault α

/-- The key and the value of an entry. -/
abbrev BuiltEntry := Outcome Value × Outcome Value

/-- What becomes of a node: its value; its text, if scalar types can read it; its entries as they
are written and with those it takes over; and the entries that it hands over to others. -/
structure Built where
  value : Outcome Value
  text : Except Failure Text
  written : Except Failure (List BuiltEntry)
  entries : Except Failure (List BuiltEntry)
  source : Except Failure (List BuiltEntry)

/-- The failure of something malformed just here. -/
def Fault.here : Fault :=
  ⟨0, .malformed⟩

/-- What comes of a collection whose parts have the given outcome. Within keys all depths are one.
-/
def deeper {α : Type} (inKey : Bool) : Outcome α → Outcome α
  | .ok value => .ok value
  | .error fault => .error (if inKey then fault else { fault with depth := fault.depth + 1 })

/-- An outcome at the place of the node itself. -/
def atNode {α : Type} : Except Failure α → Outcome α
  | .ok value => .ok value
  | .error failure => .error ⟨0, failure⟩

/-- Of two faults the one that counts. -/
def worse (first : Option Fault) (second : Fault) : Fault :=
  match first with
  | some fault => if second.depth < fault.depth then second else fault
  | none => second

/-! ## Collections -/

/-- The items of a sequence. `known` is the fault that counts among the items before. -/
def collectItems (known : Option Fault) : List (Outcome Value) → Outcome (List Value)
  | [] =>
    match known with
    | some fault => .error fault
    | none => .ok []
  | .ok value :: rest => (collectItems known rest).map (value :: ·)
  | .error fault :: rest =>
    if fault.depth = 0 then .error fault else collectItems (some (worse known fault)) rest

/-- The entries of a mapping, added to those already there. Unless keys may come `repeated`, one
that is there already is refused. -/
def collectEntries (repeated : Bool) (known : Option Fault) (entries : List (Value × Value)) :
    List BuiltEntry → Outcome (List (Value × Value))
  | [] =>
    match known with
    | some fault => .error fault
    | none => .ok entries
  | (.error fault, _) :: _ => .error fault
  | (.ok key, outcome) :: rest =>
    match key.asKey? with
    | none => .error .here
    | some key =>
      let isRepeated := entries.any fun entry => Value.sameKey key entry.1
      match outcome with
      | .ok value =>
        if isRepeated && !repeated then .error .here
        else collectEntries repeated known (Value.setEntry key value entries) rest
      | .error fault =>
        if fault.depth = 0 then .error fault
        else if isRepeated && !repeated then .error .here
        else
          collectEntries repeated (some (worse known fault)) (Value.setEntry key .null entries) rest

/-- The one entry of each item of an ordered mapping or of a list of pairs. -/
def singleEntries : List Built → Except Failure (List BuiltEntry)
  | [] => .ok []
  | item :: items =>
    match item.written with
    | .ok [entry] => (singleEntries items).map (entry :: ·)
    | _ => .error .malformed

/-- The value of a pair. -/
def pairValue : BuiltEntry → Outcome Value
  | (.error fault, _) => .error fault
  | (_, .error fault) => .error fault
  | (.ok key, .ok value) => .ok (.tuple [key, value])

/-- The value of a sequence with a type. -/
def sequenceValue (tag : Tag) (items : List Built) : Outcome Value :=
  match tag with
  | .sequence => (collectItems none (items.map Built.value)).map Value.list
  | .orderedMapping => do
    let entries ← collectEntries false none [] (← atNode (singleEntries items))
    return .mapping entries
  | .pairs => do
    let pairs ← collectItems none ((← atNode (singleEntries items)).map pairValue)
    return .list pairs
  | _ => .error .here

/-! ## Merging -/

/-- An entry of a mapping with the type of its key. -/
structure TypedEntry where
  keyTag : Tag
  key : Built
  value : Built

/-- The entries that a mapping takes over from others. Only one key may ask for some. -/
def takenOver : List BuiltEntry → List TypedEntry → Except Failure (List BuiltEntry)
  | taken, [] => .ok taken
  | taken, entry :: rest =>
    if entry.keyTag ≠ .merge then takenOver taken rest
    else if !taken.isEmpty then .error .malformed
    else
      match entry.value.source with
      | .ok entries => takenOver entries rest
      | .error failure => .error failure

/-- The own entries of a mapping; the key `=` is a string there. -/
def ownEntries (entries : List TypedEntry) : List BuiltEntry :=
  (entries.filter fun entry => entry.keyTag ≠ .merge).map fun entry =>
    let key :=
      if entry.keyTag = .default then atNode (entry.key.text.map Value.string) else entry.key.value
    (key, entry.value.value)

/-- The entries of a mapping, those it takes over first. -/
def mappingEntries (entries : List TypedEntry) : Outcome (List (Value × Value)) := do
  let taken ← atNode (takenOver [] entries)
  collectEntries (!taken.isEmpty) none [] (taken ++ ownEntries entries)

/-- What scalar types read of a mapping: the value of its key `=`. -/
def defaultText (entries : List TypedEntry) : Except Failure Text :=
  match entries.find? fun entry => entry.keyTag = .default with
  | some entry => entry.value.text
  | none => .error .malformed

/-- The value of a mapping with a type. -/
def mappingValue (legacy inKey : Bool) (tag : Tag) (entries : List TypedEntry) : Outcome Value :=
  match tag with
  | .mapping => deeper inKey ((mappingEntries entries).map Value.mapping)
  | .set => deeper inKey ((mappingEntries entries).map fun entries => .set (entries.map (·.1)))
  | .sequence | .orderedMapping | .pairs => deeper inKey (.error .here)
  | _ => atNode (do scalarValue legacy tag (← defaultText entries))

/-- The entries that the items of a sequence hand over together, those of the last item first. -/
def sourceOfItems : List Built → Except Failure (List BuiltEntry)
  | [] => .ok []
  | item :: items =>
    match sourceOfItems items, item.entries with
    | .ok later, .ok entries => .ok (later ++ entries)
    | _, _ => .error .malformed

/-! ## Nodes -/

/-- The type of a node. -/
def Node.tag : Node → Tag
  | .scalar tag _ => tag
  | .sequence tag _ => tag
  | .mapping tag _ => tag

mutual

/-- What becomes of a node. -/
def Node.build (legacy inKey : Bool) : Node → Built
  | .scalar tag text =>
    { value := atNode (scalarValue legacy tag text)
      text := .ok text
      written := .error .malformed
      entries := .error .malformed
      source := .error .malformed }
  | .sequence tag nodes =>
    let items := buildItems legacy inKey nodes
    let value :=
      match tag with
      | .sequence | .orderedMapping | .pairs | .mapping | .set =>
        deeper inKey (sequenceValue tag items)
      | _ => .error .here
    { value := value
      text := .error .malformed
      written := .error .malformed
      entries := .error .malformed
      source := sourceOfItems items }
  | .mapping tag nodes =>
    let parts := buildEntries legacy inKey nodes
    let entries := (takenOver [] parts).map (· ++ ownEntries parts)
    { value := mappingValue legacy inKey tag parts
      text := defaultText parts
      written := .ok (parts.map fun part => (part.key.value, part.value.value))
      entries := entries
      source := entries }

/-- What becomes of the items of a sequence. -/
def buildItems (legacy inKey : Bool) : List Node → List Built
  | [] => []
  | item :: items => Node.build legacy inKey item :: buildItems legacy inKey items

/-- What becomes of the entries of a mapping. -/
def buildEntries (legacy inKey : Bool) : List (Node × Node) → List TypedEntry
  | [] => []
  | (key, value) :: entries =>
    ⟨key.tag, Node.build legacy true key, Node.build legacy inKey value⟩ ::
      buildEntries legacy inKey entries

end

/-- The value of a document with this root. -/
def Node.value (legacy : Bool) (root : Node) : Except Failure Value :=
  match (root.build legacy false).value with
  | .ok value => .ok value
  | .error fault => .error fault.failure

end Yaml

end Stencil
