/-
  Lab8085.Yaml.Construction

  From graphs to values. A node is made into a value when it is first asked for.
  Collections are begun empty and filled later, in the order in which they were
  begun, so of two faults the one nearer to the root is met first. Mappings merge
  other mappings when they are filled; what is merged stays merged for the other
  uses of the same node.
-/
import Lab8085.Dictionary
import Lab8085.SlotTable
import Lab8085.Yaml.Content
import Lab8085.Yaml.Node

namespace Lab8085.Yaml

/-- What a node has been made into; the parts of collections are numbers of nodes. Keys have no
    parts and are values. -/
inductive Made where
  | value (v : Value)
  | list (items : List Nat)
  | pairs (entries : List (Nat × Nat))
  | set (keys : List Value)
  | map (entries : List (Value × Nat))

/-- The nodes, what they have been made into so far, and the collections that are to be filled,
    latest first. -/
structure Construction where
  nodes : Array Node
  made : Array (Option Made)
  waiting : List Nat := []

namespace Construction

abbrev Build (α : Type) := StateT Construction Reading α

def refuse {α : Type} (e : Fault := .malformed) : Build α := fun _ => .error e

/-! ## Nodes -/

/-- The tag of a node. -/
def tagOf (nodes : Array Node) (n : Nat) : Tag :=
  match nodes[n]? with
  | some node => node.tag
  | none => .other

/-- What a node holds; a number without a node holds nothing. -/
def bodyOf (nodes : Array Node) (n : Nat) : Body :=
  match nodes[n]? with
  | some node => node.body
  | none => .seq []

/-- The text of a node; a mapping has that of its default value. -/
def textOf (nodes : Array Node) : Nat → Nat → Reading (List Char)
  | 0, _ => .error .tooDeep
  | fuel + 1, n =>
    match bodyOf nodes n with
    | .scalar text => .ok text
    | .seq _ => malformed
    | .map entries =>
      match entries.find? fun e => tagOf nodes e.1 = .default with
      | some e => textOf nodes fuel e.2
      | none => malformed

/-- The value of a node that is no collection. A mapping cannot stand for a timestamp. -/
def scalarValue (nodes : Array Node) (n : Nat) (tag : Tag) : Reading Value := do
  let text ← textOf nodes (nodes.size + 1) n
  match tag, bodyOf nodes n with
  | .timestamp, .map _ => .error .dateKind
  | _, _ => Content.value tag text

/-- Notes what a node has been made into. -/
def note (n : Nat) (m : Made) : Build Unit :=
  modify fun s => { s with made := s.made.setIfInBounds n (some m) }

/-- Begins a collection, which is to be filled. -/
def begin (n : Nat) (m : Made) : Build Made := do
  note n m
  modify fun s => { s with waiting := n :: s.waiting }
  return m

/-- Makes a node into a value, unless that is done. -/
def make (n : Nat) : Build Made := do
  match (← get).made[n]? with
  | some (some m) => return m
  | _ =>
    let nodes := (← get).nodes
    match tagOf nodes n with
    | .seq => begin n (.list [])
    | .orderedMap | .pairs => begin n (.pairs [])
    | .set => begin n (.set [])
    | .map => begin n (.map [])
    | .merge | .default | .other => refuse
    | tag =>
      let m : Made := .value (← scalarValue nodes n tag)
      note n m
      return m

/-- Makes a node into a key; collections are no keys. -/
def makeKey (n : Nat) : Build Value := do
  match ← make n with
  | .value v => return v
  | _ => refuse

/-! ## Merging -/

/-- The entries of a node that must be a mapping. -/
def entriesOf (n : Nat) : Build (List (Nat × Nat)) := do
  match bodyOf (← get).nodes n with
  | .map entries => return entries
  | _ => refuse

def setEntries (n : Nat) (entries : List (Nat × Nat)) : Build Unit :=
  modify fun s => { s with nodes := s.nodes.modify n fun node => { node with body := .map entries } }

def setTag (n : Nat) (tag : Tag) : Build Unit :=
  modify fun s => { s with nodes := s.nodes.modify n fun node => { node with tag := tag } }

/-- The entries that a value offers for merging, once `flatten` has been applied to it: those of a
    mapping, or those of the mappings in a sequence, the last of them first. -/
def offered (flatten : Nat → Build Unit) (n : Nat) : Build (List (Nat × Nat)) := do
  match bodyOf (← get).nodes n with
  | .map _ =>
    flatten n
    entriesOf n
  | .seq items =>
    let found ← items.mapM fun item => do
      let _ ← entriesOf item
      flatten item
      entriesOf item
    return found.reverse.flatten
  | .scalar _ => refuse

/-- Goes through the entries of a mapping from a place on, `steps` of them at most: takes out the
    merge entries and puts what they offer, after `merged`, in front; default keys become text. -/
def flattenFrom (flatten : Nat → Build Unit) (n : Nat) (merged : List (Nat × Nat)) :
    Nat → Nat → Build Unit
  | 0, _ => do setEntries n (merged ++ (← entriesOf n))
  | steps + 1, place => do
    let entries ← entriesOf n
    match entries[place]? with
    | none => setEntries n (merged ++ entries)
    | some (k, v) =>
      match tagOf (← get).nodes k with
      | .merge =>
        setEntries n (entries.eraseIdx place)
        let more ← offered flatten v
        flattenFrom flatten n (merged ++ more) steps place
      | .default =>
        setTag k .str
        flattenFrom flatten n merged steps (place + 1)
      | _ => flattenFrom flatten n merged steps (place + 1)

/-- Whether a mapping has an entry that flattening changes. -/
def needsFlattening (nodes : Array Node) (entries : List (Nat × Nat)) : Bool :=
  entries.any fun e => tagOf nodes e.1 = .merge || tagOf nodes e.1 = .default

/-- Merges into a mapping what its merge entries offer. -/
def flatten : Nat → Nat → Build Unit
  | 0, _ => refuse .tooDeep
  | fuel + 1, n => do
    let entries ← entriesOf n
    if needsFlattening (← get).nodes entries then
      flattenFrom (flatten fuel) n [] entries.length 0

/-! ## Filling -/

/-- The entries of a mapping, each key once. -/
def mapping (n : Nat) : Build (List (Value × Nat)) := do
  let _ ← entriesOf n
  flatten ((← get).nodes.size + 1) n
  let d ← (← entriesOf n).foldlM (fun (d : Dictionary Value Nat) e => do
    let k ← makeKey e.1
    let _ ← make e.2
    return d.insert k e.2) {}
  return d.entries

/-- The items of a node that must be a sequence. -/
def itemsOf (n : Nat) : Build (List Nat) := do
  match bodyOf (← get).nodes n with
  | .seq items => return items
  | _ => refuse

/-- The entry of a mapping that has a single one. -/
def singleEntry (n : Nat) : Build (Nat × Nat) := do
  match ← entriesOf n with
  | [e] =>
    let _ ← make e.1
    let _ ← make e.2
    return e
  | _ => refuse

/-- Fills a collection. -/
def fill (n : Nat) : Build Unit := do
  match tagOf (← get).nodes n with
  | .seq =>
    let items ← itemsOf n
    items.forM fun item => do let _ ← make item
    note n (.list items)
  | .orderedMap | .pairs => note n (.pairs (← (← itemsOf n).mapM singleEntry))
  | .set => note n (.set (SlotTable.arrange ((← mapping n).map (·.1))))
  | .map => note n (.map (← mapping n))
  | _ => refuse

/-- Fills the collections that wait, and those that are begun meanwhile. -/
def fillAll : Nat → Build Unit
  | 0 => return ()
  | fuel + 1 => do
    let waiting := (← get).waiting.reverse
    if !waiting.isEmpty then
      modify fun s => { s with waiting := [] }
      waiting.forM fill
      fillAll fuel

/-- Makes the root of a graph, and all that it holds. -/
def ofGraph (g : Graph) : Reading Construction := do
  let start : Construction := ⟨g.nodes, Array.replicate g.nodes.size none, []⟩
  let build : Build Unit := do
    let _ ← make g.root
    fillAll (g.nodes.size + 1)
  return (← build.run start).2

end Construction

end Lab8085.Yaml
