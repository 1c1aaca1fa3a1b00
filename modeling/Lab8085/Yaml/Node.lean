/-
  Lab8085.Yaml.Node

  The graph that tokens describe: nodes with their tags. Nodes have numbers in the
  order in which they begin, and collections name their parts by number, so that an
  alias is the number of the node that it stands for. A text holds at most one
  document.
-/
import Lab8085.Yaml.Tag
import Lab8085.Yaml.Token

namespace Lab8085.Yaml

/-- What a node holds; the parts of collections are numbers of nodes. -/
inductive Body where
  | scalar (text : List Char)
  | seq (items : List Nat)
  | map (entries : List (Nat × Nat))

/-- A node of a document. -/
structure Node where
  tag : Tag
  body : Body

/-- The nodes of a document by number, and the number of the root. It is `cyclic` when an alias
    stands inside the collection that it names. -/
structure Graph where
  nodes : Array Node
  root : Nat
  cyclic : Bool

namespace Graph

/-! ## Reading tokens -/

/-- The tokens that are left, the nodes so far (none for one whose end is not reached), the
    numbers of the anchored ones, the handles that abbreviate tags, and whether an alias was found
    inside the collection that it names. -/
structure Draft where
  tokens : List Token
  nodes : Array (Option Node) := #[]
  anchors : List (List Char × Nat) := []
  handles : List (List Char × List Char) := []
  cyclic : Bool := false

abbrev Read (α : Type) := StateT Draft Reading α

/-- The next token; a fault in its place ends the reading. -/
def peek : Read Token := fun d =>
  match d.tokens with
  | [] => .ok (.streamEnd, d)
  | .fault e :: _ => .error e
  | t :: _ => .ok (t, d)

def skip : Read Unit := modify fun d => { d with tokens := d.tokens.tail }

/-- The text is not well formed. -/
def refuse {α : Type} : Read α := fun _ => malformed

/-- Whether the next token is one of those that `p` describes. -/
def next (p : Token → Bool) : Read Bool := return p (← peek)

/-- Passes a token that must come now. -/
def expect (p : Token → Bool) : Read Unit := do
  if ← next p then skip else refuse

/-! ## Token classes -/

def isBlockEntry : Token → Bool | .blockEntry => true | _ => false
def isBlockEnd : Token → Bool | .blockEnd => true | _ => false
def isKey : Token → Bool | .key => true | _ => false
def isValue : Token → Bool | .value => true | _ => false
def isFlowEntry : Token → Bool | .flowEntry => true | _ => false
def isSequenceEnd : Token → Bool | .flowSequenceEnd => true | _ => false
def isMappingEnd : Token → Bool | .flowMappingEnd => true | _ => false
def isStreamEnd : Token → Bool | .streamEnd => true | _ => false
def isDocumentStart : Token → Bool | .documentStart => true | _ => false
def isDocumentEnd : Token → Bool | .documentEnd => true | _ => false
def isDirective : Token → Bool
  | .versionDirective _ | .tagDirective .. | .otherDirective => true
  | _ => false

/-! ## Nodes of the graph -/

/-- Begins a node: it gets the next number, and its anchor, if any, names it from now on. -/
def beginNode (anchor : Option (List Char)) : Read Nat := fun d =>
  let n := d.nodes.size
  let d := { d with nodes := d.nodes.push none }
  match anchor with
  | none => .ok (n, d)
  | some a => .ok (n, { d with anchors := (a, n) :: d.anchors })

/-- Completes a node. -/
def endNode (n : Nat) (node : Node) : Read Nat := fun d =>
  .ok (n, { d with nodes := d.nodes.setIfInBounds n (some node) })

/-- A node that is complete at once. -/
def scalarNode (anchor : Option (List Char)) (tag : Tag) (text : List Char) : Read Nat := do
  endNode (← beginNode anchor) ⟨tag, .scalar text⟩

/-- The scalar that is not written. -/
def emptyNode : Read Nat :=
  scalarNode none .null []

/-- The node that an alias stands for. -/
def aliased (name : List Char) : Read Nat := fun d =>
  match d.anchors.lookup name with
  | none => malformed
  | some n =>
    match d.nodes[n]? with
    | some (some _) => .ok (n, d)
    | _ => .ok (n, { d with cyclic := true })

/-! ## Properties -/

/-- The full name of a tag. -/
def fullName (name : TagName) : Read (List Char) := do
  match name.handle with
  | none => return name.suffix
  | some h =>
    match (← get).handles.lookup h with
    | some start => return start ++ name.suffix
    | none => refuse

def tag? : Read (Option TagName) := do
  match ← peek with
  | .tag name =>
    skip
    return some name
  | _ => return none

def anchor? : Read (Option (List Char)) := do
  match ← peek with
  | .anchor name =>
    skip
    return some name
  | _ => return none

/-- Anchor and tag of a node, in either order. -/
structure Properties where
  anchor : Option (List Char)
  tag : Option (List Char)

def properties : Read Properties := do
  let first ← anchor?
  let name ← tag?
  let anchor ← if first.isNone && name.isSome then anchor? else pure first
  match name with
  | none => return ⟨anchor, none⟩
  | some name => return ⟨anchor, some (← fullName name)⟩

namespace Properties

/-- Whether a node with these properties may have no content. -/
def any (p : Properties) : Bool :=
  p.anchor.isSome || p.tag.isSome

/-- The tag that leaves the choice to the node. -/
def nonSpecific : List Char := ['!']

/-- The tag of a collection. -/
def collectionTag (p : Properties) (usual : Tag) : Tag :=
  match p.tag with
  | none => usual
  | some t => if t = nonSpecific then usual else .ofName t

/-- The tag of a scalar: a plain one is tagged by its text unless a tag is written. -/
def scalarTag (p : Properties) (plain : Bool) (text : List Char) : Tag :=
  match p.tag with
  | none => if plain then .ofPlain text else .str
  | some t => if t = nonSpecific then .ofPlain text else .ofName t

end Properties

/-- No anchor names two nodes. -/
def checkAnchor (p : Properties) : Read Unit := do
  match p.anchor with
  | none => return ()
  | some a => if ((← get).anchors.lookup a).isSome then refuse

/-- A node without content. -/
def blankNode (p : Properties) : Read Nat :=
  if p.any then do
    checkAnchor p
    scalarNode p.anchor (p.scalarTag true []) []
  else refuse

/-- How many collections may stand inside each other. -/
def nestingLimit : Nat := 488

/-- A collection node whose parts `rest` reads. -/
def collection (p : Properties) (room : Nat) (rest : Nat → Read Nat) : Read Nat := do
  checkAnchor p
  if room = 0 then fun _ => .error .tooDeep
  else rest (← beginNode p.anchor)

/-! ## Grammar

Loops over the parts of a collection keep the parts so far, latest first. `room` tells how many
more collections may be nested, and `fuel` bounds the steps. -/

mutual

/-- A node. `block` nodes may be block collections; after a key or value mark a sequence may
    begin without indentation (`level`). -/
def node (block level : Bool) (room : Nat) : Nat → Read Nat
  | 0 => refuse
  | fuel + 1 => do
    match ← peek with
    | .alias name =>
      skip
      aliased name
    | _ =>
      let p ← properties
      match ← peek with
      | .blockEntry =>
        if level then collection p room fun n => do
          endNode n ⟨p.collectionTag .seq, .seq (← levelItems (room - 1) [] fuel)⟩
        else blankNode p
      | .scalar text plain =>
        skip
        checkAnchor p
        scalarNode p.anchor (p.scalarTag plain text) text
      | .flowSequenceStart => collection p room fun n => do
        skip
        endNode n ⟨p.collectionTag .seq, .seq (← flowItems (room - 1) [] fuel)⟩
      | .flowMappingStart => collection p room fun n => do
        skip
        endNode n ⟨p.collectionTag .map, .map (← flowEntries (room - 1) [] fuel)⟩
      | .blockSequenceStart =>
        if block then collection p room fun n => do
          skip
          endNode n ⟨p.collectionTag .seq, .seq (← blockItems (room - 1) [] fuel)⟩
        else blankNode p
      | .blockMappingStart =>
        if block then collection p room fun n => do
          skip
          endNode n ⟨p.collectionTag .map, .map (← blockEntries (room - 1) [] fuel)⟩
        else blankNode p
      | _ => blankNode p
termination_by structural fuel => fuel

/-- The items of a block sequence. -/
def blockItems (room : Nat) (acc : List Nat) : Nat → Read (List Nat)
  | 0 => refuse
  | fuel + 1 => do
    if ← next isBlockEntry then
      skip
      let n ← if ← next fun t => isBlockEntry t || isBlockEnd t then emptyNode
        else node true false room fuel
      blockItems room (n :: acc) fuel
    else
      expect isBlockEnd
      return acc.reverse
termination_by structural fuel => fuel

/-- The items of a sequence that is not indented. -/
def levelItems (room : Nat) (acc : List Nat) : Nat → Read (List Nat)
  | 0 => refuse
  | fuel + 1 => do
    if ← next isBlockEntry then
      skip
      let n ← if ← next fun t => isBlockEntry t || isKey t || isValue t || isBlockEnd t then
          emptyNode
        else node true false room fuel
      levelItems room (n :: acc) fuel
    else return acc.reverse
termination_by structural fuel => fuel

/-- The entries of a block mapping. -/
def blockEntries (room : Nat) (acc : List (Nat × Nat)) : Nat → Read (List (Nat × Nat))
  | 0 => refuse
  | fuel + 1 => do
    let ends (t : Token) : Bool := isKey t || isValue t || isBlockEnd t
    if ← next isKey then
      skip
      let k ← if ← next ends then emptyNode else node true true room fuel
      let v ← if ← next isValue then do
          skip
          if ← next ends then emptyNode else node true true room fuel
        else emptyNode
      blockEntries room ((k, v) :: acc) fuel
    else
      expect isBlockEnd
      return acc.reverse
termination_by structural fuel => fuel

/-- The items of a sequence in brackets; an entry mark stands between them, and may stand at the
    end. A key mark makes an item a mapping with one entry. -/
def flowItems (room : Nat) (acc : List Nat) : Nat → Read (List Nat)
  | 0 => refuse
  | fuel + 1 => do
    if ← next isSequenceEnd then
      skip
      return acc.reverse
    else
      if !acc.isEmpty then expect isFlowEntry
      if ← next isKey then
        let n ← collection ⟨none, none⟩ room fun n => do
          skip
          let e ← flowEntry isSequenceEnd (room - 1) fuel
          endNode n ⟨.map, .map [e]⟩
        flowItems room (n :: acc) fuel
      else if ← next isSequenceEnd then
        skip
        return acc.reverse
      else
        let n ← node false false room fuel
        flowItems room (n :: acc) fuel
termination_by structural fuel => fuel

/-- The entries of a mapping in braces; a node without a value has an empty one. -/
def flowEntries (room : Nat) (acc : List (Nat × Nat)) : Nat → Read (List (Nat × Nat))
  | 0 => refuse
  | fuel + 1 => do
    if ← next isMappingEnd then
      skip
      return acc.reverse
    else
      if !acc.isEmpty then expect isFlowEntry
      if ← next isKey then
        skip
        let e ← flowEntry isMappingEnd room fuel
        flowEntries room (e :: acc) fuel
      else if ← next isMappingEnd then
        skip
        return acc.reverse
      else
        let k ← node false false room fuel
        let v ← emptyNode
        flowEntries room ((k, v) :: acc) fuel
termination_by structural fuel => fuel

/-- The entry after a key mark in brackets or braces. -/
def flowEntry (closes : Token → Bool) (room : Nat) : Nat → Read (Nat × Nat)
  | 0 => refuse
  | fuel + 1 => do
    let k ← if ← next fun t => isValue t || isFlowEntry t || closes t then emptyNode
      else node false false room fuel
    if ← next isValue then
      skip
      let v ← if ← next fun t => isFlowEntry t || closes t then emptyNode
        else node false false room fuel
      return (k, v)
    else return (k, ← emptyNode)
termination_by structural fuel => fuel

end

/-! ## Documents -/

/-- The handles that need no directive. -/
def standardHandles : List (List Char × List Char) :=
  [(['!'], ['!']), (['!', '!'], Tag.base)]

/-- The directives before a document: at most one version, which must be 1, and one value for
    each handle. -/
def directives (version : Bool) : Nat → Read Unit
  | 0 => refuse
  | fuel + 1 => do
    match ← peek with
    | .versionDirective major =>
      skip
      if version || major != 1 then refuse
      directives true fuel
    | .tagDirective handle value =>
      skip
      if ((← get).handles.lookup handle).isSome then refuse
      modify fun d => { d with handles := (handle, value) :: d.handles }
      directives version fuel
    | .otherDirective =>
      skip
      directives version fuel
    | _ =>
      modify fun d => { d with handles := d.handles ++ standardHandles }

/-- Passes any marks of a document's end. -/
def skipEnds : Nat → Read Unit
  | 0 => refuse
  | fuel + 1 => do
    if ← next isDocumentEnd then
      skip
      skipEnds fuel

/-- A document: `none` when the text holds none. -/
def document? (fuel : Nat) : Read (Option Nat) := do
  if ← next fun t => isDirective t || isDocumentStart t || isStreamEnd t then
    skipEnds fuel
    if ← next isStreamEnd then return none
    directives false fuel
    expect isDocumentStart
    if ← next fun t => isDirective t || isDocumentStart t || isDocumentEnd t || isStreamEnd t then
      return some (← emptyNode)
    else return some (← node true false nestingLimit fuel)
  else
    modify fun d => { d with handles := standardHandles }
    return some (← node true false nestingLimit fuel)

/-- The only document of the tokens. Nothing may follow it but marks of its end; what follows is
    refused, after its directives. -/
def single (fuel : Nat) : Read (Option Nat) := do
  let n ← document? fuel
  skipEnds fuel
  if ← next isStreamEnd then return n
  modify fun d => { d with handles := [] }
  directives false fuel
  refuse

/-- The graph that tokens describe; without a document there is none. -/
def ofTokens (tokens : List Token) : Reading (Option Graph) :=
  match single (4 * tokens.length + 16) { tokens := tokens } with
  | .error e => .error e
  | .ok (none, _) => .ok none
  | .ok (some root, d) =>
    .ok (some ⟨d.nodes.map fun n => n.getD ⟨.null, .scalar []⟩, root, d.cyclic⟩)

end Graph

end Lab8085.Yaml
