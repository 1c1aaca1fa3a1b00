/-
  Lab8085.Yaml.Document

  Documents: the value that a text describes. A node that aliases name is one value
  in several places. A collection that contains itself has no finite value; it is
  unfolded as far as anybody looks who goes down to some part and shows that part.
-/
import Lab8085.Yaml.Construction
import Lab8085.Yaml.Layout

namespace Lab8085.Yaml

namespace Made

/-- Values of nodes that are known already. -/
abbrev Known := Array (Option Value)

/-- The value of a node of a document without cycles, to a depth of `fuel`. -/
def settle (made : Array (Option Made)) : Nat → Nat → StateM Known Value
  | 0, _ => return .null
  | fuel + 1, n => do
    match (← get)[n]? with
    | some (some v) => return v
    | _ =>
      let v ← match made[n]? with
        | some (some (.value v)) => pure v
        | some (some (.list items)) => do pure (.list (← items.mapM (settle made fuel)))
        | some (some (.pairs entries)) => do
          let ps ← entries.mapM fun e => do
            let a ← settle made fuel e.1
            let b ← settle made fuel e.2
            pure (Value.pair a b)
          pure (.list ps)
        | some (some (.set keys)) => pure (.set keys)
        | some (some (.map entries)) => do
          let es ← entries.mapM fun e => do
            let v ← settle made fuel e.2
            pure (e.1, v)
          pure (.map es)
        | _ => pure .null
      modify fun known => known.setIfInBounds n (some v)
      return v

/-! ## Cycles -/

/-- How many places of collections a node stands for. -/
def places : Made → Nat
  | .value _ => 0
  | .pairs entries => entries.length + 1
  | _ => 1

/-- The value of the node numbered `n`, marked with its place, from values of its parts. -/
def marked (values : Array Value) (n : Nat) (m : Made) : Value :=
  let part (k : Nat) : Value := values[k]?.getD .null
  match m with
  | .value v => v
  | .list items => .marked (n, 0) (.list (items.map part))
  | .pairs entries =>
    let ps := entries.zipIdx.map fun (e, i) =>
      Value.marked (n, i + 1) (.pair (part e.1) (part e.2))
    .marked (n, 0) (.list ps)
  | .set keys => .marked (n, 0) (.set keys)
  | .map entries => .marked (n, 0) (.map (entries.map fun e => (e.1, part e.2)))

/-- The values of all nodes, unfolded some levels further. -/
def unfold (made : Array (Option Made)) : Nat → Array Value → Array Value
  | 0, values => values
  | levels + 1, values =>
    unfold made levels (made.mapIdx fun n m => (m.map (marked values n)).getD .null)

/-- How many levels of a document are looked at before a part of it is shown. -/
def levelsAbove : Nat := 8

/-- The value of a node of a document with cycles. A part is shown up to the first collection that
    contains itself, so no path is longer than the number of collections. -/
def unfolded (made : Array (Option Made)) (n : Nat) : Value :=
  let levels := made.foldl (fun k m => k + (m.map places).getD 0) levelsAbove
  (unfold made levels (Array.replicate made.size .null))[n]?.getD .null

end Made

/-- The value of a graph's root. -/
def Graph.value (g : Graph) : Reading Value := do
  let made := (← Construction.ofGraph g).made
  if g.cyclic then return Made.unfolded made g.root
  else
    return (Made.settle made (g.nodes.size + 1) g.root (Array.replicate g.nodes.size none)).1

/-- The value of the only document of a text. Without a document it is null. -/
def read (text : String) : Reading Value := do
  match ← Graph.ofTokens (Token.ofText text.toList) with
  | none => return .null
  | some g => g.value

end Lab8085.Yaml
