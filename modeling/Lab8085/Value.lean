/-
  Lab8085.Value

  Values of configuration documents and of arguments that come without a type: null,
  booleans, numbers, text, bytes, dates and moments, lists, pairs, sets and mappings;
  with their truth, their equality, and the text that messages show for them.
-/
import Lab8085.Calendar
import Lab8085.Number.Limit
import Lab8085.Number.Shortest
import Lab8085.Text.Quoted
import Lab8085.Word

namespace Lab8085

/-- A value. A mapping keeps its entries in order. A document may hold a collection that contains
    itself; its collections are then `marked` with the place in the document that they come
    from. -/
inductive Value where
  | null
  | bool (b : Bool)
  | int (n : Int)
  | float (x : Float)
  | text (s : String)
  | bytes (bs : List Byte)
  | date (d : Date)
  | moment (m : Moment)
  | list (items : List Value)
  | pair (first second : Value)
  | set (items : List Value)
  | map (entries : List (Value × Value))
  | marked (place : Nat × Nat) (v : Value)
  deriving Inhabited

namespace Value

/-- A value without its marks; the marks of its parts stay. -/
def bare : Value → Value
  | .marked _ v => v.bare
  | v => v

/-- False are null, false, zero and everything empty. -/
def truth : Value → Bool
  | .null => false
  | .bool b => b
  | .int n => n != 0
  | .float x => x != 0
  | .text s => s != ""
  | .bytes bs => !bs.isEmpty
  | .date _ | .moment _ | .pair .. => true
  | .list items | .set items => !items.isEmpty
  | .map entries => !entries.isEmpty
  | .marked _ v => v.truth

/-- The number that a value counts as, if it is an integer: a boolean counts as 0 or 1. -/
def asInt? : Value → Option Int
  | .bool b => some b.toNat
  | .int n => some n
  | _ => none

/-- The entries of a mapping. -/
def entries? (v : Value) : Option (List (Value × Value)) :=
  match v.bare with
  | .map entries => some entries
  | _ => none

/-- The items of a list. -/
def items? (v : Value) : Option (List Value) :=
  match v.bare with
  | .list items => some items
  | _ => none

/-! ## Equality -/

/-- The whole number that a value is equal to, if there is one. -/
def whole? : Value → Option Int
  | .float x => Number.whole? x
  | v => v.asInt?

/-- Equality of values that have no parts. Numbers are equal when their values are, whatever
    their kind. -/
def sameAtom (a b : Value) : Bool :=
  match a.whole?, b.whole? with
  | some m, some n => m == n
  | none, none =>
    match a, b with
    | .null, .null => true
    | .float x, .float y => x.toBits == y.toBits
    | .text s, .text t => s == t
    | .bytes bs, .bytes cs => bs == cs
    | .date d, .date e => d == e
    | .moment m, .moment n => m.same n
    | _, _ => false
  | _, _ => false

mutual

/-- Equality of values. Sets and mappings are equal when they hold the same, in any order. -/
def same : Value → Value → Bool
  | .marked _ v, w => same v w
  | .list xs, w =>
    match w.bare with
    | .list ys => sameItems xs ys
    | _ => false
  | .pair a b, w =>
    match w.bare with
    | .pair c d => same a c && same b d
    | _ => false
  | .set xs, w =>
    match w.bare with
    | .set ys => xs.length == ys.length && allAmong ys xs
    | _ => false
  | .map es, w =>
    match w.bare with
    | .map fs => es.length == fs.length && allEntriesAmong fs es
    | _ => false
  | v, w => sameAtom v w.bare

/-- Whether two lists hold equal values in the same order. -/
def sameItems : List Value → List Value → Bool
  | [], [] => true
  | x :: xs, y :: ys => same x y && sameItems xs ys
  | _, _ => false

/-- Whether each of some values is equal to one of `ys`. -/
def allAmong (ys : List Value) : List Value → Bool
  | [] => true
  | x :: xs => ys.any (same x) && allAmong ys xs

/-- Whether each of some entries has an equal one among `fs`. -/
def allEntriesAmong (fs : List (Value × Value)) : List (Value × Value) → Bool
  | [] => true
  | (k, v) :: es => (fs.any fun f => same k f.1 && same v f.2) && allEntriesAmong fs es

end

instance : BEq Value :=
  ⟨same⟩

/-! ## Texts -/

/-- What stands for a collection inside itself. -/
def ellipsis (v : Value) : String :=
  match v.bare with
  | .map _ => "\x7b...\x7d"
  | .pair .. => "(...)"
  | _ => "[...]"

mutual

/-- A value as it is shown inside the collections at the places of `path`. -/
def shownIn (path : List (Nat × Nat)) : Value → String
  | .null => "None"
  | .bool true => "True"
  | .bool false => "False"
  | .int n => toString n
  | .float x => Number.text x
  | .text s => Text.quoted s
  | .bytes bs => Text.quotedBytes (bs.map BitVec.toNat)
  | .date d => d.shown
  | .moment m => m.shown
  | .list items => "[" ++ ", ".intercalate (shownItems path items) ++ "]"
  | .pair a b => "(" ++ shownIn path a ++ ", " ++ shownIn path b ++ ")"
  | .set [] => "set()"
  | .set items => "\x7b" ++ ", ".intercalate (shownItems path items) ++ "\x7d"
  | .map entries => "\x7b" ++ ", ".intercalate (shownEntries path entries) ++ "\x7d"
  | .marked place v => if path.contains place then v.ellipsis else shownIn (place :: path) v

def shownItems (path : List (Nat × Nat)) : List Value → List String
  | [] => []
  | v :: vs => shownIn path v :: shownItems path vs

def shownEntries (path : List (Nat × Nat)) : List (Value × Value) → List String
  | [] => []
  | (k, v) :: es => (shownIn path k ++ ": " ++ shownIn path v) :: shownEntries path es

end

/-- A value as it is shown inside a message, text in quotes. -/
def shown (v : Value) : String :=
  v.shownIn []

/-- A value as plain text: text, dates and moments stand for themselves. -/
def plain : Value → String
  | .text s => s
  | .date d => d.text
  | .moment m => m.text
  | v => v.shown

mutual

/-- Whether no integer in a value is too long to be shown inside the collections at the places of
    `path`. -/
def showableIn (path : List (Nat × Nat)) : Value → Bool
  | .int n => !Number.tooLong n
  | .list items | .set items => showableItems path items
  | .pair a b => showableIn path a && showableIn path b
  | .map entries => showableEntries path entries
  | .marked place v => path.contains place || showableIn (place :: path) v
  | _ => true

def showableItems (path : List (Nat × Nat)) : List Value → Bool
  | [] => true
  | v :: vs => showableIn path v && showableItems path vs

def showableEntries (path : List (Nat × Nat)) : List (Value × Value) → Bool
  | [] => true
  | (k, v) :: es => showableIn path k && showableIn path v && showableEntries path es

end

/-- Whether no integer in a value is too long to be shown. -/
def showable (v : Value) : Bool :=
  v.showableIn []

end Value

end Lab8085
