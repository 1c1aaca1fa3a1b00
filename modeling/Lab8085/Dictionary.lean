/-
  Lab8085.Dictionary

  Dictionaries that keep the order in which keys first came: a key that comes again
  gets the new value and keeps its place.
-/

namespace Lab8085

/-- Keys with their values, each key once when built by `insert`. -/
structure Dictionary (κ α : Type) where
  entries : List (κ × α) := []

namespace Dictionary

variable {κ α : Type} [BEq κ]

/-- Gives a key a value in a list of entries. -/
def insertEntry (k : κ) (v : α) : List (κ × α) → List (κ × α)
  | [] => [(k, v)]
  | e :: es => if e.1 == k then (e.1, v) :: es else e :: insertEntry k v es

def insert (d : Dictionary κ α) (k : κ) (v : α) : Dictionary κ α :=
  ⟨insertEntry k v d.entries⟩

def find? (d : Dictionary κ α) (k : κ) : Option α :=
  d.entries.lookup k

/-- The dictionary of a list of entries, later values taking over. -/
def ofList (es : List (κ × α)) : Dictionary κ α :=
  es.foldl (fun d e => d.insert e.1 e.2) {}

end Dictionary

/-- Entries with text keys in the order of their keys, by code points. -/
def sortByName {α : Type} (es : List (String × α)) : List (String × α) :=
  es.mergeSort fun a b => !decide (b.1 < a.1)

end Lab8085
