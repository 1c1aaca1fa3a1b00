/-
  Lab8085.Symbols

  The labels of a machine's program. A label may be given an address of any kind; it
  labels the place that its address is equal to, if there is one.
-/
import Lab8085.Dictionary
import Lab8085.Value

namespace Lab8085

/-- Label names with their addresses. -/
abbrev Symbols := Dictionary String Value

namespace Symbols

/-- The label of an address: of several names the last. No label is the empty text. -/
def labelAt (s : Symbols) (address : Int) : String :=
  ((s.entries.reverse.find? fun e => e.2.whole? == some address).map (·.1)).getD ""

end Symbols

end Lab8085
