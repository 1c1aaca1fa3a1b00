/-
  Lab8085.Access

  Records of bus traffic. A record keeps the address (or port) and the data byte as
  numbers, as they stood on the bus.
-/
import Lab8085.Text.Hex

namespace Lab8085

/-- The four kinds of bus access. -/
inductive AccessKind where
  | read | write | portIn | portOut
  deriving DecidableEq, Repr

/-- One access. -/
structure Access where
  kind : AccessKind
  address : Int
  data : Int
  deriving DecidableEq, Repr

namespace Access

/-- An access in short: its letter, the address or port, the data. -/
def text (x : Access) : String :=
  let data := "=" ++ Text.hex 2 x.data
  match x.kind with
  | .read => "R" ++ Text.hex 4 x.address ++ data
  | .write => "W" ++ Text.hex 4 x.address ++ data
  | .portIn => "I" ++ Text.hex 2 x.address ++ data
  | .portOut => "O" ++ Text.hex 2 x.address ++ data

/-- Accesses in order, a space between neighbours. -/
def listText (xs : List Access) : String :=
  " ".intercalate (xs.map text)

end Access

end Lab8085
