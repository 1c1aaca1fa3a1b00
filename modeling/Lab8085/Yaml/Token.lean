/-
  Lab8085.Yaml.Token

  Tokens of YAML text. Indentation shows as tokens too: the start of a block
  sequence or mapping and its end.
-/
import Lab8085.Yaml.Fault

namespace Lab8085.Yaml

/-- A tag as it is written: with the handle that abbreviates its beginning, or in full. -/
structure TagName where
  handle : Option (List Char)
  suffix : List Char

/-- A token. A scalar is plain when it is written without quotes and not as a block. The text
    has no tokens beyond a `fault`. -/
inductive Token where
  | fault (e : Fault)
  | streamEnd
  | versionDirective (major : Nat)
  | tagDirective (handle value : List Char)
  | otherDirective
  | documentStart
  | documentEnd
  | blockSequenceStart
  | blockMappingStart
  | blockEnd
  | flowSequenceStart
  | flowSequenceEnd
  | flowMappingStart
  | flowMappingEnd
  | blockEntry
  | flowEntry
  | key
  | value
  | alias (name : List Char)
  | anchor (name : List Char)
  | tag (name : TagName)
  | scalar (text : List Char) (plain : Bool)
  deriving Inhabited

end Lab8085.Yaml
