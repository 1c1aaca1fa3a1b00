/-
  Lab8085.Text.Blank

  White space in source text and configuration values: which characters are blank,
  trimming at both ends, and division into words. A word is a maximal run of
  characters that are not blank.
-/

namespace Lab8085.Text

/-- Membership of a code point in a list of inclusive ranges. -/
def inRanges (ranges : List (Nat × Nat)) (n : Nat) : Bool :=
  ranges.any fun r => r.1 ≤ n && n ≤ r.2

/-- Blank characters: the ASCII and Latin-1 spaces and controls that separate text, and the
    spaces and line separators of the general punctuation block. -/
def blankRanges : List (Nat × Nat) :=
  [(0x09, 0x0D), (0x1C, 0x20), (0x85, 0x85), (0xA0, 0xA0), (0x1680, 0x1680), (0x2000, 0x200A),
   (0x2028, 0x2029), (0x202F, 0x202F), (0x205F, 0x205F), (0x3000, 0x3000)]

def isBlank (c : Char) : Bool :=
  inRanges blankRanges c.toNat

/-- The text without the characters at both ends that satisfy `p`. -/
def trimWhere (p : Char → Bool) (s : List Char) : List Char :=
  ((s.dropWhile p).reverse.dropWhile p).reverse

/-- The text without the blanks before its first and after its last visible character. -/
def trim (s : List Char) : List Char :=
  trimWhere isBlank s

/-- Puts a possibly empty word in front of a list of words. -/
def consWord (w : List Char) (ws : List (List Char)) : List (List Char) :=
  if w.isEmpty then ws else w :: ws

/-- The word that starts the text (empty before a blank or at the end), and the words after it. -/
def splitWord : List Char → List Char × List (List Char)
  | [] => ([], [])
  | c :: r =>
    let (w, ws) := splitWord r
    if isBlank c then ([], consWord w ws) else (c :: w, ws)

/-- The words of a text, in order. -/
def words (s : List Char) : List (List Char) :=
  let (w, ws) := splitWord s
  consWord w ws

/-- Pieces of text with one space between neighbours. -/
def joinWords : List (List Char) → List Char
  | [] => []
  | [w] => w
  | w :: ws => w ++ ' ' :: joinWords ws

/-! ## Small laws -/

theorem words_nil : words [] = [] := rfl

theorem splitWord_cons_blank {c : Char} (h : isBlank c = true) (r : List Char) :
    splitWord (c :: r) = ([], words r) := by
  simp [splitWord, words, h]

theorem splitWord_cons_visible {c : Char} (h : isBlank c = false) (r : List Char) :
    splitWord (c :: r) = (c :: (splitWord r).1, (splitWord r).2) := by
  simp [splitWord, h]

/-- A leading blank adds no word. -/
theorem words_cons_blank {c : Char} (h : isBlank c = true) (r : List Char) :
    words (c :: r) = words r := by
  simp [words, splitWord, consWord, h]

end Lab8085.Text
