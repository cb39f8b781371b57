/-!
# Blank characters

The white space of the Unicode standard: the twenty-five characters with the property
`White_Space`. Settings are trimmed of it on both sides, and the fields of a status line are
separated by it. ASCII blanks alone would not do: a setting may come with a no-break space.
-/

namespace TensorJit.Text

/-- The code points with the property `White_Space`. -/
def blankPoints : List Nat :=
  [0x09, 0x0a, 0x0b, 0x0c, 0x0d, 0x20, 0x85, 0xa0, 0x1680, 0x2000, 0x2001, 0x2002, 0x2003,
    0x2004, 0x2005, 0x2006, 0x2007, 0x2008, 0x2009, 0x200a, 0x2028, 0x2029, 0x202f, 0x205f,
    0x3000]

/-- Whether `c` is white space. -/
def isBlank (c : Char) : Bool := blankPoints.contains c.toNat

/-- The text without the blanks at either end. -/
def trim (text : List Char) : List Char :=
  ((text.dropWhile isBlank).reverse.dropWhile isBlank).reverse

/-- The first run of characters that are not blank, if there is one. -/
def firstField? (text : List Char) : Option (List Char) :=
  match (text.dropWhile isBlank).takeWhile fun c => !isBlank c with
  | [] => none
  | field => some field

/-- The text cut at every line feed. -/
def splitLines : List Char → List (List Char)
  | [] => [[]]
  | '\n' :: rest => [] :: splitLines rest
  | c :: rest =>
    match splitLines rest with
    | [] => [[c]]
    | line :: lines => (c :: line) :: lines

end TensorJit.Text
