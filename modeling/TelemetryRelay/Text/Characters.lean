/-!
# Classes of characters

The blank characters (Unicode property `White_Space`), trimming, and the test for text that
holds nothing but blanks. Names, keys and units are refused when they are blank.

Classes that are too large to be listed are ranges of code points. They are written as text: code
points in hexadecimal, single ones and the two ends of ranges, with blanks between them.
-/

namespace TelemetryRelay

namespace Text

/-- The characters with the Unicode property `White_Space`. -/
def isBlank (c : Char) : Bool :=
  let n := c.toNat
  (0x09 ≤ n && n ≤ 0x0D) || n == 0x20 || n == 0x85 || n == 0xA0 || n == 0x1680 ||
    (0x2000 ≤ n && n ≤ 0x200A) || n == 0x2028 || n == 0x2029 || n == 0x202F || n == 0x205F ||
    n == 0x3000

/-- The text without its leading and trailing blanks. -/
def trim (s : String) : String :=
  String.ofList (((s.toList.dropWhile isBlank).reverse.dropWhile isBlank).reverse)

/-- Whether nothing but blanks is there; the empty text is blank. -/
def isBlankText (s : String) : Bool := s.toList.all isBlank

/-- Whether a blank occurs anywhere. -/
def hasBlank (s : String) : Bool := s.toList.any isBlank

/-- The letters `A` to `Z` in lower case; every other character as it is. -/
def lowerAscii (s : String) : String :=
  String.ofList (s.toList.map fun c => if 'A' ≤ c ∧ c ≤ 'Z' then Char.ofNat (c.toNat + 32) else c)

end Text

/-! ### Ranges -/

/-- Ranges of code points, both ends included. -/
abbrev Ranges := List (Nat × Nat)

namespace Ranges

/-- The value of hexadecimal digits in upper case. -/
def hexNumber (cs : List Char) : Nat :=
  cs.foldl (fun n c => 16 * n + (if c ≤ '9' then c.toNat - 48 else c.toNat - 55)) 0

/-- The range that a word stands for. -/
def ofWord (cs : List Char) : Nat × Nat :=
  match cs.splitOn '-' with
  | [first, last] => (hexNumber first, hexNumber last)
  | _ => (hexNumber cs, hexNumber cs)

/-- The ranges that a text stands for. -/
def ofText (s : String) : Ranges :=
  ((s.toList.splitOnP Text.isBlank).filter (!·.isEmpty)).map ofWord

/-- Whether a code point lies in one of the ranges. -/
def has (ranges : Ranges) (n : Nat) : Bool := ranges.any fun (first, last) => first ≤ n && n ≤ last

example : ofText "41-5A 5F" = [(0x41, 0x5A), (0x5F, 0x5F)] := by decide

end Ranges

end TelemetryRelay
