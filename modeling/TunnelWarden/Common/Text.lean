import Mathlib.Data.List.Basic

/-!
# Text, as the Rust standard library reads it

`str::trim` removes the characters with the Unicode property
`White_Space`, and `str::len` counts UTF-8 bytes. Lean's own
`String.trim` stops at the ASCII blanks, so the first is defined here.
-/

namespace TunnelWarden

/-- `char::is_whitespace`: the Unicode property `White_Space`. -/
def isWhitespace (c : Char) : Bool :=
  let n := c.toNat
  (9 ≤ n && n ≤ 13) || n == 0x20 || n == 0x85 || n == 0xA0 || n == 0x1680 ||
    (0x2000 ≤ n && n ≤ 0x200A) || n == 0x2028 || n == 0x2029 || n == 0x202F || n == 0x205F ||
    n == 0x3000

/-- `str::trim`. -/
def trim (s : String) : String :=
  String.ofList (((s.toList.dropWhile isWhitespace).reverse.dropWhile isWhitespace).reverse)

/-- `str::len`: the length in UTF-8 bytes. -/
def byteLen (s : String) : ℕ := s.utf8ByteSize

/-- `s.chars().take(n).collect()`. -/
def takeChars (n : ℕ) (s : String) : String := String.ofList (s.toList.take n)

/-- `str::to_ascii_lowercase`. -/
def toAsciiLowercase (s : String) : String := String.ofList (s.toList.map Char.toLower)

/-- `str::split_once`, on a character. -/
def splitOnce (sep : Char) : List Char → Option (List Char × List Char)
  | [] => none
  | c :: cs =>
    if c = sep then some ([], cs) else (splitOnce sep cs).map fun (front, rest) => (c :: front, rest)

/-- A line without the carriage return at its end. -/
def stripCarriageReturn (line : List Char) : List Char :=
  if line.getLast? = some '\r' then line.dropLast else line

/-- `str::lines`, with the characters of the current line read so far. -/
def linesFrom : List Char → List Char → List String
  | [], [] => []
  | line, [] => [String.ofList line]
  | line, c :: cs =>
    if c = '\n' then String.ofList (stripCarriageReturn line) :: linesFrom [] cs
    else linesFrom (line ++ [c]) cs

/-- `str::lines`. -/
def strLines (s : String) : List String := linesFrom [] s.toList

/-- The lower-case digits of a number in a radix. -/
def digits (radix n : ℕ) : String := String.ofList (Nat.toDigits radix n)

end TunnelWarden
