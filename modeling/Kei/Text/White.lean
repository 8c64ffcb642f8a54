/-!
# White space

The characters with the Unicode property `White_Space`, and trimming by them. Texts are lists of
characters here: every function of the library that looks inside a text works on that view.
-/

namespace Kei.Text

/-- White space is the Unicode property `White_Space`, 25 characters in all. -/
def isWhite (c : Char) : Bool :=
  let n := c.val
  (9 ≤ n && n ≤ 13) || n == 0x20 || n == 0x85 || n == 0xa0 || n == 0x1680 ||
    (0x2000 ≤ n && n ≤ 0x200a) || n == 0x2028 || n == 0x2029 || n == 0x202f || n == 0x205f ||
    n == 0x3000

/-- The text without its leading white space. -/
def trimStart (cs : List Char) : List Char :=
  cs.dropWhile isWhite

/-- The text without its trailing white space. -/
def trimEnd (cs : List Char) : List Char :=
  (cs.reverse.dropWhile isWhite).reverse

/-- The text without white space on either side. -/
def trim (cs : List Char) : List Char :=
  trimEnd (trimStart cs)

/-- How many bytes the characters take in UTF-8. -/
def utf8Size (cs : List Char) : Nat :=
  cs.foldl (fun n c => n + c.utf8Size) 0

end Kei.Text
