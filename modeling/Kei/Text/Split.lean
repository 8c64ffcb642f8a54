/-!
# Parts of a text

A text between occurrences of a character that divides it.
-/

namespace Kei.Text

/-- The parts from a point inside a part on: `ended` holds the parts before it and `read` what was
read of it, both newest first. -/
def splitFrom (divider : Char) (ended : List (List Char)) (read : List Char) :
    List Char → List (List Char)
  | [] => (read.reverse :: ended).reverse
  | c :: cs =>
    if c = divider then splitFrom divider (read.reverse :: ended) [] cs
    else splitFrom divider ended (c :: read) cs

/-- The parts between dividers; at least one, and some may be empty. -/
def split (divider : Char) (cs : List Char) : List (List Char) :=
  splitFrom divider [] [] cs

end Kei.Text
