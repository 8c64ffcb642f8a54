/-!
# Lines of a text

A line ends at a line feed, and a carriage return directly before that line feed belongs to the line
end. What follows the last line feed is a line of its own unless it is empty, and there a final
carriage return is kept.
-/

namespace Kei.Text

/-- A line that was ended by a line feed; `read` holds its characters, newest first. -/
def endedLine (read : List Char) : List Char :=
  match read with
  | '\r' :: rest => rest.reverse
  | read => read.reverse

/-- The lines from a point inside a line on: `ended` holds the lines before it and `read` what was
read of it, both newest first. -/
def linesFrom (ended : List (List Char)) (read : List Char) : List Char → List (List Char)
  | [] => if read.isEmpty then ended.reverse else (read.reverse :: ended).reverse
  | '\n' :: cs => linesFrom (endedLine read :: ended) [] cs
  | c :: cs => linesFrom ended (c :: read) cs

/-- The lines of a text, without their ends. -/
def lines (cs : List Char) : List (List Char) :=
  linesFrom [] [] cs

end Kei.Text
