/-!
# Lines

Two ways to cut a text into lines.  `splitLines` cuts at every line boundary: line feed, carriage
return, their pair, vertical tab, form feed, the information separators, next line, and the line
and paragraph separators.  `fileLines` cuts as a text file is read: a carriage return, alone or
before a line feed, is a line feed, and nothing else ends a line.
-/

namespace CallGraph.Text

/-- A character at which a text may be cut into lines. -/
def isLineBreak (c : Char) : Bool :=
  let code := c.toNat
  (0x0A ≤ code && code ≤ 0x0D) || (0x1C ≤ code && code ≤ 0x1E) || code == 0x85 ||
    code == 0x2028 || code == 0x2029

/-- Cut at every line boundary; `line` holds the current line backwards. -/
def splitLinesFrom (line : List Char) : List Char → List (List Char)
  | [] => if line.isEmpty then [] else [line.reverse]
  | '\r' :: '\n' :: rest => line.reverse :: splitLinesFrom [] rest
  | letter :: rest =>
      if isLineBreak letter then line.reverse :: splitLinesFrom [] rest
      else splitLinesFrom (letter :: line) rest

/-- The lines of a text, without their boundaries. -/
def splitLines (text : String) : List String :=
  (splitLinesFrom [] text.toList).map String.ofList

/-- A carriage return, alone or before a line feed, becomes a line feed. -/
def unifyNewlines : List Char → List Char
  | [] => []
  | '\r' :: '\n' :: rest => '\n' :: unifyNewlines rest
  | letter :: rest => (if letter == '\r' then '\n' else letter) :: unifyNewlines rest

/-- The text of a file as a reader of text files sees it. -/
def fileText (text : String) : String :=
  String.ofList (unifyNewlines text.toList)

/-- Cut at line feeds only; `line` holds the current line backwards. -/
def feedLinesFrom (line : List Char) : List Char → List (List Char)
  | [] => if line.isEmpty then [] else [line.reverse]
  | letter :: rest =>
      if letter == '\n' then line.reverse :: feedLinesFrom [] rest
      else feedLinesFrom (letter :: line) rest

/-- The lines of a text file, without their line feeds. -/
def fileLines (text : String) : List String :=
  (feedLinesFrom [] (unifyNewlines text.toList)).map String.ofList

end CallGraph.Text
