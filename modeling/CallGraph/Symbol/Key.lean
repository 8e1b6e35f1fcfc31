/-!
# Symbol keys

A symbol that every compilation unit sees is known by its bare name.  A symbol of one compilation
unit is known by its name, the separator and the origin of that unit: `count@src/list.c`.  The
first separator ends the name, so an origin may hold further ones.
-/

namespace CallGraph

/-- What a symbol is known by in the table. -/
abbrev Key := String

/-- The path of a compilation unit below the scanned directory. -/
abbrev Origin := String

namespace Key

/-- What divides the symbol from the origin in a private key. -/
def separator : Char := '@'

/-- A private key carries an origin. -/
def isPrivate (key : Key) : Bool :=
  key.toList.contains separator

/-- The key of a symbol that only one compilation unit sees. -/
def inOrigin (symbol : String) (origin : Origin) : Key :=
  symbol ++ "@" ++ origin

/-- A key without its origin. -/
def bare (key : Key) : String :=
  String.ofList (key.toList.takeWhile (· != separator))

/-- The public and the private key that a symbol or a key may stand for in an origin. -/
def readings (token : String) (origin : Origin) : Key × Key :=
  if isPrivate token then (bare token, token) else (token, inOrigin token origin)

end Key

end CallGraph
