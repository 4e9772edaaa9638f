/-!
The text of a value: records, tuples, lists and maps written on one line.

A record is its name and its named fields between braces; a record that keeps some fields to
itself ends with two dots. A tuple is its name and its parts between parentheses.
-/
namespace Exchange.Text

/-- Pieces separated by a comma and a blank. -/
def commas (pieces : List String) : String := String.intercalate ", " pieces

/-- A record with all its fields. -/
def record (name : String) (fields : List (String × String)) : String :=
  if fields.isEmpty then name
  else name ++ " \x7b " ++ commas (fields.map fun f => f.1 ++ ": " ++ f.2) ++ " \x7d"

/-- A record of which only some fields are shown. -/
def openRecord (name : String) (fields : List (String × String)) : String :=
  name ++ " \x7b " ++ commas (fields.map (fun f => f.1 ++ ": " ++ f.2) ++ [".."]) ++ " \x7d"

/-- A named tuple. -/
def tuple (name : String) (parts : List String) : String :=
  name ++ "(" ++ commas parts ++ ")"

/-- A list between brackets. -/
def list (items : List String) : String := "[" ++ commas items ++ "]"

/-- A map between braces, its keys and values already in text. -/
def map (entries : List (String × String)) : String :=
  "\x7b" ++ commas (entries.map fun e => e.1 ++ ": " ++ e.2) ++ "\x7d"

/-- An optional value. -/
def optional : Option String → String
  | none => "None"
  | some s => tuple "Some" [s]

/-- A truth value. -/
def flag (b : Bool) : String := if b then "true" else "false"

end Exchange.Text
