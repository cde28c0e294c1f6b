/-
  Chip8.Text.Structural

  The structural text of a value: the name of its case, followed by its fields
  in order. Fields without names stand in parentheses, named ones in braces.
-/

namespace Chip8.Text

/-- A case with fields known by position, such as `Jump(512)`. -/
def positional (head : String) (fields : List String) : String :=
  head ++ "(" ++ ", ".intercalate fields ++ ")"

/-- A case with named fields, each given with the text of its value, such as
    `Draw`, `x: 0`, `y: 1`, `n: 5`. -/
def labelled (head : String) (fields : List (String × String)) : String :=
  head ++ " \x7b " ++ ", ".intercalate (fields.map fun field => field.1 ++ ": " ++ field.2) ++ " \x7d"

/-- One character inside a quoted text. -/
def quotedChar : Char → List Char
  | '"' => ['\\', '"']
  | '\\' => ['\\', '\\']
  | '\n' => ['\\', 'n']
  | '\r' => ['\\', 'r']
  | '\t' => ['\\', 't']
  | c => [c]

/-- A text between double quotes, with quotes, backslashes and line controls
    escaped. -/
def quoted (text : String) : String :=
  String.ofList ('"' :: text.toList.flatMap quotedChar ++ ['"'])

end Chip8.Text
