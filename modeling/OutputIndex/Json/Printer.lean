import OutputIndex.Json.Basic

/-!
# Writing JSON text

A document has a compact form, without any blanks, and an indented form with two spaces a level.
Text is written as it is but for quotes, backslashes and control characters.
-/

namespace OutputIndex.Json

/-- A character inside a text literal. -/
def escape (c : Char) : String :=
  if c = '"' then "\\\""
  else if c = '\\' then "\\\\"
  else if c = '\n' then "\\n"
  else if c = '\r' then "\\r"
  else if c = '\t' then "\\t"
  else if c.toNat = 8 then "\\b"
  else if c.toNat = 12 then "\\f"
  else if c.toNat < 16 then "\\u000" ++ String.ofList (Nat.toDigits 16 c.toNat)
  else if c.toNat < 32 then "\\u00" ++ String.ofList (Nat.toDigits 16 c.toNat)
  else String.singleton c

/-- A text literal. -/
def quote (text : String) : String := "\"" ++ String.join (text.toList.map escape) ++ "\""

mutual

/-- The form without blanks. -/
def compact : Json → String
  | .null => "null"
  | .bool true => "true"
  | .bool false => "false"
  | .natural value => toString value
  | .otherNumber lexeme => lexeme
  | .text value => quote value
  | .unreadable => quote ""
  | .array elements => "[" ++ ",".intercalate (compactElements elements) ++ "]"
  | .object members => "\x7b" ++ ",".intercalate (compactMembers members) ++ "\x7d"

/-- The elements of an array, each without blanks. -/
def compactElements : List Json → List String
  | [] => []
  | element :: rest => element.compact :: compactElements rest

/-- The members of an object, each without blanks. -/
def compactMembers : List (Option String × Json) → List String
  | [] => []
  | (name, value) :: rest =>
    (quote (name.getD "") ++ ":" ++ value.compact) :: compactMembers rest

end

/-- The line break before a line that is indented `depth` levels. -/
def newline (depth : Nat) : String := "\n" ++ String.ofList (List.replicate (2 * depth) ' ')

/-- Lines between two brackets; no lines leave the brackets on one line. -/
def bracket (opening closing : String) (depth : Nat) (lines : List String) : String :=
  if lines.isEmpty then opening ++ closing
  else
    opening ++ newline (depth + 1) ++ ("," ++ newline (depth + 1)).intercalate lines
      ++ newline depth ++ closing

mutual

/-- The form with a line for each element and member, from `depth` levels on. -/
def indented (depth : Nat) : Json → String
  | .null => "null"
  | .bool true => "true"
  | .bool false => "false"
  | .natural value => toString value
  | .otherNumber lexeme => lexeme
  | .text value => quote value
  | .unreadable => quote ""
  | .array elements => bracket "[" "]" depth (indentedElements (depth + 1) elements)
  | .object members => bracket "\x7b" "\x7d" depth (indentedMembers (depth + 1) members)

/-- The elements of an array, each in its indented form. -/
def indentedElements (depth : Nat) : List Json → List String
  | [] => []
  | element :: rest => element.indented depth :: indentedElements depth rest

/-- The members of an object, each in its indented form. -/
def indentedMembers (depth : Nat) : List (Option String × Json) → List String
  | [] => []
  | (name, value) :: rest =>
    (quote (name.getD "") ++ ": " ++ value.indented depth) :: indentedMembers depth rest

end

/-- The indented form of a whole document. -/
def pretty (json : Json) : String := json.indented 0

end OutputIndex.Json
