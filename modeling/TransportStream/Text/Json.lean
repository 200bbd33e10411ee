import TransportStream.Text.Hex

/-!
# JSON text

Values are written either on one line without spaces, or over several lines with
two spaces for each level.  Members keep the order in which they are given.
-/

namespace TransportStream

inductive Json where
  | number (n : Nat)
  | bool (b : Bool)
  | text (s : String)
  | array (items : List Json)
  | object (members : List (String × Json))

namespace Json

def escape (c : Char) : String :=
  if c = '"' then "\\\""
  else if c = '\\' then "\\\\"
  else if c = '\n' then "\\n"
  else if c = '\r' then "\\r"
  else if c = '\t' then "\\t"
  else if c.toNat = 8 then "\\b"
  else if c.toNat = 12 then "\\f"
  else if c.toNat < 32 then "\\u" ++ Text.padded 16 4 c.toNat
  else c.toString

def quoted (s : String) : String :=
  "\"" ++ String.join (s.toList.map escape) ++ "\""

def ofBool (b : Bool) : String :=
  if b then "true" else "false"

def opened : String := "\x7b"

def closed : String := "\x7d"

mutual

def compact : Json -> String
  | .number n => toString n
  | .bool b => ofBool b
  | .text s => quoted s
  | .array items => "[" ++ String.intercalate "," (compactItems items) ++ "]"
  | .object members =>
      opened ++ String.intercalate "," (compactMembers members) ++ closed

def compactItems : List Json -> List String
  | [] => []
  | item :: rest => compact item :: compactItems rest

def compactMembers : List (String × Json) -> List String
  | [] => []
  | (key, value) :: rest =>
      (quoted key ++ ":" ++ compact value) :: compactMembers rest

end

def newLine (level : Nat) : String :=
  "\n" ++ String.ofList (List.replicate (2 * level) ' ')

def block (level : Nat) (left right : String) (items : List String) : String :=
  match items with
  | [] => left ++ right
  | _ =>
      left ++ newLine (level + 1) ++
        String.intercalate ("," ++ newLine (level + 1)) items ++
        newLine level ++ right

mutual

def pretty (level : Nat) : Json -> String
  | .number n => toString n
  | .bool b => ofBool b
  | .text s => quoted s
  | .array items => block level "[" "]" (prettyItems (level + 1) items)
  | .object members =>
      block level opened closed (prettyMembers (level + 1) members)

def prettyItems (level : Nat) : List Json -> List String
  | [] => []
  | item :: rest => pretty level item :: prettyItems level rest

def prettyMembers (level : Nat) : List (String × Json) -> List String
  | [] => []
  | (key, value) :: rest =>
      (quoted key ++ ": " ++ pretty level value) :: prettyMembers level rest

end

end Json
end TransportStream
