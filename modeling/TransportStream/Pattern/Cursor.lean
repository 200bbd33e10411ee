import TransportStream.Pattern.Tree
import TransportStream.Text.Blank

/-!
# Reading a pattern

A cursor stands in front of the characters of a pattern that are still to be
read.  When it is loose, blanks between the parts of a pattern and comments are
skipped.
-/

namespace TransportStream
namespace Pattern

structure Cursor where
  rest : List Char
  position : Position
  loose : Bool
  names : List (String × Span)
  /-- More than the number of all characters. -/
  turns : Nat

/-- A reader of part of a pattern: it goes on from a cursor, or finds a flaw. -/
abbrev Scan := StateT Cursor (Except Flaw)

def dropBlanks (inComment : Bool) (p : Position) :
    List Char -> Position × List Char
  | [] => (p, [])
  | c :: rest =>
      if inComment then dropBlanks (c != '\n') (p.past c) rest
      else if Text.isBlank c then dropBlanks false (p.past c) rest
      else if c = '#' then dropBlanks true (p.past c) rest
      else (p, c :: rest)

namespace Cursor

def start (pattern : String) : Cursor :=
  ⟨pattern.toList, .first, false, [], pattern.length + 1⟩

def skip (c : Cursor) : Cursor :=
  match c.rest with
  | [] => c
  | char :: rest => ⟨rest, c.position.past char, c.loose, c.names, c.turns⟩

def skipBlanks (c : Cursor) : Cursor :=
  if c.loose then
    let (position, rest) := dropBlanks false c.position c.rest
    ⟨rest, position, c.loose, c.names, c.turns⟩
  else c

def here (c : Cursor) : Span :=
  ⟨c.position, c.skip.position⟩

/-- The first character that is neither a blank nor the first number sign, or
else the very first one. -/
def firstInked (chars : List Char) : Option Char :=
  match chars.filter fun c => !Text.isBlank c with
  | [] => chars.head?
  | '#' :: inked => inked.head? <|> chars.head?
  | c :: _ => some c

def second? (c : Cursor) : Option Char :=
  if c.loose then firstInked c.rest.tail else c.rest.tail.head?

end Cursor

namespace Scan

def flaw {α : Type} (reason : Reason) (span : Span) : Scan α :=
  throw ⟨reason, span, none⟩

def flawAgain {α : Type} (reason : Reason) (span earlier : Span) : Scan α :=
  throw ⟨reason, span, some earlier⟩

def peek? : Scan (Option Char) := do
  return (← get).rest.head?

def position : Scan Position := do
  return (← get).position

def here : Scan Span := do
  return (← get).here

def point : Scan Span := do
  return .point (← get).position

def since (start : Position) : Scan Span := do
  return ⟨start, (← get).position⟩

def skip : Scan Unit :=
  modify Cursor.skip

def skipBlanks : Scan Unit :=
  modify Cursor.skipBlanks

def advance : Scan Unit :=
  modify fun c => c.skip.skipBlanks

def setLoose (loose : Bool) : Scan Unit :=
  modify fun c => ⟨c.rest, c.position, loose, c.names, c.turns⟩

def skipIf (text : String) : Scan Bool := do
  let c ← get
  if text.toList.isPrefixOf c.rest then
    set (text.toList.foldl (fun c _ => c.skip) c)
    return true
  else
    return false

def takeLoose (kind : Char -> Bool) : Nat -> Scan (List Char)
  | 0 => return []
  | turns + 1 => do
      match ← peek? with
      | none => return []
      | some c =>
          if kind c then
            advance
            return c :: (← takeLoose kind turns)
          else
            return []

/-- More turns than there are characters are always enough. -/
def turns : Scan Nat := do
  return (← get).turns

def takeWhile (kind : Char -> Bool) : Scan (List Char) := do
  takeLoose kind (← turns)

end Scan
end Pattern
end TransportStream
