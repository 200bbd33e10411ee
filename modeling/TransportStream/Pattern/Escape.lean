import TransportStream.Pattern.Cursor

/-!
# Escapes

What stands behind a backslash: a character that would mean something else
without it, a character by its number, a class of characters, or a condition on
the place.
-/

namespace TransportStream
namespace Pattern
namespace Scan

def isMeta (c : Char) : Bool :=
  "\\.+*?()|[]\x7b\x7d^$#&-~".toList.contains c

def isEscapable (c : Char) : Bool :=
  isMeta c || (c.toNat < 0x80 && !c.isAlphanum && c != '<' && c != '>')

def isHexDigit (c : Char) : Bool :=
  c.isDigit || ('a' ≤ c && c ≤ 'f') || ('A' ≤ c && c ≤ 'F')

def hexValue (c : Char) : Nat :=
  if c.isDigit then c.toNat - 48 else c.toLower.toNat - 87

def charOfHex? (digits : List Char) : Option Char :=
  let n := digits.foldl (fun n c => 16 * n + hexValue c) 0
  if n < 0xD800 ∨ (0xDFFF < n ∧ n < 0x110000) then some (Char.ofNat n) else none

/-!
# Characters by number
-/

def hexDigits : Nat -> Scan (List Char)
  | 0 => return []
  | count + 1 => do
      match ← peek? with
      | none => flaw .escapeCut (← point)
      | some c =>
          if isHexDigit c then
            advance
            return c :: (← hexDigits count)
          else
            flaw .hexInvalidDigit (← here)

def fixedHex (start : Position) (count : Nat) : Scan Literal := do
  let digitsStart ← position
  let digits ← hexDigits count
  match charOfHex? digits with
  | none => flaw .hexNotCharacter (← since digitsStart)
  | some c => return ⟨← since start, c, count == 2⟩

def bracedHex (start : Position) : Scan Literal := do
  let brace ← here
  advance
  let digits ← takeWhile isHexDigit
  match ← peek? with
  | none => flaw .escapeCut (← since brace.start)
  | some '}' =>
      let number : Span ← since brace.stop
      advance
      if digits.isEmpty then flaw .hexMissing (← since brace.start)
      else
        match charOfHex? digits with
        | none => flaw .hexNotCharacter number
        | some c => return ⟨← since start, c, false⟩
  | some _ => flaw .hexInvalidDigit (← here)

def hex (start : Position) (count : Nat) : Scan Literal := do
  advance
  match ← peek? with
  | none => flaw .escapeCut (← point)
  | some '{' => bracedHex start
  | some _ => fixedHex start count

/-!
# Properties
-/

def propertyOfName (name : List Char) : Property :=
  if name.contains ':' || name.contains '=' then .valued
  else .named (String.ofList name)

def property (start : Position) (negated : Bool) : Scan Tree := do
  advance
  match ← peek? with
  | none => flaw .escapeCut (← point)
  | some '{' =>
      advance
      let name ← takeWhile (· != '}')
      if (← peek?).isNone then flaw .escapeCut (← point)
      else
        skip
        return .property (← since start) negated (propertyOfName name)
  | some '\\' => flaw .propertyNotLetter (← here)
  | some c =>
      advance
      return .property (← since start) negated (.named c.toString)

/-!
# Conditions
-/

def boundaryOfName? (name : List Char) : Option Assertion :=
  match String.ofList name with
  | "start" => some .wordStart
  | "end" => some .wordEnd
  | "start-half" => some .wordStartHalf
  | "end-half" => some .wordEndHalf
  | _ => none

/-- The name in braces of a condition on words.  Braces with something else
inside are left to be read as a repetition. -/
def boundaryName (start : Position) : Scan Assertion := do
  let before ← get
  let brace ← position
  let isNamePart := fun (c : Char) => c.isAlpha || c == '-'
  advance
  let nameStart ← position
  match ← peek? with
  | none => flaw .boundaryCut (← since start)
  | some c =>
      if isNamePart c then
        let name ← takeWhile isNamePart
        if (← peek?) = some '}' then
          let nameSpan : Span ← since nameStart
          skip
          match boundaryOfName? name with
          | some a => return a
          | none => flaw .boundaryUnknown nameSpan
        else
          flaw .boundaryUnclosed (← since brace)
      else
        set before
        return .boundary

def boundary (start : Position) : Scan Tree := do
  let a ← if (← peek?) = some '{' then boundaryName start else pure .boundary
  return .assertion (← since start) a

/-!
# All escapes
-/

def charOfLetter? : Char -> Option Char
  | 'a' => some '\x07'
  | 'f' => some '\x0c'
  | 't' => some '\t'
  | 'n' => some '\n'
  | 'r' => some '\r'
  | 'v' => some '\x0b'
  | _ => none

def assertionOfLetter? : Char -> Option Assertion
  | 'A' => some .textStart
  | 'z' => some .textEnd
  | 'B' => some .noBoundary
  | '<' => some .wordStart
  | '>' => some .wordEnd
  | _ => none

def perlClassOfLetter? : Char -> Option (Bool × PerlClass)
  | 'd' => some (false, .digit)
  | 'D' => some (true, .digit)
  | 's' => some (false, .space)
  | 'S' => some (true, .space)
  | 'w' => some (false, .word)
  | 'W' => some (true, .word)
  | _ => none

def ofLetter (start : Position) (c : Char) : Scan Tree := do
  let span : Span ← since start
  if isEscapable c then return .literal ⟨span, c, false⟩
  else if c = 'b' then boundary start
  else
    match charOfLetter? c, assertionOfLetter? c, perlClassOfLetter? c with
    | some char, _, _ => return .literal ⟨span, char, false⟩
    | _, some a, _ => return .assertion span a
    | _, _, some (negated, kind) => return .perl span negated kind
    | none, none, none => flaw .escapeUnknown span

def escape : Scan Tree := do
  let start ← position
  skip
  match ← peek? with
  | none => flaw .escapeCut (← since start)
  | some c =>
      if c.isDigit then flaw .backreference ⟨start, (← here).stop⟩
      else if c = 'x' then .literal <$> hex start 2
      else if c = 'u' then .literal <$> hex start 4
      else if c = 'U' then .literal <$> hex start 8
      else if c = 'p' then property start false
      else if c = 'P' then property start true
      else do
        skip
        ofLetter start c

end Scan
end Pattern
end TransportStream
