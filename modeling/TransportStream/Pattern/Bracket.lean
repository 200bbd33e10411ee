import TransportStream.Pattern.Escape

/-!
# Bracketed classes

Between brackets stand characters, ranges, named classes and further brackets.
Two parts side by side are united; other operations are written between them and
all bind alike, to the left.
-/

namespace TransportStream
namespace Pattern

def posixRuns? : String -> Option (List (Nat × Nat))
  | "alnum" => some [(48, 57), (65, 90), (97, 122)]
  | "alpha" => some [(65, 90), (97, 122)]
  | "ascii" => some [(0, 127)]
  | "blank" => some [(9, 9), (32, 32)]
  | "cntrl" => some [(0, 31), (127, 127)]
  | "digit" => some [(48, 57)]
  | "graph" => some [(33, 126)]
  | "lower" => some [(97, 122)]
  | "print" => some [(32, 126)]
  | "punct" => some [(33, 47), (58, 64), (91, 96), (123, 126)]
  | "space" => some [(9, 13), (32, 32)]
  | "upper" => some [(65, 90)]
  | "word" => some [(48, 57), (65, 90), (95, 95), (97, 122)]
  | "xdigit" => some [(48, 57), (65, 70), (97, 102)]
  | _ => none

structure BracketDraft where
  left : Option (ClassTree × SetOperation)
  start : Position
  parts : List ClassTree

namespace BracketDraft

def add (d : BracketDraft) (part : ClassTree) : BracketDraft :=
  ⟨d.left, d.start, part :: d.parts⟩

def united (d : BracketDraft) : ClassTree :=
  match d.parts.reverse, d.parts with
  | [part], _ => part
  | first :: rest, last :: _ =>
      .union ⟨first.span.start, last.span.stop⟩ (first :: rest)
  | _, _ => .nothing (.point d.start)

def whole (d : BracketDraft) : ClassTree :=
  match d.left with
  | none => d.united
  | some (left, op) =>
      .operation ⟨left.span.start, d.united.span.stop⟩ op left d.united

def operate (d : BracketDraft) (op : SetOperation) (start : Position) :
    BracketDraft :=
  ⟨some (d.whole, op), start, []⟩

end BracketDraft

structure BracketOpening where
  span : Span
  negated : Bool
  draft : BracketDraft

namespace Scan

/-- A minus sign or closing bracket right behind the opening stands for
itself. -/
def plainHere (c : Char) : Scan ClassTree := do
  return .literal ⟨← here, c, false⟩

def leadingMinuses (start : Position) : Nat -> BracketDraft -> Scan BracketDraft
  | 0, d => return d
  | turns + 1, d => do
      if (← peek?) = some '-' then
        let minus ← plainHere '-'
        advance
        if (← peek?).isNone then flaw .classUnclosed (.point start)
        else leadingMinuses start turns (d.add minus)
      else
        return d

def leadingBracket (start : Position) (d : BracketDraft) :
    Scan BracketDraft := do
  if d.parts.isEmpty && (← peek?) == some ']' then
    let bracket ← plainHere ']'
    advance
    if (← peek?).isNone then flaw .classUnclosed (← since start)
    else return d.add bracket
  else
    return d

def advanceInto (start : Position) : Scan Unit := do
  advance
  if (← peek?).isNone then flaw .classUnclosed (← since start)

def negation (start : Position) : Scan Bool := do
  if (← peek?) = some '^' then
    advanceInto start
    return true
  else
    return false

def openBracket : Scan BracketOpening := do
  let start ← position
  advanceInto start
  let negated ← negation start
  let minuses ← leadingMinuses start (← turns) ⟨none, ← position, []⟩
  let draft ← leadingBracket start minuses
  return ⟨← since start, negated, draft⟩

def posixName? : List Char -> Option (Bool × List Char)
  | '[' :: ':' :: '^' :: rest => some (true, rest.takeWhile (· != ':'))
  | '[' :: ':' :: rest => some (false, rest.takeWhile (· != ':'))
  | _ => none

def posix? : Scan (Option ClassTree) := do
  let before ← get
  match posixName? before.rest with
  | none => return none
  | some (negated, name) =>
      let text :=
        "[:" ++ (if negated then "^" else "") ++ String.ofList name ++ ":]"
      match posixRuns? (String.ofList name) with
      | none => return none
      | some runs =>
          if ← skipIf text then
            return some (.posix (← since before.position) negated runs)
          else
            return none

def bracketPart (c : Char) : Scan Tree := do
  if c = '\\' then escape
  else
    let span ← here
    skip
    return .literal ⟨span, c, false⟩

def asPart : Tree -> Scan ClassTree
  | .literal l => return .literal l
  | .perl span negated c => return .perl span negated c
  | .property span negated p => return .property span negated p
  | t => flaw .escapeInClass t.span

def asRangeEnd : Tree -> Scan Literal
  | .literal l => return l
  | t => flaw .rangeEndNotLiteral t.span

/-- Whether the minus sign that stands here belongs to a range. -/
def isRangeSign (c : Cursor) : Bool :=
  c.rest.head? == some '-' && c.second? != some ']' && c.second? != some '-'

def rangeFrom (opening : Span) (first : Tree) : Scan ClassTree := do
  advance
  match ← peek? with
  | none => flaw .classUnclosed opening
  | some c =>
      let last ← bracketPart c
      let span : Span := ⟨first.span.start, last.span.stop⟩
      let low ← asRangeEnd first
      let high ← asRangeEnd last
      if high.char < low.char then flaw .rangeReversed span
      else return .range span low high

def bracketRange (opening : Span) (c : Char) : Scan ClassTree := do
  let first ← bracketPart c
  skipBlanks
  let c ← get
  if c.rest.isEmpty then flaw .classUnclosed opening
  else if isRangeSign c then rangeFrom opening first
  else asPart first

def operation? (c : Cursor) : Option SetOperation :=
  match c.rest with
  | '&' :: '&' :: _ => some .intersection
  | '-' :: '-' :: _ => some .difference
  | '~' :: '~' :: _ => some .symmetricDifference
  | _ => none

def bracketRest (opening : BracketOpening) :
    Nat -> BracketDraft -> Scan ClassTree
  | 0, _ => flaw .classUnclosed opening.span
  | turns + 1, d => do
      skipBlanks
      let c ← get
      match c.rest.head?, operation? c with
      | none, _ => flaw .classUnclosed opening.span
      | some ']', _ =>
          skip
          return .bracket (← since opening.span.start) opening.negated d.whole
      | some '[', _ =>
          match ← posix? with
          | some named => bracketRest opening turns (d.add named)
          | none =>
              let inner ← openBracket
              let part ← bracketRest inner turns inner.draft
              bracketRest opening turns (d.add part)
      | some _, some op =>
          skip
          skip
          bracketRest opening turns (d.operate op (← position))
      | some char, none =>
          bracketRest opening turns (d.add (← bracketRange opening.span char))

def bracket : Scan ClassTree := do
  let opening ← openBracket
  bracketRest opening (← turns) opening.draft

end Scan
end Pattern
end TransportStream
