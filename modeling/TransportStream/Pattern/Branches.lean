import TransportStream.Pattern.Group

/-!
# Whole patterns

A pattern is a list of branches, each a sequence of parts; a part may be
repeated.  Groups hold patterns of their own.
-/

namespace TransportStream
namespace Pattern

structure Draft where
  start : Position
  branches : List Tree
  branchStart : Position
  parts : List Tree

namespace Draft

def fresh (start : Position) : Draft :=
  ⟨start, [], start, []⟩

def add (d : Draft) (part : Tree) : Draft :=
  ⟨d.start, d.branches, d.branchStart, part :: d.parts⟩

def branch (d : Draft) (stop : Position) : Tree :=
  match d.parts with
  | [] => .nothing ⟨d.branchStart, stop⟩
  | [part] => part
  | parts => .sequence ⟨d.branchStart, stop⟩ parts.reverse

def nextBranch (d : Draft) (bar next : Position) : Draft :=
  ⟨d.start, d.branch bar :: d.branches, next, []⟩

def whole (d : Draft) (stop : Position) : Tree :=
  match d.branches with
  | [] => d.branch stop
  | branches => .branches ⟨d.start, stop⟩ (d.branch stop :: branches).reverse

end Draft

structure Count where
  least : Nat
  most : Option Nat
  deriving DecidableEq, Repr

def Count.isReversed (c : Count) : Bool :=
  match c.most with
  | none => false
  | some most => most < c.least

namespace Scan

/-!
# Repetition
-/

/-- The part that a repetition is about: the latest one, unless it only sets
flags. -/
def repeatedPart (d : Draft) : Scan (Tree × Draft) := do
  match d.parts with
  | [] => flaw .nothingToRepeat (← point)
  | .nothing _ :: _ => flaw .nothingToRepeat (← point)
  | .flags _ _ :: _ => flaw .nothingToRepeat (← point)
  | part :: rest => return (part, ⟨d.start, d.branches, d.branchStart, rest⟩)

def skipLazy : Scan Bool := do
  if (← peek?) = some '?' then
    skip
    return true
  else
    return false

def addRepetition (d : Draft) (part : Tree) (lazy : Bool) (count : Count) :
    Scan Draft := do
  return d.add (.repetition (← since part.span.start) lazy count.least
    count.most part)

def signRepetition (d : Draft) (count : Count) : Scan Draft := do
  let (part, d') ← repeatedPart d
  skip
  let lazy ← skipLazy
  addRepetition d' part lazy count

def maxCount : Nat := 0xFFFFFFFF

/-- Blanks around a number are skipped even when the pattern is not loose. -/
def skipGap : Nat -> Scan Unit
  | 0 => return ()
  | turns + 1 => do
      match ← peek? with
      | none => return ()
      | some c => if Text.isBlank c then do skip; skipGap turns else return ()

def decimal : Scan (Except Flaw Nat) := do
  skipGap (← turns)
  let start ← position
  let digits ← takeWhile Char.isDigit
  let span : Span ← since start
  skipGap (← turns)
  let n := digits.foldl (fun n c => 10 * n + (c.toNat - 48)) 0
  if digits.isEmpty then return .error ⟨.decimalMissing, span, none⟩
  else if maxCount < n then return .error ⟨.decimalTooLarge, span, none⟩
  else return .ok n

def peekInCount (brace : Position) : Scan Char := do
  match ← peek? with
  | none => flaw .countUnclosed (← since brace)
  | some c => return c

def countEnd (brace : Position) (least : Except Flaw Nat) : Scan Count := do
  advance
  if (← peekInCount brace) = '}' then return ⟨← least, none⟩
  else
    let low ← least
    let high ← decimal
    return ⟨low, some (← high)⟩

def count (brace : Position) : Scan Count := do
  advance
  let _ ← peekInCount brace
  let least ← decimal
  if (← peekInCount brace) = ',' then countEnd brace least
  else
    let exact ← least
    return ⟨exact, some exact⟩

def countedRepetition (d : Draft) : Scan Draft := do
  let brace ← position
  let (part, d') ← repeatedPart d
  let c ← count brace
  if (← peek?) = some '}' then
    advance
    let lazy ← skipLazy
    if c.isReversed then flaw .countReversed (← since brace)
    else addRepetition d' part lazy c
  else
    flaw .countUnclosed (← since brace)

/-!
# Parts and branches
-/

def simplePart (c : Char) : Scan Tree := do
  let span ← here
  if c = '\\' then escape
  else
    skip
    if c = '.' then return .dot span
    else if c = '^' then return .assertion span .lineStart
    else if c = '$' then return .assertion span .lineEnd
    else return .literal ⟨span, c, false⟩

def part (d : Draft) (c : Char) : Scan Draft := do
  if c = '[' then return d.add (.bracket (← bracket))
  else if c = '?' then signRepetition d ⟨0, some 1⟩
  else if c = '*' then signRepetition d ⟨0, none⟩
  else if c = '+' then signRepetition d ⟨1, none⟩
  else if c = '{' then countedRepetition d
  else return d.add (← simplePart c)

def closeGroup (opening : Span) (loose : Bool) : Scan Unit := do
  if (← peek?).isNone then flaw .groupUnclosed opening
  else
    setLoose loose
    skip

/-- Read branches up to a closing parenthesis or the end of the pattern. -/
def branches : Nat -> Draft -> Scan Tree
  | 0, d => return d.whole (← position)
  | turns + 1, d => do
      skipBlanks
      match ← peek? with
      | none => return d.whole (← position)
      | some ')' => return d.whole (← position)
      | some '|' =>
          let bar ← position
          skip
          branches turns (d.nextBranch bar (← position))
      | some '(' =>
          let loose := (← get).loose
          match ← groupOpening with
          | .settings span changes =>
              setLoose ((changes.value? .loose).getD loose)
              branches turns (d.add (.flags span changes))
          | .group span changes captures =>
              setLoose ((changes.value? .loose).getD loose)
              let inside ← branches turns (.fresh (← position))
              closeGroup span loose
              branches turns
                (d.add (.group (← since span.start) changes captures inside))
      | some c => branches turns (← part d c)

def wholePattern : Scan Tree := do
  let tree ← branches (← turns) (.fresh (← position))
  if (← peek?).isSome then flaw .groupUnopened (← here)
  else
    match tree.tooDeep? maxDepth with
    | some span => flaw .nestedTooDeep span
    | none => return tree

end Scan

def Tree.parse (pattern : String) : Except Flaw Tree :=
  Scan.wholePattern.run' (.start pattern)

end Pattern
end TransportStream
