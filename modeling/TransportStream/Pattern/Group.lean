import TransportStream.Pattern.Bracket
import TransportStream.Text.Letter

/-!
# The beginning of groups

Behind an opening parenthesis may stand a name, changes of flags for the group,
or changes of flags for what follows in the group around it.
-/

namespace TransportStream
namespace Pattern

inductive GroupOpening where
  | settings (span : Span) (changes : FlagChanges)
  | group (span : Span) (changes : FlagChanges) (captures : Bool)

namespace Scan

/-!
# Flags
-/

def flagOfLetter? : Char -> Option Flag
  | 'i' => some .caseless
  | 'm' => some .manyLines
  | 's' => some .dotAll
  | 'U' => some .swapGreed
  | 'u' => some .wide
  | 'R' => some .returns
  | 'x' => some .loose
  | _ => none

structure FlagDraft where
  minus : Option Span
  dangling : Bool
  seen : List (Flag × Bool × Span)

namespace FlagDraft

def changes (d : FlagDraft) : FlagChanges :=
  d.seen.reverse.map fun (flag, value, _) => (flag, value)

def isEmpty (d : FlagDraft) : Bool :=
  d.seen.isEmpty && d.minus.isNone

end FlagDraft

def addMinus (d : FlagDraft) : Scan FlagDraft := do
  let span ← here
  match d.minus with
  | some earlier => flawAgain .negationRepeated span earlier
  | none => return ⟨some span, true, d.seen⟩

def addFlag (d : FlagDraft) (c : Char) : Scan FlagDraft := do
  let span ← here
  match flagOfLetter? c with
  | none => flaw .flagUnknown span
  | some flag =>
      match d.seen.find? (·.1 = flag) with
      | some (_, _, earlier) => flawAgain .flagRepeated span earlier
      | none => return ⟨d.minus, false, (flag, d.minus.isNone, span) :: d.seen⟩

def flags : Nat -> FlagDraft -> Scan FlagDraft
  | 0, d => return d
  | turns + 1, d => do
      match ← peek? with
      | none => flaw .flagCut (← point)
      | some c =>
          if c = ':' || c = ')' then
            match d.dangling, d.minus with
            | true, some span => flaw .negationDangling span
            | _, _ => return d
          else
            let d' ← if c = '-' then addMinus d else addFlag d c
            skip
            flags turns d'

/-!
# Names
-/

def isNameStart (c : Char) : Bool :=
  c == '_' || Text.isLetter c

def isNamePart (c : Char) : Bool :=
  c == '_' || c == '.' || c == '[' || c == ']' || Text.isLetterOrNumber c

def nameChars (isFirst : Bool) : Nat -> Scan (List Char)
  | 0 => return []
  | turns + 1 => do
      match ← peek? with
      | none => flaw .nameUnclosed (← point)
      | some c =>
          if c = '>' then return []
          else if if isFirst then isNameStart c else isNamePart c then
            skip
            return c :: (← nameChars false turns)
          else
            flaw .nameInvalid (← here)

def addName (name : String) (span : Span) : Scan Unit := do
  let c ← get
  match c.names.find? (·.1 = name) with
  | some (_, earlier) => flawAgain .nameRepeated span earlier
  | none =>
      set (⟨c.rest, c.position, c.loose, (name, span) :: c.names,
        c.turns⟩ : Cursor)

def groupName : Scan Unit := do
  let start ← position
  let name ← nameChars true (← turns)
  let span : Span ← since start
  skip
  if name.isEmpty then flaw .nameMissing (.point start)
  else addName (String.ofList name) span

/-!
# Openings
-/

/-- The beginnings of conditions on what stands around a place, which are not
supported. -/
def lookArounds : List String :=
  ["?=", "?!", "?<=", "?<!"]

def skipAny : List String -> Scan Bool
  | [] => return false
  | text :: rest => do
      if ← skipIf text then return true
      else skipAny rest

def flaggedGroup (opening question : Span) : Scan GroupOpening := do
  if (← peek?).isNone then flaw .groupUnclosed opening
  else
    let d ← flags (← turns) ⟨none, false, []⟩
    let closing ← peek?
    skip
    if closing = some ')' then
      if d.isEmpty then flaw .nothingToRepeat question
      else return .settings (← since opening.start) d.changes
    else
      return .group opening d.changes false

def groupOpening : Scan GroupOpening := do
  let opening ← here
  skip
  skipBlanks
  if ← skipAny lookArounds then flaw .lookAround (← since opening.start)
  else
    let inside ← point
    if ← skipAny ["?P<", "?<"] then
      groupName
      return .group opening [] true
    else if ← skipIf "?" then flaggedGroup opening inside
    else return .group opening [] true

end Scan
end Pattern
end TransportStream
