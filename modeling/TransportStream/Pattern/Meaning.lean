import TransportStream.Pattern.Branches
import TransportStream.Pattern.Matcher

/-!
# What patterns mean

The tree of a pattern becomes a matcher.  Flags are in force from where they are
set to the end of the group.  Patterns are about characters of any script unless
the flag for that is unset; then classes may only hold ASCII characters.  No
tables of other characters are at hand: their classes are not available, nor are
their cases.
-/

namespace TransportStream
namespace Pattern

structure Modes where
  caseless : Bool
  manyLines : Bool
  dotAll : Bool
  swapGreed : Bool
  returns : Bool
  wide : Bool
  deriving DecidableEq, Repr

namespace Modes

def initial : Modes :=
  ⟨false, false, false, false, false, true⟩

def change (m : Modes) (changes : FlagChanges) : Modes where
  caseless := (changes.value? .caseless).getD m.caseless
  manyLines := (changes.value? .manyLines).getD m.manyLines
  dotAll := (changes.value? .dotAll).getD m.dotAll
  swapGreed := (changes.value? .swapGreed).getD m.swapGreed
  returns := (changes.value? .returns).getD m.returns
  wide := (changes.value? .wide).getD m.wide

def top (m : Modes) : Nat :=
  if m.wide then 0x10F7FF else 0xFF

end Modes

def flawOf {α : Type} (reason : Reason) (span : Span) : Except Flaw α :=
  .error ⟨reason, span, none⟩

/-!
# Classes
-/

/-- A property of characters has no table, whatever its name.  The names of
three categories are told apart from names of properties before any table is
looked at. -/
def Property.reason : Property -> Reason
  | .valued => .propertyUnknown
  | .named name =>
      let short := match name.toList.map Char.toLower with
        | 'i' :: 's' :: rest => rest
        | other => other
      let letters := short.filter fun c =>
        c.toNat < 0x80 && c != ' ' && c != '_' && c != '-'
      if ["cf", "sc", "lc"].contains (String.ofList letters) then
        .propertyValueUnknown
      else .propertyUnknown

def propertySet (m : Modes) (span : Span) (p : Property) :
    Except Flaw CharSet :=
  if m.wide then flawOf p.reason span else flawOf .propertyNotAllowed span

def PerlClass.runs : PerlClass -> List (Nat × Nat)
  | .digit => [(48, 57)]
  | .space => [(9, 13), (32, 32)]
  | .word => [(48, 57), (65, 90), (95, 95), (97, 122)]

/-- Without the characters of other scripts, a class and its complement must be
ASCII. -/
def onlyText (m : Modes) (span : Span) (s : CharSet) : Except Flaw CharSet :=
  if m.wide || s.runs.isAscii then .ok s else flawOf .notText span

def perlSet (m : Modes) (span : Span) (negated : Bool) (c : PerlClass) :
    Except Flaw CharSet :=
  if m.wide then flawOf .perlClassUnavailable span
  else
    let s := CharSet.ofRuns c.runs
    onlyText m span (if negated then s.complement m.top else s)

def fold (m : Modes) (span : Span) (s : CharSet) : Except Flaw CharSet :=
  if !m.caseless || s.folded then .ok s
  else if m.wide then flawOf .caseFoldingUnavailable span
  else .ok ⟨s.runs.foldAscii, true⟩

def foldAndNegate (m : Modes) (span : Span) (negated : Bool) (s : CharSet) :
    Except Flaw CharSet := do
  let folded ← fold m span s
  onlyText m span (if negated then folded.complement m.top else folded)

/-- A literal that is written as a byte beyond ASCII is no character unless all
scripts are allowed. -/
def literalChar (m : Modes) (l : Literal) : Except Flaw Char :=
  if !m.wide && l.isByte && 0x7F < l.char.toNat then flawOf .notText l.span
  else .ok l.char

def classOrdinal (m : Modes) (l : Literal) : Except Flaw Nat := do
  let c ← literalChar m l
  if !m.wide && 0x7F < c.toNat then flawOf .propertyNotAllowed l.span
  else .ok (ordinal c)

def applyOperation (m : Modes) (op : SetOperation) (s t : CharSet) : CharSet :=
  match op with
  | .intersection => s.intersection m.top t
  | .difference => s.difference m.top t
  | .symmetricDifference => s.symmetricDifference m.top t

mutual

def ClassTree.charSet (m : Modes) : ClassTree -> Except Flaw CharSet
  | .nothing _ => .ok .empty
  | .literal l => do
      let n ← classOrdinal m l
      return .ofRange n n
  | .range _ first last => do
      let low ← classOrdinal m first
      let high ← classOrdinal m last
      return .ofRange low high
  | .posix span negated runs => foldAndNegate m span negated (.ofRuns runs)
  | .property span _ p => propertySet m span p
  | .perl span negated c => perlSet m span negated c
  | .bracket span negated inside => do
      foldAndNegate m span negated (← inside.charSet m)
  | .union _ parts => unitedSet m .empty parts
  | .operation _ op left right => do
      let s ← left.charSet m
      let t ← right.charSet m
      let t' ← fold m right.span t
      let s' ← fold m left.span s
      return applyOperation m op s' t'

def unitedSet (m : Modes) (s : CharSet) : List ClassTree -> Except Flaw CharSet
  | [] => .ok s
  | part :: rest => do
      let t ← part.charSet m
      unitedSet m (s.union t) rest

end

/-!
# Single parts
-/

def literalMatcher (m : Modes) (l : Literal) : Except Flaw Matcher := do
  let c ← literalChar m l
  if !m.caseless then return .text [c]
  else if m.wide then flawOf .caseFoldingUnavailable l.span
  else if c.isAlpha then
    return .ofRuns false (Runs.foldAscii [(c.toNat, c.toNat)])
  else return .text [c]

def dotMatcher (m : Modes) (span : Span) : Except Flaw Matcher :=
  if !m.wide then flawOf .notText span
  else
    let excluded : Runs :=
      if m.dotAll then []
      else if m.returns then [(10, 10), (13, 13)]
      else [(10, 10)]
    .ok (.ofRuns true (excluded.complement m.top))

def lineLook (m : Modes) (text line returnLine : Look) : Look :=
  if m.manyLines then if m.returns then returnLine else line else text

def assertionMatcher (m : Modes) : Assertion -> Matcher
  | .lineStart =>
      .look false (lineLook m .textStart .lineStart .returnLineStart)
  | .lineEnd => .look false (lineLook m .textEnd .lineEnd .returnLineEnd)
  | .textStart => .look false .textStart
  | .textEnd => .look false .textEnd
  | .boundary => .look m.wide .boundary
  | .noBoundary => .look m.wide .noBoundary
  | .wordStart => .look m.wide .wordStart
  | .wordEnd => .look m.wide .wordEnd
  | .wordStartHalf => .look m.wide .wordStartHalf
  | .wordEndHalf => .look m.wide .wordEndHalf

/-!
# Whole trees
-/

mutual

def Tree.matcher (m : Modes) : Tree -> Except Flaw (Matcher × Modes)
  | .nothing _ => .ok (.nothing, m)
  | .flags _ changes => .ok (.nothing, m.change changes)
  | .literal l => do return (← literalMatcher m l, m)
  | .dot span => do return (← dotMatcher m span, m)
  | .assertion _ a => .ok (assertionMatcher m a, m)
  | .property span _ p =>
      do return (.ofRuns m.wide (← propertySet m span p).runs, m)
  | .perl span negated c =>
      do return (.ofRuns m.wide (← perlSet m span negated c).runs, m)
  | .bracket c => do return (.ofRuns m.wide (← c.charSet m).runs, m)
  | .repetition _ lazy least most part => do
      let (matcher, m') ← part.matcher m
      return (.repeated (lazy != m'.swapGreed) least most matcher, m')
  | .group _ changes captures part => do
      let (matcher, _) ← part.matcher (m.change changes)
      return (if captures then .group matcher else matcher, m)
  | .branches _ parts => do
      let (matchers, m') ← matchersOfAll m [] parts
      return (.inChoice matchers, m')
  | .sequence _ parts => do
      let (matchers, m') ← matchersOfAll m [] parts
      return (.inSequence matchers, m')

def matchersOfAll (m : Modes) (done : List Matcher) :
    List Tree -> Except Flaw (List Matcher × Modes)
  | [] => .ok (done.reverse, m)
  | part :: rest => do
      let (matcher, m') ← part.matcher m
      matchersOfAll m' (matcher :: done) rest

end
end Pattern
end TransportStream
