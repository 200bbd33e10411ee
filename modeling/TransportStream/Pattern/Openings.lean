import TransportStream.Pattern.Machine

/-!
# Openings

The openings of a matcher are texts with which its matches begin, in the order
in which they are tried.  There are few of them and all are short, or none are
known.  If each is a whole match, they are looked for as they are, and no
machine is needed.  What never matches has no openings, whatever its size.
-/

namespace TransportStream
namespace Pattern

-- The zero of natural numbers is that of the core library, whatever else is
-- imported.
attribute [local instance (high)] Zero.ofOfNat0

structure Opening where
  word : Word
  isWhole : Bool
  deriving DecidableEq, Repr

namespace Opening

def nothing : Opening :=
  ⟨[], true⟩

def half (o : Opening) : Opening :=
  ⟨o.word, false⟩

def take (n : Nat) (o : Opening) : Opening :=
  if o.word.length ≤ n then o else ⟨o.word.take n, false⟩

end Opening

/-- Openings, or none if they are not known. -/
abbrev Openings := Option (List Opening)

namespace Openings

def maxCount : Nat := 250

def maxLength : Nat := 100

def maxChoices : Nat := 10

/-- One of equal openings side by side is enough.  It is whole only if both
are. -/
def putBefore (o : Opening) : List Opening -> List Opening
  | [] => [o]
  | p :: rest =>
      if o.word = p.word then ⟨p.word, o.isWhole && p.isWhole⟩ :: rest
      else o :: p :: rest

def merged (os : List Opening) : List Opening :=
  os.foldr putBefore []

def half (s : Openings) : Openings :=
  s.map fun os => os.map Opening.half

def take (n : Nat) (s : Openings) : Openings :=
  s.map fun os => os.map (Opening.take n)

def isClosed (s : Openings) : Bool :=
  s.all fun os => os.all (!·.isWhole)

def continued (o : Opening) (ps : List Opening) : List Opening :=
  if o.isWhole then ps.map fun p => ⟨o.word ++ p.word, p.isWhole⟩ else [o]

def andThen (s t : Openings) : Openings :=
  match s, t with
  | none, _ => none
  | some os, none =>
      if os.any (·.word.isEmpty) then none else (half (some os)).take maxLength
  | some os, some ps =>
      if os.length * ps.length ≤ maxCount then
        take maxLength (some (merged (os.flatMap fun o => continued o ps)))
      else if os.any (·.word.isEmpty) then none
      else (half (some os)).take maxLength

def orElse (s t : Openings) : Openings :=
  match s, t with
  | some os, some ps =>
      if os.length + ps.length ≤ maxCount then some (merged (os ++ ps))
      else
        let os' := merged (os.map (Opening.take 4))
        let ps' := merged (ps.map (Opening.take 4))
        if os'.length + ps'.length ≤ maxCount then some (merged (os' ++ ps'))
        else none
  | _, _ => none

def andTimes (s done : Openings) : Nat -> Openings
  | 0 => done
  | n + 1 => if done.isClosed then done else s.andTimes (done.andThen s) n

def repeated (s : Openings) (lazy : Bool) (least : Nat) (most : Option Nat) :
    Openings :=
  if least = 0 then
    let some' := if most = some 1 then s else s.half
    if lazy then orElse (some [.nothing]) some'
    else some'.orElse (some [.nothing])
  else
    let turns := s.andTimes (some [.nothing]) (min least maxChoices)
    if most = some least ∧ least ≤ maxChoices then turns else turns.half

def ofRuns (runs : Runs) : Openings :=
  if maxChoices < (runs.map fun run => run.2 + 1 - run.1).sum then none
  else
    some (runs.flatMap fun run =>
      (List.range (run.2 + 1 - run.1)).map fun k =>
        ⟨encoded (codeOfOrdinal (run.1 + k)), true⟩)

end Openings

mutual

def Matcher.openings : Matcher -> Openings
  | .nothing => some [.nothing]
  | .text chars =>
      Openings.take Openings.maxLength (some [⟨encodedText chars, true⟩])
  | .oneOf _ runs => Openings.ofRuns runs
  | .look _ _ => some [.nothing]
  | .group m => m.openings
  | .repetition lazy least most m => m.openings.repeated lazy least most
  | .sequence ms => openingsOfAll (some [.nothing]) ms
  | .either ms => openingsOfAny (some []) ms

def openingsOfAll (s : Openings) : List Matcher -> Openings
  | [] => s
  | m :: rest =>
      if s.isClosed then s else openingsOfAll (s.andThen m.openings) rest

def openingsOfAny (s : Openings) : List Matcher -> Openings
  | [] => s
  | m :: rest =>
      if s.isNone then s else openingsOfAny (s.orElse m.openings) rest

end

mutual

def Matcher.isPlain : Matcher -> Bool
  | .look _ _ => false
  | .group _ => false
  | .repetition _ _ _ m => m.isPlain
  | .sequence ms => areAllPlain ms
  | .either ms => areAllPlain ms
  | _ => true

def areAllPlain : List Matcher -> Bool
  | [] => true
  | m :: rest => m.isPlain && areAllPlain rest

end

/-!
# Searching for openings
-/

namespace Openings

/-- Leave out openings that begin with an earlier one, which is found before
them. -/
def minimal (os : List Opening) : List Opening :=
  os.foldl (fun kept o =>
    if kept.any (·.word.isPrefixOf o.word) then kept else kept ++ [o]) []

def sharedLength : Word -> Word -> Nat
  | a :: v, b :: w => if a = b then sharedLength v w + 1 else 0
  | _, _ => 0

def sharedBeginning : List Opening -> Word
  | [] => []
  | o :: rest =>
      o.word.take (rest.foldl (fun n p => min n (sharedLength o.word p.word))
        o.word.length)

def frequentChars : List Char :=
  "\n\r (),-./0129:_abcdefghilmnoprstuvxy|".toList

def isRare (byte : Nat) : Bool :=
  byte < 0xC0 && !frequentChars.any fun c => c.toNat == byte

/-- Cut several openings to the first byte that they share, if it is rare and
they share little more. -/
def cutToRare? (count : Nat) (os : List Opening) : Option (List Opening) :=
  let shared := sharedBeginning os
  if 1 < count && shared.length ≤ 3 && shared.head?.any isRare then
    some (os.map (Opening.take 1))
  else none

/-- Cut openings to what they share, if it is long, or if they are too many to
be looked for one by one or not all whole. -/
def cutToShared (os : List Opening) : List Opening :=
  let shared := sharedBeginning os
  let isQuick := os.all (·.isWhole) && os.length ≤ 16
  if 4 < shared.length || (1 < shared.length && !isQuick) then
    merged (os.map (Opening.take shared.length))
  else os

def cuts : List (Nat × Nat) :=
  [(5, 10), (4, 10), (3, 64), (2, 64), (1, 10)]

def cutMany (os : List Opening) : List (Nat × Nat) -> List Opening
  | [] => os
  | (length, limit) :: rest =>
      if os.length ≤ limit then os
      else cutMany (minimal (os.map (Opening.take length))) rest

def shortened (os : List Opening) : List Opening :=
  let few := cutMany os cuts
  if os.all (·.isWhole) && (few.any (·.word.length ≤ 2) || 64 < few.length) then
    os
  else few

def searched (os : List Opening) : List Opening :=
  let kept := minimal os
  match cutToRare? os.length kept with
  | some cut => cut
  | none => shortened (cutToShared kept)

def findsMatches (os : List Opening) : Bool :=
  !os.isEmpty && os.all (!·.word.isEmpty) && (searched os).all (·.isWhole)

end Openings

def Matcher.needsNoMachine (m : Matcher) : Bool :=
  m.isPlain && m.openings.any Openings.findsMatches

end Pattern
end TransportStream
