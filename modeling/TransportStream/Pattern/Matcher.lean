import TransportStream.Pattern.CharSet
import TransportStream.Pattern.Look

/-!
# Matchers

A matcher says which parts of a text it matches.  Matchers are put together so
that what can be said with fewer parts is: texts side by side are one text,
branches of one character each are one set, and a part with which all branches
begin stands in front of them.

A set that is not wide is one of bytes.  A condition that is wide is about words
of any script, and which characters form those is not known here.
-/

namespace TransportStream
namespace Pattern

inductive Matcher where
  | nothing
  | text (chars : List Char)
  | oneOf (wide : Bool) (runs : Runs)
  | look (wide : Bool) (l : Look)
  | group (m : Matcher)
  | repetition (lazy : Bool) (least : Nat) (most : Option Nat) (m : Matcher)
  | sequence (ms : List Matcher)
  | either (ms : List Matcher)

/-!
# Extents
-/

/-- What all matches of a matcher have in common.  Both lengths are missing if a
set without members has to be matched, and the longest one also if there is no
limit. -/
structure Extent where
  shortest : Option Nat
  longest : Option Nat
  opensText : Bool
  closesText : Bool
  deriving DecidableEq, Repr

namespace Extent

def nothing : Extent :=
  ⟨some 0, some 0, false, false⟩

def never : Extent :=
  ⟨none, none, false, false⟩

def both (f : Nat -> Nat -> Nat) (a b : Option Nat) : Option Nat :=
  match a, b with
  | some a, some b => some (f a b)
  | _, _ => none

def isEmpty (e : Extent) : Bool :=
  e.longest == some 0

def andThen (e f : Extent) : Extent where
  shortest := both (· + ·) e.shortest f.shortest
  longest := both (· + ·) e.longest f.longest
  opensText := e.opensText || (e.isEmpty && f.opensText)
  closesText := f.closesText || (f.isEmpty && e.closesText)

def orElse (e f : Extent) : Extent where
  shortest := both min e.shortest f.shortest
  longest := both max e.longest f.longest
  opensText := e.opensText && f.opensText
  closesText := e.closesText && f.closesText

def repeated (e : Extent) (least : Nat) (most : Option Nat) : Extent where
  shortest := e.shortest.map (least * ·)
  longest := both (· * ·) most e.longest
  opensText := 0 < least && e.opensText
  closesText := 0 < least && e.closesText

end Extent

mutual

def Matcher.extent : Matcher -> Extent
  | .nothing => .nothing
  | .text chars => ⟨some chars.length, some chars.length, false, false⟩
  | .oneOf _ runs =>
      if runs.isEmpty then .never else ⟨some 1, some 1, false, false⟩
  | .look _ l => ⟨some 0, some 0, l = .textStart, l = .textEnd⟩
  | .group m => m.extent
  | .repetition _ least most m => m.extent.repeated least most
  | .sequence ms => extentOfAll .nothing ms
  | .either ms => extentOfAny none ms

def extentOfAll (e : Extent) : List Matcher -> Extent
  | [] => e
  | m :: rest => extentOfAll (e.andThen m.extent) rest

def extentOfAny (e : Option Extent) : List Matcher -> Extent
  | [] => e.getD .never
  | m :: rest =>
      match e with
      | none => extentOfAny (some m.extent) rest
      | some e => extentOfAny (some (e.orElse m.extent)) rest

end

/-!
# Comparison
-/

mutual

/-- Whether one of two matchers can stand for both.  A group cannot, since it is
told apart from all others. -/
def Matcher.isAlike : Matcher -> Matcher -> Bool
  | .nothing, .nothing => true
  | .text s, .text t => s == t
  | .oneOf wide r, .oneOf wide' s => wide == wide' && r == s
  | .look wide l, .look wide' k => wide == wide' && l == k
  | .repetition lazy least most m, .repetition lazy' least' most' n =>
      lazy == lazy' && least == least' && most == most' && m.isAlike n
  | .sequence ms, .sequence ns => areAlike ms ns
  | .either ms, .either ns => areAlike ms ns
  | _, _ => false

def areAlike : List Matcher -> List Matcher -> Bool
  | [], [] => true
  | m :: ms, n :: ns => m.isAlike n && areAlike ms ns
  | _, _ => false

end

mutual

def Matcher.count : Matcher -> Nat
  | .group m => m.count + 1
  | .repetition _ _ _ m => m.count + 1
  | .sequence ms => countAll 1 ms
  | .either ms => countAll 1 ms
  | _ => 1

def countAll (n : Nat) : List Matcher -> Nat
  | [] => n
  | m :: rest => countAll (n + m.count) rest

end

mutual

def Matcher.hasWideLook : Matcher -> Bool
  | .look wide _ => wide
  | .group m => m.hasWideLook
  | .repetition _ _ _ m => m.hasWideLook
  | .sequence ms => anyHasWideLook ms
  | .either ms => anyHasWideLook ms
  | _ => false

def anyHasWideLook : List Matcher -> Bool
  | [] => false
  | m :: rest => m.hasWideLook || anyHasWideLook rest

end

/-!
# Putting matchers together
-/

namespace Matcher

def never : Matcher :=
  .oneOf false []

def ofRuns (wide : Bool) : Runs -> Matcher
  | [] => never
  | [(a, b)] => if a = b then .text [charOfOrdinal a] else .oneOf wide [(a, b)]
  | runs => .oneOf wide runs

def parts : Matcher -> List Matcher
  | .nothing => []
  | .sequence ms => ms
  | m => [m]

def putBefore (m : Matcher) (ms : List Matcher) : List Matcher :=
  match m, ms with
  | .text s, .text t :: rest => .text (s ++ t) :: rest
  | m, ms => m :: ms

def inSequence (ms : List Matcher) : Matcher :=
  match (ms.flatMap parts).foldr putBefore [] with
  | [] => .nothing
  | [m] => m
  | ms => .sequence ms

def branches : Matcher -> List Matcher
  | .either ms => ms
  | m => [m]

def ordinal? : Matcher -> Option Nat
  | .text [c] => some (ordinal c)
  | _ => none

def runs? : Matcher -> Option Runs
  | .oneOf _ runs => some runs
  | _ => none

def runsOfAll? (ms : List Matcher) : Option Runs :=
  match ms.mapM ordinal? with
  | some ordinals => some (Runs.union [] (ordinals.map fun n => (n, n)))
  | none => (ms.mapM runs?).map fun sets => sets.foldl Runs.union []

def sequence? : Matcher -> Option (List Matcher)
  | .sequence ms => some ms
  | _ => none

def sharedCount : List Matcher -> List Matcher -> Nat
  | m :: ms, n :: ns => if m.isAlike n then sharedCount ms ns + 1 else 0
  | _, _ => 0

def sharedByAll (ms : List Matcher) : Nat :=
  match ms.mapM sequence? with
  | some (first :: rest) =>
      rest.foldl (fun n parts => min n (sharedCount first parts)) first.length
  | _ => 0

def choose : Nat -> List Matcher -> Matcher
  | turns, ms =>
      match ms.flatMap branches with
      | [] => never
      | [m] => m
      | all =>
          match runsOfAll? all, turns, sharedByAll all with
          | some runs, _, _ => ofRuns true runs
          | none, turns + 1, shared + 1 =>
              let front := (all.headD .nothing).parts.take (shared + 1)
              let later := all.map fun m =>
                inSequence (m.parts.drop (shared + 1))
              inSequence (front ++ [choose turns later])
          | none, _, _ => .either all

/-- A choice between matchers.  Whenever shared parts move to the front, fewer
are left. -/
def inChoice (ms : List Matcher) : Matcher :=
  choose (countAll 0 ms) ms

def repeated (lazy : Bool) (least : Nat) (most : Option Nat) (m : Matcher) :
    Matcher :=
  let least' := if m.extent.isEmpty then min least 1 else least
  let most' := if m.extent.isEmpty then some (min (most.getD 1) 1) else most
  if least' = 0 ∧ most' = some 0 then .nothing
  else if least' = 1 ∧ most' = some 1 then m
  else .repetition lazy least' most' m

end Matcher
end Pattern
end TransportStream
