/-!
# Places in a text

A text has one place more than it has characters.  Conditions look at the
characters on both sides of a place and take nothing.
-/

namespace TransportStream
namespace Pattern

inductive Look where
  | textStart
  | textEnd
  | lineStart
  | lineEnd
  | returnLineStart
  | returnLineEnd
  | boundary
  | noBoundary
  | wordStart
  | wordEnd
  | wordStartHalf
  | wordEndHalf
  deriving DecidableEq, Repr

structure Place where
  before : Option Char
  behind : Option Char
  deriving DecidableEq, Repr

def placesBehind (before : Option Char) : List Char -> List Place
  | [] => [⟨before, none⟩]
  | c :: rest => ⟨before, some c⟩ :: placesBehind (some c) rest

def places (text : List Char) : List Place :=
  placesBehind none text

theorem length_placesBehind (before : Option Char) (text : List Char) :
    (placesBehind before text).length = text.length + 1 := by
  induction text generalizing before with
  | nil => rfl
  | cons c rest ih => simp [placesBehind, ih]

def isWordChar (c : Option Char) : Bool :=
  match c with
  | none => false
  | some c => c.isAlphanum || c == '_'

def Look.holds (l : Look) (p : Place) : Bool :=
  match l with
  | .textStart => p.before.isNone
  | .textEnd => p.behind.isNone
  | .lineStart => p.before.isNone || p.before == some '\n'
  | .lineEnd => p.behind.isNone || p.behind == some '\n'
  | .returnLineStart =>
      p.before.isNone || p.before == some '\n' ||
        (p.before == some '\r' && p.behind != some '\n')
  | .returnLineEnd =>
      p.behind.isNone || p.behind == some '\r' ||
        (p.behind == some '\n' && p.before != some '\r')
  | .boundary => isWordChar p.before != isWordChar p.behind
  | .noBoundary => isWordChar p.before == isWordChar p.behind
  | .wordStart => !isWordChar p.before && isWordChar p.behind
  | .wordEnd => isWordChar p.before && !isWordChar p.behind
  | .wordStartHalf => !isWordChar p.before
  | .wordEndHalf => !isWordChar p.behind

end Pattern
end TransportStream
