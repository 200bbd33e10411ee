/-!
# Places in a pattern

A pattern is read character by character.  What is wrong with it is pointed out
by line and column.
-/

namespace TransportStream
namespace Pattern

structure Position where
  line : Nat
  column : Nat
  deriving DecidableEq, Repr

namespace Position

def first : Position :=
  ⟨1, 1⟩

def past (p : Position) (c : Char) : Position :=
  if c = '\n' then ⟨p.line + 1, 1⟩ else ⟨p.line, p.column + 1⟩

end Position

structure Span where
  start : Position
  stop : Position
  deriving DecidableEq, Repr

namespace Span

def point (p : Position) : Span :=
  ⟨p, p⟩

def isOneLine (s : Span) : Bool :=
  s.start.line == s.stop.line

def marks (s : Span) : Nat :=
  max 1 (s.stop.column - s.start.column)

end Span
end Pattern
end TransportStream
