import TransportStream.Pattern.Flaw

/-!
# Patterns as trees

A pattern as it is written, each part with the place where it stands.
-/

namespace TransportStream
namespace Pattern

inductive Flag where
  | caseless
  | manyLines
  | dotAll
  | swapGreed
  | wide
  | returns
  | loose
  deriving DecidableEq, Repr

abbrev FlagChanges := List (Flag × Bool)

def FlagChanges.value? (changes : FlagChanges) (flag : Flag) : Option Bool :=
  (changes.find? (·.1 = flag)).map (·.2)

structure Literal where
  span : Span
  char : Char
  /-- Whether it is written as two hexadecimal digits, and so can mean a
  byte. -/
  isByte : Bool
  deriving DecidableEq, Repr

inductive Assertion where
  | lineStart
  | lineEnd
  | textStart
  | textEnd
  | boundary
  | noBoundary
  | wordStart
  | wordEnd
  | wordStartHalf
  | wordEndHalf
  deriving DecidableEq, Repr

inductive PerlClass where
  | digit
  | space
  | word
  deriving DecidableEq, Repr

inductive Property where
  | named (name : String)
  | valued
  deriving DecidableEq, Repr

inductive SetOperation where
  | intersection
  | difference
  | symmetricDifference
  deriving DecidableEq, Repr

inductive ClassTree where
  | nothing (span : Span)
  | literal (l : Literal)
  | range (span : Span) (first last : Literal)
  | posix (span : Span) (negated : Bool) (runs : List (Nat × Nat))
  | property (span : Span) (negated : Bool) (p : Property)
  | perl (span : Span) (negated : Bool) (c : PerlClass)
  | bracket (span : Span) (negated : Bool) (inside : ClassTree)
  | union (span : Span) (parts : List ClassTree)
  | operation (span : Span) (op : SetOperation) (left right : ClassTree)

inductive Tree where
  | nothing (span : Span)
  | flags (span : Span) (changes : FlagChanges)
  | literal (l : Literal)
  | dot (span : Span)
  | assertion (span : Span) (a : Assertion)
  | property (span : Span) (negated : Bool) (p : Property)
  | perl (span : Span) (negated : Bool) (c : PerlClass)
  | bracket (c : ClassTree)
  | repetition (span : Span) (lazy : Bool) (least : Nat) (most : Option Nat)
    (part : Tree)
  | group (span : Span) (changes : FlagChanges) (captures : Bool) (part : Tree)
  | branches (span : Span) (parts : List Tree)
  | sequence (span : Span) (parts : List Tree)

def ClassTree.span : ClassTree -> Span
  | .literal l => l.span
  | .nothing s | .range s _ _ | .posix s _ _ | .property s _ _
  | .perl s _ _ | .bracket s _ _
  | .union s _ | .operation s _ _ _ => s

def Tree.span : Tree -> Span
  | .literal l => l.span
  | .bracket c => c.span
  | .nothing s | .flags s _ | .dot s | .assertion s _ | .property s _ _
  | .perl s _ _
  | .repetition s _ _ _ _ | .group s _ _ _ | .branches s _ | .sequence s _ => s

/-!
# Depth
-/

mutual

/-- The first part nested more deeply than `room` allows. -/
def ClassTree.tooDeep? (room : Nat) : ClassTree -> Option Span
  | .bracket span _ inside =>
      match room with
      | 0 => some span
      | room + 1 => inside.tooDeep? room
  | .union span parts =>
      match room with
      | 0 => some span
      | room + 1 => anyClassTooDeep? room parts
  | .operation span _ left right =>
      match room with
      | 0 => some span
      | room + 1 => left.tooDeep? room <|> right.tooDeep? room
  | _ => none

def anyClassTooDeep? (room : Nat) : List ClassTree -> Option Span
  | [] => none
  | c :: rest => c.tooDeep? room <|> anyClassTooDeep? room rest

end

mutual

def Tree.tooDeep? (room : Nat) : Tree -> Option Span
  | .bracket c => c.tooDeep? room
  | .repetition span _ _ _ part =>
      match room with
      | 0 => some span
      | room + 1 => part.tooDeep? room
  | .group span _ _ part =>
      match room with
      | 0 => some span
      | room + 1 => part.tooDeep? room
  | .branches span parts =>
      match room with
      | 0 => some span
      | room + 1 => anyTooDeep? room parts
  | .sequence span parts =>
      match room with
      | 0 => some span
      | room + 1 => anyTooDeep? room parts
  | _ => none

def anyTooDeep? (room : Nat) : List Tree -> Option Span
  | [] => none
  | t :: rest => t.tooDeep? room <|> anyTooDeep? room rest

end
end Pattern
end TransportStream
