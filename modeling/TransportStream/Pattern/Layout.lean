import TransportStream.Pattern.Encoding
import Std.Data.HashMap

/-!
# Laying out a machine

A machine that recognises a pattern is laid out node by node.  Only the room
that it takes is kept: nodes that have arrows to several others own lists of
them.  Nodes are numbered in the order in which they are laid out, and the nodes
of one set of characters are shared as far as a small memory of what was laid
out finds them again.
-/

namespace TransportStream
namespace Pattern

def maxSize : Nat := 10485760

structure Layout where
  count : Nat
  owned : Nat
  deriving DecidableEq, Repr

namespace Layout

def empty : Layout :=
  ⟨0, 0⟩

def bytes (l : Layout) : Nat :=
  32 * l.count + l.owned

def isFull (l : Layout) : Bool :=
  maxSize < l.bytes

def nodes (n : Nat) (l : Layout) : Layout :=
  ⟨l.count + n, l.owned⟩

def node (l : Layout) : Layout :=
  l.nodes 1

def rangesNode (ranges : Nat) (l : Layout) : Layout :=
  ⟨l.count + 1, l.owned + 8 * ranges⟩

def arrows (n : Nat) (l : Layout) : Layout :=
  ⟨l.count, l.owned + 4 * n⟩

theorem bytes_nodes (n : Nat) (l : Layout) :
    (l.nodes n).bytes = l.bytes + 32 * n := by
  simp only [bytes, nodes]
  omega

theorem bytes_rangesNode (ranges : Nat) (l : Layout) :
    (l.rangesNode ranges).bytes = l.bytes + 32 + 8 * ranges := by
  simp only [bytes, rangesNode]
  omega

theorem bytes_arrows (n : Nat) (l : Layout) :
    (l.arrows n).bytes = l.bytes + 4 * n := by
  simp only [bytes, arrows]
  omega

end Layout

/-- A part that is laid out. -/
structure Laid where
  layout : Layout
  forks : Bool
  deriving DecidableEq, Repr

namespace Laid

def leave (x : Laid) : Layout :=
  x.layout.arrows x.forks.toNat

def andThen (x : Laid) (part : Layout -> Laid) : Laid :=
  let y := part x.layout
  ⟨y.layout.arrows x.forks.toNat, y.forks⟩

end Laid

namespace Layout

/-!
# Repetitions
-/

def moreTimes (part : Layout -> Laid) : Nat -> Laid -> Laid
  | 0, x => x
  | n + 1, x => if x.layout.isFull then x else moreTimes part n (x.andThen part)

def exactly (part : Layout -> Laid) (l : Layout) : Nat -> Laid
  | 0 => ⟨l.node, false⟩
  | n + 1 => moreTimes part n (part l)

def optionalTimes (part : Layout -> Laid) : Nat -> Laid -> Laid
  | 0, x => x
  | n + 1, x =>
      if x.layout.isFull then x
      else
        let y := part x.layout.node
        optionalTimes part n ⟨y.layout.arrows (2 + x.forks.toNat), y.forks⟩

def optional (part : Layout -> Laid) (l : Layout) : Laid :=
  ⟨(part l.node).leave.node.arrows 2, false⟩

/-- A part any number of times.  If it always takes something, one fork does for
all turns. -/
def anyTimes (part : Layout -> Laid) (takes : Bool) (l : Layout) : Laid :=
  if takes then ⟨(part l.node).leave.arrows 1, true⟩
  else ⟨((part l).leave.nodes 3).arrows 4, false⟩

/-- A part once at least.  Behind the last turn a fork leads back to it. -/
def someTimes (part : Layout -> Laid) (least : Nat) (l : Layout) : Laid :=
  match least with
  | 0 | 1 => ⟨(part l).leave.node.arrows 1, true⟩
  | n + 2 => ⟨((exactly part l (n + 1)).andThen part).leave.node.arrows 1, true⟩

def boundedTimes (part : Layout -> Laid) (least most : Nat) (l : Layout) :
    Laid :=
  let x := exactly part l least
  ⟨(optionalTimes part (most - least) ⟨x.layout.node, x.forks⟩).leave, false⟩

def repeated (part : Layout -> Laid) (takes : Bool) (least : Nat)
    (most : Option Nat) (l : Layout) : Laid :=
  match least, most with
  | 0, none => l.anyTimes part takes
  | least, none => l.someTimes part least
  | 0, some 1 => l.optional part
  | least, some most =>
      if least = most then l.exactly part least
      else l.boundedTimes part least most

end Layout

/-!
# Sets of characters
-/

/-- Nodes that can be found again by what is in them. -/
structure Sharing where
  layout : Layout
  known : Std.HashMap Nat (List Nat × Nat)

def memoryPlace (room : Nat) (contents : List Nat) : Nat :=
  let mixed :=
    contents.foldl (fun h n => (h ^^^ UInt64.ofNat n) * 1099511628211)
      (14695981039346656037 : UInt64)
  mixed.toNat % room

namespace Sharing

def newNode (s : Sharing) (place ranges : Nat) (contents : List Nat) :
    Sharing × Nat :=
  let number := s.layout.count
  (⟨s.layout.rangesNode ranges, s.known.insert place (contents, number)⟩,
    number)

def node (s : Sharing) (room ranges : Nat) (contents : List Nat) :
    Sharing × Nat :=
  let place := memoryPlace room contents
  match (s.known[place]?).filter fun known => known.1 == contents with
  | some (_, number) => (s, number)
  | none => s.newNode place ranges contents

/-- The node from which given sequences lead to a target.  It is laid out behind
all nodes that are further on, in the order of the sequences, of which none is
longer than `depth`. -/
def tree (target : Nat) :
    Nat -> List (List ByteRange) -> Sharing -> Sharing × Nat
  | 0, _, s => (s, target)
  | depth + 1, sequences, s =>
      let step := fun
          (done : Sharing × List Nat) (group : List (List ByteRange)) =>
        match group with
        | (range :: _) :: _ =>
            let (s, next) := tree target depth (group.map List.tail) done.1
            (s, done.2 ++ [range.1, range.2, next])
        | _ => done
      if sequences.all List.isEmpty then (s, target)
      else
        let groups := sequences.splitBy fun a b => a.head? == b.head?
        let (s, contents) := groups.foldl step (s, [])
        s.node 10000 groups.length contents

def chain (s : Sharing) (target : Nat) (sequence : List ByteRange) :
    Sharing × Nat :=
  sequence.foldl (fun done range =>
    done.1.node 1000 0 [done.2, range.1, range.2]) (s, target)

end Sharing

namespace Layout

def setForward (runs : Runs) (l : Layout) : Layout :=
  (Sharing.tree l.count 4 runs.sequences ⟨l.node, ∅⟩).1.layout

def setBackward (runs : Runs) (l : Layout) : Layout :=
  let start : Sharing := ⟨l.nodes 2, ∅⟩
  let target := l.count + 1
  let laid :=
    runs.sequences.foldl (fun s sequence => (s.chain target sequence).1) start
  laid.layout.arrows runs.sequences.length

def set (backward wide : Bool) (runs : Runs) (l : Layout) : Layout :=
  if !wide || runs.isAscii then l.node.rangesNode runs.length
  else if backward then l.setBackward runs
  else l.setForward runs

end Layout
end Pattern
end TransportStream
