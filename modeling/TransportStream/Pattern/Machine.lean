import TransportStream.Pattern.Matcher
import TransportStream.Pattern.WordTree

/-!
# Machines

Two machines are laid out for a matcher: one reads a text forward and notes
where groups begin and end, the other reads backward and takes no notes.  Both
may begin anywhere, unless all matches begin at that end of the text.
-/

namespace TransportStream
namespace Pattern

mutual

def Matcher.reversed : Matcher -> Matcher
  | .group m => m.reversed
  | .repetition lazy least most m => .repetition lazy least most m.reversed
  | .sequence ms => .sequence (reverseBefore [] ms)
  | .either ms => .either (reverseBefore [] ms).reverse
  | m => m

def reverseBefore (done : List Matcher) : List Matcher -> List Matcher
  | [] => done
  | m :: rest => reverseBefore (m.reversed :: done) rest

end

def Matcher.word? (backward : Bool) : Matcher -> Option Word
  | .text chars =>
      some (if backward then (encodedText chars).reverse else encodedText chars)
  | _ => none

mutual

def Matcher.lay (backward : Bool) : Matcher -> Layout -> Laid
  | .nothing, l => ⟨l.node, false⟩
  | .text chars, l => ⟨l.nodes (encodedText chars).length, false⟩
  | .oneOf wide runs, l => ⟨l.set backward wide runs, false⟩
  | .look _ _, l => ⟨l.node, false⟩
  | .group m, l => ⟨(m.lay backward l.node).leave.node, false⟩
  | .repetition _ least most m, l =>
      l.repeated (fun l => m.lay backward l) (m.extent.shortest.any (0 < ·))
        least most
  | .sequence [], l => ⟨l.node, false⟩
  | .sequence (m :: rest), l => layBehind backward (m.lay backward l) rest
  | .either ms, l =>
      match ms.mapM (Matcher.word? backward) with
      | some words => ⟨layWords words l, false⟩
      | none => ⟨layBranches backward 2 ms l, false⟩

def layBehind (backward : Bool) (x : Laid) : List Matcher -> Laid
  | [] => x
  | m :: rest => layBehind backward (x.andThen fun l => m.lay backward l) rest

/-- Lay out branches.  After a number of them come the fork that leads to all
and the node behind all. -/
def layBranches (backward : Bool) (before : Nat) :
    List Matcher -> Layout -> Layout
  | [], l => l
  | m :: rest, l =>
      let l' := (m.lay backward l).leave.arrows 1
      layBranches backward (before - 1) rest
        (if before = 1 then l'.nodes 2 else l')

end

/-- What stands in front of a matcher: nothing, or any bytes that are not part
of a match. -/
def leadIn (anchored : Bool) : Matcher :=
  if anchored then .nothing
  else .repetition true 0 none (.oneOf false [(0, 0xFF)])

def layMachine (backward anchored : Bool) (m : Matcher) : Layout :=
  ((Matcher.sequence [leadIn anchored, m]).lay backward .empty).leave.node

namespace Matcher

def forwardMachine (m : Matcher) : Layout :=
  layMachine false m.extent.opensText (.group m)

def backwardMachine (m : Matcher) : Layout :=
  layMachine true m.extent.closesText m.reversed

end Matcher
end Pattern
end TransportStream
