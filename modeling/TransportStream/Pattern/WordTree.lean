import TransportStream.Pattern.Layout

/-!
# Trees of words

Branches that are all words are laid out as a tree, in which words with the same
beginning share nodes.  Earlier words come first: where a word ends, those
behind it in the list begin new nodes.
-/

namespace TransportStream
namespace Pattern

abbrev Word := List Nat

structure Twig where
  byte : Nat
  words : List Word
  deriving DecidableEq, Repr

def addToTwigs (byte : Nat) (word : Word) : List Twig -> List Twig
  | [] => [⟨byte, [word]⟩]
  | t :: rest =>
      if t.byte = byte then ⟨byte, word :: t.words⟩ :: rest
      else t :: addToTwigs byte word rest

/-- A node of a tree: how the words go on from it. -/
structure Bough where
  closed : List (List Twig)
  twigs : List Twig
  deriving DecidableEq, Repr

namespace Bough

def bare : Bough :=
  ⟨[], []⟩

def add (b : Bough) : Word -> Bough
  | [] =>
      if b.twigs.isEmpty && !b.closed.isEmpty && b.closed.all List.isEmpty then
        b
      else ⟨b.twigs :: b.closed, []⟩
  | byte :: word => ⟨b.closed, addToTwigs byte word b.twigs⟩

def ofWords (words : List Word) : Bough :=
  words.foldl add bare

def levels (b : Bough) : List (List Twig) :=
  b.twigs :: b.closed

def layTwigs (l : Layout) (twigs : List Twig) : Layout :=
  match twigs.length with
  | 0 => l
  | 1 => l.node.arrows 1
  | n => (l.rangesNode n).arrows 1

def lay (l : Layout) (b : Bough) : Layout :=
  (b.levels.foldl layTwigs l).node.arrows b.closed.length

def further (b : Bough) : List (List Word) :=
  (b.levels.flatten.map fun t => t.words.reverse).filter fun words =>
    !words.all List.isEmpty

end Bough

/-- The nodes of a tree, given the words behind each node of one level.  No word
is longer than the number of levels. -/
def layLevels : Nat -> List (List Word) -> Layout -> Layout
  | 0, _, l => l
  | levels + 1, nodes, l =>
      let boughs := nodes.map Bough.ofWords
      layLevels levels (boughs.flatMap Bough.further) (boughs.foldl Bough.lay l)

def layWords (words : List Word) (l : Layout) : Layout :=
  layLevels (words.foldl (fun n word => max n word.length) 0) [words] l.node

end Pattern
end TransportStream
