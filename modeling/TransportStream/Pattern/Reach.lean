import TransportStream.Pattern.Matcher

/-!
# Matching

A matcher is run on all places of a text at once.  Its reach says for each place
where the matches that begin there end.  Parts of matchers are combined by
combining their reaches, so that none is run twice.
-/

namespace TransportStream
namespace Pattern

-- Powers of natural numbers are those of the core library, whatever else is
-- imported.
attribute [local instance (high)] instPowNat

/-- A set of distances: bit `k` is set if a match ends `k` characters further
on. -/
abbrev Ends := Nat

abbrev Reach := List Ends

namespace Reach

def stay (places : Nat) : Reach :=
  List.replicate places 1

def nowhere (places : Nat) : Reach :=
  List.replicate places 0

def ofRest (ends : List Char -> Ends) : List Char -> Reach
  | [] => [ends []]
  | c :: rest => ends (c :: rest) :: ofRest ends rest

theorem length_ofRest (ends : List Char -> Ends) (text : List Char) :
    (ofRest ends text).length = text.length + 1 := by
  induction text with
  | nil => rfl
  | cons c rest ih => simp [ofRest, ih]

/-- Go on from all ends, by the reach of the places from the present one on. -/
def follow : Ends -> Reach -> Ends
  | _, [] => 0
  | ends, there :: rest =>
      if ends = 0 then 0
      else (if ends % 2 = 1 then there else 0) ||| 2 * follow (ends / 2) rest

def andThen : Reach -> Reach -> Reach
  | r :: rs, s :: ss => follow r (s :: ss) :: andThen rs ss
  | _, _ => []

def orElse (r s : Reach) : Reach :=
  List.zipWith (· ||| ·) r s

/-- Any number of matches.  Those that take nothing lead nowhere else, and all
others lead to later places, of which it is known already where they lead. -/
def star : Reach -> Reach
  | [] => []
  | r :: rs =>
      let later := star rs
      (1 ||| 2 * follow (r / 2) later) :: later

theorem length_andThen (r s : Reach) :
    (r.andThen s).length = min r.length s.length := by
  induction r generalizing s with
  | nil => simp [andThen]
  | cons a r ih =>
      cases s with
      | nil => simp [andThen]
      | cons b s =>
          simp only [andThen, List.length_cons, ih]
          omega

theorem length_star (r : Reach) : r.star.length = r.length := by
  induction r with
  | nil => rfl
  | cons a r ih => simp [star, ih]

def times (r : Reach) (n : Nat) : Reach :=
  if n = 0 then stay r.length
  else if n % 2 = 0 then (r.andThen r).times (n / 2)
  else r.andThen ((r.andThen r).times (n / 2))
termination_by n

/-- A number of matches between two limits.  Of more matches than there are
characters, one takes nothing, and it makes no difference how often that one is
taken. -/
def repeated (r : Reach) (least : Nat) (most : Option Nat) : Reach :=
  let further := match most with
    | none => r.star
    | some most =>
        (r.orElse (stay r.length)).times (min r.length (most - least))
  (r.times (min r.length least)).andThen further

def isSomewhere (r : Reach) : Bool :=
  r.any (· != 0)

end Reach

def endsOfText (chars rest : List Char) : Ends :=
  if chars.isPrefixOf rest then 2 ^ chars.length else 0

def endsOfSet (runs : Runs) (rest : List Char) : Ends :=
  match rest with
  | [] => 0
  | c :: _ => if runs.contains (ordinal c) then 2 else 0

def reachOfLook (wide : Bool) (l : Look) (text : List Char) : Reach :=
  (places text).map fun p => if !wide && l.holds p then 1 else 0

mutual

def Matcher.reach (text : List Char) : Matcher -> Reach
  | .nothing => .stay (text.length + 1)
  | .text chars => .ofRest (endsOfText chars) text
  | .oneOf _ runs => .ofRest (endsOfSet runs) text
  | .look wide l => reachOfLook wide l text
  | .group m => m.reach text
  | .repetition _ least most m => (m.reach text).repeated least most
  | .sequence ms => reachOfAll text (.stay (text.length + 1)) ms
  | .either ms => reachOfAny text (.nowhere (text.length + 1)) ms

def reachOfAll (text : List Char) (r : Reach) : List Matcher -> Reach
  | [] => r
  | m :: rest =>
      if r.isSomewhere then reachOfAll text (r.andThen (m.reach text)) rest
      else r

def reachOfAny (text : List Char) (r : Reach) : List Matcher -> Reach
  | [] => r
  | m :: rest => reachOfAny text (r.orElse (m.reach text)) rest

end

def Matcher.occursIn (m : Matcher) (text : List Char) : Bool :=
  (m.reach text).isSomewhere

end Pattern
end TransportStream
