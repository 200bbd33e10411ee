import TransportStream.Pattern.Meaning
import TransportStream.Pattern.Openings
import TransportStream.Pattern.Reach

/-!
# Text patterns

A pattern is compiled once and then looked for in many texts.  It is rejected if
something is wrong with it, if a machine for it would be too large, or if it
needs to know the words of every script.
-/

namespace TransportStream

structure Pattern where
  matcher : Pattern.Matcher

namespace Pattern

inductive Rejection where
  | flawed (f : Flaw)
  | tooLarge
  | needsWords
  deriving DecidableEq, Repr

def Rejection.message (pattern : String) : Rejection -> String
  | .flawed f => f.report pattern
  | .tooLarge => s!"Compiled regex exceeds size limit of {maxSize} bytes."
  | .needsWords => "error building NFA"

def ofMatcher (m : Matcher) : Except Rejection Pattern :=
  if m.needsNoMachine then .ok ⟨m⟩
  else if m.forwardMachine.isFull then .error .tooLarge
  else if m.hasWideLook then .error .needsWords
  else if m.backwardMachine.isFull then .error .tooLarge
  else .ok ⟨m⟩

def compile (text : String) : Except Rejection Pattern :=
  match Tree.parse text with
  | .error f => .error (.flawed f)
  | .ok tree =>
      match tree.matcher .initial with
      | .error f => .error (.flawed f)
      | .ok (m, _) => ofMatcher m

def occursIn (p : Pattern) (text : String) : Bool :=
  p.matcher.occursIn text.toList

end Pattern
end TransportStream
