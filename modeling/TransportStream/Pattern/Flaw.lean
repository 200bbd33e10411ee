import TransportStream.Pattern.Span
import TransportStream.Text.Lines

/-!
# Flaws of patterns

A flaw says what is wrong with a pattern and where.  It is shown under the text
of the pattern, with marks at the place.
-/

namespace TransportStream
namespace Pattern

inductive Reason where
  | escapeInClass
  | rangeReversed
  | rangeEndNotLiteral
  | classUnclosed
  | decimalMissing
  | decimalTooLarge
  | hexMissing
  | hexNotCharacter
  | hexInvalidDigit
  | escapeCut
  | escapeUnknown
  | negationDangling
  | negationRepeated
  | flagRepeated
  | flagCut
  | flagUnknown
  | nameRepeated
  | nameMissing
  | nameInvalid
  | nameUnclosed
  | groupUnclosed
  | groupUnopened
  | nestedTooDeep
  | countReversed
  | countUnclosed
  | nothingToRepeat
  | boundaryUnclosed
  | boundaryUnknown
  | boundaryCut
  | propertyNotLetter
  | backreference
  | lookAround
  | propertyNotAllowed
  | notText
  | propertyUnknown
  | propertyValueUnknown
  | perlClassUnavailable
  | caseFoldingUnavailable
  deriving DecidableEq, Repr

def maxDepth : Nat := 250

def Reason.message : Reason -> String
  | .escapeInClass => "invalid escape sequence found in character class"
  | .rangeReversed =>
      "invalid character class range, the start must be <= the end"
  | .rangeEndNotLiteral => "invalid range boundary, must be a literal"
  | .classUnclosed => "unclosed character class"
  | .decimalMissing => "repetition quantifier expects a valid decimal"
  | .decimalTooLarge => "decimal literal invalid"
  | .hexMissing => "hexadecimal literal empty"
  | .hexNotCharacter => "hexadecimal literal is not a Unicode scalar value"
  | .hexInvalidDigit => "invalid hexadecimal digit"
  | .escapeCut =>
      "incomplete escape sequence, reached end of pattern prematurely"
  | .escapeUnknown => "unrecognized escape sequence"
  | .negationDangling => "dangling flag negation operator"
  | .negationRepeated => "flag negation operator repeated"
  | .flagRepeated => "duplicate flag"
  | .flagCut => "expected flag but got end of regex"
  | .flagUnknown => "unrecognized flag"
  | .nameRepeated => "duplicate capture group name"
  | .nameMissing => "empty capture group name"
  | .nameInvalid => "invalid capture group character"
  | .nameUnclosed => "unclosed capture group name"
  | .groupUnclosed => "unclosed group"
  | .groupUnopened => "unopened group"
  | .nestedTooDeep =>
      s!"exceed the maximum number of nested parentheses/brackets ({maxDepth})"
  | .countReversed =>
      "invalid repetition count range, the start must be <= the end"
  | .countUnclosed => "unclosed counted repetition"
  | .nothingToRepeat => "repetition operator missing expression"
  | .boundaryUnclosed =>
      "special word boundary assertion is either unclosed or contains an invalid character"
  | .boundaryUnknown =>
      "unrecognized special word boundary assertion, " ++
        "valid choices are: start, end, start-half or end-half"
  | .boundaryCut =>
      "found either the beginning of a special word boundary or a bounded repetition " ++
        "on a \\b with an opening brace, but no closing brace"
  | .propertyNotLetter => "invalid Unicode character class"
  | .backreference => "backreferences are not supported"
  | .lookAround =>
      "look-around, including look-ahead and look-behind, is not supported"
  | .propertyNotAllowed => "Unicode not allowed here"
  | .notText => "pattern can match invalid UTF-8"
  | .propertyUnknown => "Unicode property not found"
  | .propertyValueUnknown => "Unicode property value not found"
  | .perlClassUnavailable =>
      "Unicode-aware Perl class not found (make sure the unicode-perl feature is enabled)"
  | .caseFoldingUnavailable =>
      "Unicode-aware case insensitivity matching is not available " ++
        "(make sure the unicode-case feature is enabled)"

structure Flaw where
  reason : Reason
  span : Span
  earlier : Option Span
  deriving DecidableEq, Repr

namespace Flaw

def spans (f : Flaw) : List Span :=
  f.earlier.toList ++ [f.span]

def repeated (n : Nat) (c : Char) : String :=
  String.ofList (List.replicate n c)

def marks (column : Nat) : List Span -> String
  | [] => ""
  | s :: rest =>
      let blanks := s.start.column - 1 - column
      repeated blanks ' ' ++ repeated s.marks '^' ++
        marks (column + blanks + s.marks) rest

/-- The digits that the greatest line number takes; none for a single line,
which is not numbered.  A line feed at the end counts as the beginning of a line
more. -/
def numberWidth (pattern : String) : Nat :=
  let count :=
    (Text.lines pattern).length + (if pattern.endsWith "\n" then 1 else 0)
  if count ≤ 1 then 0 else (toString count).length

def margin (width number : Nat) : String :=
  if width = 0 then repeated 4 ' '
  else repeated (width - (toString number).length) ' ' ++
    toString number ++ ": "

def spansOfLine (f : Flaw) (number : Nat) : List Span :=
  f.spans.filter fun s => s.isOneLine && s.start.line == number

def shownLine (f : Flaw) (width number : Nat) (line : String) : List String :=
  let marked := f.spansOfLine number
  let indent := if width = 0 then 4 else width + 2
  (margin width number ++ line) ::
    (if marked.isEmpty then [] else [repeated indent ' ' ++ marks 0 marked])

def shownLines (f : Flaw) (pattern : String) : List String :=
  let width := numberWidth pattern
  ((Text.lines pattern).mapIdx fun i line =>
    f.shownLine width (i + 1) line).flatten

def description (s : Span) : String :=
  s!"on line {s.start.line} (column {s.start.column}) " ++
    s!"through line {s.stop.line} (column {s.stop.column - 1})"

def reportLines (f : Flaw) (pattern : String) : List String :=
  let rule := if pattern.contains '\n' then [repeated 79 '~'] else []
  let described := (f.spans.filter (!·.isOneLine)).map description
  ["regex parse error:"] ++ rule ++ f.shownLines pattern ++ rule ++ described ++
    ["error: " ++ f.reason.message]

def report (f : Flaw) (pattern : String) : String :=
  String.intercalate "\n" (f.reportLines pattern)

end Flaw
end Pattern
end TransportStream
