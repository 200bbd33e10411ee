/-!
# Lines of text

A line feed ends a line, together with a carriage return right before it.
Behind the last line feed stands one line more, unless nothing is left.
-/

namespace TransportStream
namespace Text

def cutLine : List Char -> List Char × Option (List Char)
  | [] => ([], none)
  | c :: rest =>
      if c = '\n' then ([], some rest)
      else
        let (line, later) := cutLine rest
        (c :: line, later)

theorem length_of_cutLine {text line rest : List Char}
    (h : cutLine text = (line, some rest)) :
    rest.length < text.length := by
  induction text generalizing line with
  | nil => cases h
  | cons c text ih =>
      unfold cutLine at h
      split at h
      · cases h
        simp
      · cases htail : cutLine text with
        | mk front later =>
            rw [htail] at h
            cases h
            exact Nat.lt_succ_of_lt (ih htail)

def dropReturn (line : List Char) : List Char :=
  if line.getLast? = some '\r' then line.dropLast else line

def linesOf (text : List Char) : List (List Char) :=
  match h : cutLine text with
  | ([], none) => []
  | (line, none) => [line]
  | (line, some rest) =>
      have := length_of_cutLine h
      dropReturn line :: linesOf rest
termination_by text.length

def lines (text : String) : List String :=
  (linesOf text.toList).map String.ofList

end Text
end TransportStream
