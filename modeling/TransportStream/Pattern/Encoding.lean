import TransportStream.Pattern.CharSet

/-!
# Encoded characters

Characters are encoded as one to four bytes.  The characters of a run are
encoded as sequences of ranges of bytes, where every choice of a byte from each
range encodes one of them.
-/

namespace TransportStream
namespace Pattern

abbrev ByteRange := Nat × Nat

def encoded (n : Nat) : List Nat :=
  if n < 0x80 then [n]
  else if n < 0x800 then [0xC0 + n / 0x40, 0x80 + n % 0x40]
  else if n < 0x10000 then
    [0xE0 + n / 0x1000, 0x80 + n / 0x40 % 0x40, 0x80 + n % 0x40]
  else
    [0xF0 + n / 0x40000, 0x80 + n / 0x1000 % 0x40, 0x80 + n / 0x40 % 0x40,
      0x80 + n % 0x40]

def encodedText (chars : List Char) : List Nat :=
  chars.flatMap fun c => encoded c.toNat

def lengthLimits : List Nat :=
  [0x7F, 0x7FF, 0xFFFF]

/-- How many numbers share all bytes but the last one, two or three. -/
def blockSizes : List Nat :=
  [0x40, 0x1000, 0x40000]

/-- Where a run that reaches over several blocks has to be cut: behind a block
that it does not begin with, or in front of one that it does not end with. -/
def blockCut? (first last size : Nat) : Option Nat :=
  if first / size = last / size then none
  else if first % size ≠ 0 then some (first / size * size + (size - 1))
  else if last % size ≠ size - 1 then some (last / size * size - 1)
  else none

def cut? (first last : Nat) : Option Nat :=
  match lengthLimits.find? fun limit => first ≤ limit && limit < last with
  | some limit => some limit
  | none =>
      if last < 0x80 then none else blockSizes.findSome? (blockCut? first last)

def sequencesOfRun (first last : Nat) : List (List ByteRange) :=
  match cut? first last with
  | none => [(encoded first).zip (encoded last)]
  | some n =>
      if first ≤ n ∧ n < last then
        sequencesOfRun first n ++ sequencesOfRun (n + 1) last
      else []
termination_by last - first

/-- A run of ordinals as runs of numbers, without the gap for surrogates. -/
def codeRuns (run : Nat × Nat) : List (Nat × Nat) :=
  if run.1 < 0xD800 ∧ 0xD800 ≤ run.2 then
    [(run.1, 0xD7FF), (0xE000, codeOfOrdinal run.2)]
  else [(codeOfOrdinal run.1, codeOfOrdinal run.2)]

namespace Runs

def sequences (r : Runs) : List (List ByteRange) :=
  (r.flatMap codeRuns).flatMap fun run => sequencesOfRun run.1 run.2

end Runs

theorem encoded_of_lt {n : Nat} (h : n < 0x80) : encoded n = [n] := by
  simp [encoded, h]

/-!
A run is always cut inside, so that what is behind a cut is never dropped.
-/

theorem inside_of_blockCut? {first last size n : Nat}
    (hsize : size ∈ blockSizes) (hle : first ≤ last)
    (h : blockCut? first last size = some n) :
    first ≤ n ∧ n < last := by
  have hsizes : size = 0x40 ∨ size = 0x1000 ∨ size = 0x40000 := by
    simpa [blockSizes] using hsize
  unfold blockCut? at h
  split at h
  · cases h
  · split at h
    · cases h
      rcases hsizes with rfl | rfl | rfl <;> omega
    · split at h
      · cases h
        rcases hsizes with rfl | rfl | rfl <;> omega
      · cases h

theorem inside_of_cut? {first last n : Nat} (hle : first ≤ last)
    (h : cut? first last = some n) : first ≤ n ∧ n < last := by
  unfold cut? at h
  split at h
  · rename_i limit hlimit
    cases h
    simpa using List.find?_some hlimit
  · split at h
    · cases h
    · obtain ⟨size, hsize, hcut⟩ := List.exists_of_findSome?_eq_some h
      exact inside_of_blockCut? hsize hle hcut

theorem sequencesOfRun_of_cut {first last n : Nat} (hle : first ≤ last)
    (h : cut? first last = some n) :
    sequencesOfRun first last =
      sequencesOfRun first n ++ sequencesOfRun (n + 1) last := by
  rw [sequencesOfRun, h]
  exact if_pos (inside_of_cut? hle h)

-- The characters that take three bytes, apart from surrogates.
example :
    Runs.sequences [(0x800, 0xF7FF)] =
      [[(0xE0, 0xE0), (0xA0, 0xBF), (0x80, 0xBF)],
        [(0xE1, 0xEC), (0x80, 0xBF), (0x80, 0xBF)],
        [(0xED, 0xED), (0x80, 0x9F), (0x80, 0xBF)],
        [(0xEE, 0xEF), (0x80, 0xBF), (0x80, 0xBF)]] := by
  decide +kernel

end Pattern
end TransportStream
