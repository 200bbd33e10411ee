/-!
# Sets of characters

A set of characters is a list of runs of their ordinals, which count the
characters without the gap that surrogates leave.  The runs increase and never
touch, so that a set is empty exactly when its list is.
-/

namespace TransportStream
namespace Pattern

def ordinal (c : Char) : Nat :=
  if c.toNat < 0xD800 then c.toNat else c.toNat - 0x800

def codeOfOrdinal (n : Nat) : Nat :=
  if n < 0xD800 then n else n + 0x800

def charOfOrdinal (n : Nat) : Char :=
  Char.ofNat (codeOfOrdinal n)

theorem codeOfOrdinal_ordinal (c : Char) :
    codeOfOrdinal (ordinal c) = c.toNat := by
  have hc : c.toNat < 0xD800 ∨
      (0xDFFF < c.toNat ∧ c.toNat < 0x110000) := c.valid
  unfold codeOfOrdinal ordinal
  by_cases h : c.toNat < 0xD800
  · simp [h]
  · have hlow : ¬c.toNat - 0x800 < 0xD800 := by omega
    simp only [h, hlow, if_false]
    omega

theorem charOfOrdinal_ordinal (c : Char) : charOfOrdinal (ordinal c) = c := by
  rw [charOfOrdinal, codeOfOrdinal_ordinal, Char.ofNat_toNat]

abbrev Runs := List (Nat × Nat)

namespace Runs

def insert (first last : Nat) : Runs -> Runs
  | [] => [(first, last)]
  | (a, b) :: rest =>
      if last + 1 < a then (first, last) :: (a, b) :: rest
      else if b + 1 < first then (a, b) :: insert first last rest
      else insert (min a first) (max b last) rest

def union (r s : Runs) : Runs :=
  s.foldl (fun joined run => insert run.1 run.2 joined) r

/-- What lies between the runs, from `start` up to and including `top`. -/
def gaps (start top : Nat) : Runs -> Runs
  | [] => if start ≤ top then [(start, top)] else []
  | (a, b) :: rest =>
      if start < a then (start, a - 1) :: gaps (b + 1) top rest
      else gaps (b + 1) top rest

def complement (top : Nat) (r : Runs) : Runs :=
  gaps 0 top r

def intersection (top : Nat) (r s : Runs) : Runs :=
  complement top (union (complement top r) (complement top s))

def contains (r : Runs) (n : Nat) : Bool :=
  r.any fun run => run.1 ≤ n && n ≤ run.2

def isAscii (r : Runs) : Bool :=
  r.all (·.2 < 0x80)

def moved (first last target : Nat) (run : Nat × Nat) : Runs :=
  let low := max first run.1
  let high := min last run.2
  if low ≤ high then [(low - first + target, high - first + target)] else []

def foldAscii (r : Runs) : Runs :=
  union (union r (r.flatMap (moved 97 122 65))) (r.flatMap (moved 65 90 97))

end Runs

structure CharSet where
  runs : Runs
  /-- Whether it is known that with a character every other case of it is in the
  set. -/
  folded : Bool
  deriving DecidableEq, Repr

namespace CharSet

def empty : CharSet :=
  ⟨[], true⟩

def ofRuns (runs : List (Nat × Nat)) : CharSet :=
  ⟨Runs.union [] runs, runs.isEmpty⟩

def ofRange (first last : Nat) : CharSet :=
  ⟨[(first, last)], false⟩

def isEmpty (s : CharSet) : Bool :=
  s.runs.isEmpty

def union (s t : CharSet) : CharSet :=
  if t.isEmpty || s.runs == t.runs then s
  else ⟨s.runs.union t.runs, s.folded && t.folded⟩

def intersection (top : Nat) (s t : CharSet) : CharSet :=
  if s.isEmpty then s
  else if t.isEmpty then empty
  else ⟨s.runs.intersection top t.runs, s.folded && t.folded⟩

def difference (top : Nat) (s t : CharSet) : CharSet :=
  if s.isEmpty || t.isEmpty then s
  else ⟨s.runs.intersection top (t.runs.complement top), s.folded && t.folded⟩

def symmetricDifference (top : Nat) (s t : CharSet) : CharSet :=
  (s.union t).difference top (s.intersection top t)

/-- All other characters up to the greatest; of no character, all of them, which
is folded. -/
def complement (top : Nat) (s : CharSet) : CharSet :=
  if s.isEmpty then ⟨[(0, top)], true⟩
  else ⟨s.runs.complement top, s.folded⟩

end CharSet

/-!
# Membership
-/

namespace Runs

theorem contains_nil (n : Nat) : contains [] n = false := rfl

theorem contains_cons (a b : Nat) (r : Runs) (n : Nat) :
    contains ((a, b) :: r) n =
      ((decide (a ≤ n) && decide (n ≤ b)) || contains r n) := rfl

theorem contains_insert {first last n : Nat} {r : Runs} (h : first ≤ last)
    (hruns : ∀ run ∈ r, run.1 ≤ run.2) :
    contains (insert first last r) n = true ↔
      (first ≤ n ∧ n ≤ last) ∨ contains r n = true := by
  induction r generalizing first last with
  | nil => simp [insert, contains]
  | cons run rest ih =>
      obtain ⟨a, b⟩ := run
      have hab : a ≤ b := hruns (a, b) (by simp)
      have hrest : ∀ run ∈ rest, run.1 ≤ run.2 := fun run hmem =>
        hruns run (by simp [hmem])
      unfold insert
      split
      · simp [contains]
      · split
        · simp only [contains_cons, Bool.or_eq_true, Bool.and_eq_true,
            decide_eq_true_eq, ih h hrest]
          constructor
          · rintro (h | h | h) <;> simp [h]
          · rintro (h | h | h) <;> simp [h]
        · rw [ih (by omega) hrest]
          simp only [contains_cons, Bool.or_eq_true, Bool.and_eq_true,
            decide_eq_true_eq]
          constructor
          · rintro (hn | hn)
            · by_cases hfirst : first ≤ n ∧ n ≤ last
              · exact Or.inl hfirst
              · exact Or.inr (Or.inl (by omega))
            · exact Or.inr (Or.inr hn)
          · rintro (hn | hn | hn)
            · exact Or.inl (by omega)
            · exact Or.inl (by omega)
            · exact Or.inr hn

end Runs
end Pattern
end TransportStream
