import TransportStream.Packet

/-!
# Sets of packet identifiers

A set keeps its identifiers in increasing order, so that equal sets are equal
values.  Identifiers have thirteen bits; of a larger number only those bits
count.
-/

namespace TransportStream

structure PidSet where
  toList : List Nat
  ordered : toList.Pairwise (· < ·)
  deriving DecidableEq

namespace PidSet

/-- The thirteen bits of a number that name an identifier. -/
def mask (n : Nat) : Nat :=
  n % 0x2000

def empty : PidSet :=
  ⟨[], List.Pairwise.nil⟩

instance : EmptyCollection PidSet := ⟨empty⟩

instance : Inhabited PidSet := ⟨empty⟩

def contains (s : PidSet) (n : Nat) : Bool :=
  s.toList.contains (mask n)

def size (s : PidSet) : Nat :=
  s.toList.length

def isEmpty (s : PidSet) : Bool :=
  s.toList.isEmpty

def insertOrdered (p : Nat) : List Nat -> List Nat
  | [] => [p]
  | q :: rest =>
      if p < q then p :: q :: rest
      else if p = q then q :: rest
      else q :: insertOrdered p rest

theorem mem_insertOrdered {p q : Nat} {l : List Nat} :
    q ∈ insertOrdered p l ↔ q = p ∨ q ∈ l := by
  induction l with
  | nil => simp [insertOrdered]
  | cons r rest ih =>
      unfold insertOrdered
      split
      · simp
      · split
        · rename_i heq
          subst heq
          simp
        · simp only [List.mem_cons, ih]
          constructor
          · rintro (h | h | h) <;> simp [h]
          · rintro (h | h | h) <;> simp [h]

theorem pairwise_insertOrdered {p : Nat} {l : List Nat}
    (h : l.Pairwise (· < ·)) :
    (insertOrdered p l).Pairwise (· < ·) := by
  induction l with
  | nil => simp [insertOrdered]
  | cons q rest ih =>
      obtain ⟨hq, hrest⟩ := List.pairwise_cons.1 h
      unfold insertOrdered
      split
      · rename_i hlt
        refine List.pairwise_cons.2 ⟨?_, h⟩
        intro r hr
        cases List.mem_cons.1 hr with
        | inl heq => exact heq ▸ hlt
        | inr hmem => exact Nat.lt_trans hlt (hq r hmem)
      · split
        · exact h
        · refine List.pairwise_cons.2 ⟨?_, ih hrest⟩
          intro r hr
          cases mem_insertOrdered.1 hr with
          | inl heq => omega
          | inr hmem => exact hq r hmem

def insert (s : PidSet) (n : Nat) : PidSet :=
  ⟨insertOrdered (mask n) s.toList, pairwise_insertOrdered s.ordered⟩

def insertNew (s : PidSet) (n : Nat) : Bool × PidSet :=
  (!s.contains n, s.insert n)

def ofList (ns : List Nat) : PidSet :=
  ns.foldl insert empty

@[simp] theorem toList_empty : empty.toList = [] := rfl

@[simp] theorem contains_iff {s : PidSet} {n : Nat} :
    s.contains n = true ↔ mask n ∈ s.toList := by
  simp [contains]

theorem mem_toList_insert {s : PidSet} {n : Nat} {p : Nat} :
    p ∈ (s.insert n).toList ↔ p = mask n ∨ p ∈ s.toList :=
  mem_insertOrdered

theorem contains_insert {s : PidSet} {m n : Nat} :
    (s.insert m).contains n = true ↔ mask n = mask m ∨ s.contains n = true := by
  simp [mem_toList_insert]

end PidSet
end TransportStream
