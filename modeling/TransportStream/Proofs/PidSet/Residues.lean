import Mathlib.Data.Finset.Sort
import TransportStream.Proofs.PidSet

/-!
# Sets by what was put into them

Of a value that is put into a set only the remainder modulo `0x2000` counts.  A
set is known by the remainders of all its values: the order in which they came,
and how often, is not seen.
-/

namespace TransportStream
namespace PidSet

/-- A set and the values that were put into it, those of a list at once or each
on its own. -/
inductive MadeOf : PidSet -> List Nat -> Prop where
  | collected (ns : List Nat) : MadeOf (ofList ns) ns
  | inserted {s : PidSet} {ns : List Nat} (h : MadeOf s ns) (n : Nat) :
      MadeOf (s.insertNew n).2 (ns ++ [n])

def residues (ns : List Nat) : Finset Nat :=
  ns.toFinset.image (· % 0x2000)

theorem mem_residues {ns : List Nat} {r : Nat} :
    r ∈ residues ns ↔ exists n, n ∈ ns ∧ n % 0x2000 = r := by
  simp only [residues, Finset.mem_image, List.mem_toFinset]

theorem residues_congr {ns ms : List Nat} (h : forall n, n ∈ ns ↔ n ∈ ms) :
    residues ns = residues ms :=
  congrArg (Finset.image _) (List.toFinset.ext h)

theorem eq_ofList_of_madeOf {s : PidSet} {ns : List Nat} (h : MadeOf s ns) :
    s = ofList ns := by
  induction h with
  | collected ns => rfl
  | @inserted s ns h n ih =>
      show s.insert n = _
      rw [ih, ofList, ofList, List.foldl_concat]

theorem mem_toList_ofList {ns : List Nat} {r : Nat} :
    r ∈ (ofList ns).toList ↔ r ∈ residues ns := by
  rw [ofList, mem_toList_foldl_insert_iff, mem_residues, toList_empty]
  exact or_iff_right List.not_mem_nil

theorem toFinset_toList_ofList (ns : List Nat) :
    (ofList ns).toList.toFinset = residues ns := by
  ext r
  rw [List.mem_toFinset, mem_toList_ofList]

theorem contains_ofList {ns : List Nat} {p : Nat} :
    (ofList ns).contains p = true ↔
      exists n, n ∈ ns ∧ n % 0x2000 = p % 0x2000 := by
  rw [contains_iff, mem_toList_ofList, mem_residues]
  rfl

theorem size_ofList (ns : List Nat) :
    (ofList ns).size = (residues ns).card := by
  rw [← toFinset_toList_ofList, List.toFinset_card_of_nodup (nodup_toList _)]
  rfl

theorem toList_ofList (ns : List Nat) :
    (ofList ns).toList = (residues ns).sort (· ≤ ·) := by
  have hsorted : (ofList ns).toList.Pairwise (· ≤ ·) :=
    (ofList ns).ordered.imp Nat.le_of_lt
  rw [← toFinset_toList_ofList]
  exact ((List.toFinset_sort _ (nodup_toList _)).mpr hsorted).symm

theorem ofList_eq_ofList_iff {ns ms : List Nat} :
    ofList ns = ofList ms ↔ residues ns = residues ms := by
  constructor
  · intro h
    rw [← toFinset_toList_ofList, h, toFinset_toList_ofList]
  · intro h
    apply eq_of_mem_iff
    intro r
    rw [mem_toList_ofList, mem_toList_ofList, h]

/-- However a set was made, it is the set of the remainders of its values: it
contains what has the remainder of one of them, a further value is new exactly
if it was not contained, the size counts the remainders, and the list holds them
in increasing order.  Two sets are the same exactly if their remainders are, and
so whenever they were made of the same values. -/
theorem holds_residues_of_values {s : PidSet} {ns : List Nat}
    (h : MadeOf s ns) :
    (forall p, s.contains p = true ↔
      exists n, n ∈ ns ∧ n % 0x2000 = p % 0x2000) ∧
      (forall n, (s.insertNew n).1 = true ↔ s.contains n = false) ∧
      s.size = (residues ns).card ∧
      s.toList = (residues ns).sort (· ≤ ·) ∧ s.toList.Pairwise (· < ·) ∧
      forall t ms, MadeOf t ms ->
        (s = t ↔ residues ns = residues ms) ∧
          ((forall n, n ∈ ns ↔ n ∈ ms) -> s = t) := by
  cases eq_ofList_of_madeOf h
  refine ⟨fun p => contains_ofList, ?_, size_ofList ns, toList_ofList ns,
    (ofList ns).ordered, ?_⟩
  · intro n
    rw [insertNew, Bool.not_eq_true']
  · intro t ms ht
    cases eq_ofList_of_madeOf ht
    exact ⟨ofList_eq_ofList_iff, fun hsame =>
      ofList_eq_ofList_iff.mpr (residues_congr hsame)⟩

theorem holds_residues_of_three_values :
    exists s, MadeOf s [0xE100, 0x0100, 0x3FFF] ∧ s.contains 0x2100 = true ∧
      s.contains 0x0101 = false ∧ (s.insertNew 0x5FFF).1 = false ∧ s.size = 2 ∧
      MadeOf (ofList [0x1FFF, 0x0100]) [0x1FFF, 0x0100] ∧
        s = ofList [0x1FFF, 0x0100] := by
  have hmade :
      MadeOf ((ofList [0xE100, 0x0100]).insertNew 0x3FFF).2
      [0xE100, 0x0100, 0x3FFF] :=
    .inserted (.collected [0xE100, 0x0100]) 0x3FFF
  have hother : MadeOf (ofList [0x1FFF, 0x0100]) [0x1FFF, 0x0100] :=
    .collected _
  rcases holds_residues_of_values hmade with
    ⟨hcontains, hnew, hsize, _, _, hsame⟩
  refine ⟨_, hmade, ?_, ?_, ?_, hsize.trans (by decide), hother, ?_⟩
  · exact (hcontains 0x2100).mpr ⟨0x0100, by decide, rfl⟩
  · rw [← Bool.not_eq_true, hcontains]
    decide
  · rw [← Bool.not_eq_true, hnew, Bool.not_eq_false, hcontains]
    exact ⟨0x3FFF, by decide, rfl⟩
  · exact (hsame _ _ hother).left.mpr (by decide)

end PidSet
end TransportStream
