import Mathlib.Data.List.Perm.Subperm
import TransportStream.Bits
import TransportStream.PidSet

/-!
# Sets of identifiers as sets

A set is determined by its members: the ordered list behind it can be forgotten.
-/

namespace TransportStream
namespace PidSet

theorem mask_pidField (hi lo : UInt8) :
    mask (pidField hi lo) = pidField hi lo :=
  Nat.mod_eq_of_lt (pidField_lt hi lo)

theorem nodup_toList (s : PidSet) : s.toList.Nodup := by
  apply s.ordered.imp
  intro p q hlt
  exact Nat.ne_of_lt hlt

theorem isEmpty_eq_false_iff {s : PidSet} : s.isEmpty = false ↔ s.toList ≠ [] :=
  List.isEmpty_eq_false_iff

theorem subset_insert (s : PidSet) (n : Nat) : s.toList ⊆ (s.insert n).toList :=
  fun _ hp => mem_toList_insert.mpr (.inr hp)

theorem subset_foldl_insert (s : PidSet) (ns : List Nat) :
    s.toList ⊆ (ns.foldl insert s).toList := by
  induction ns generalizing s with
  | nil => exact List.Subset.refl _
  | cons n ns ih =>
      exact List.Subset.trans (s.subset_insert n) (ih (s.insert n))

theorem mem_toList_foldl_insert_iff {s : PidSet} {ns : List Nat} {p : Nat} :
    p ∈ (ns.foldl insert s).toList ↔
      p ∈ s.toList ∨ exists n, n ∈ ns ∧ mask n = p := by
  induction ns generalizing s with
  | nil => simp
  | cons n ns ih =>
      rw [List.foldl_cons, ih, mem_toList_insert]
      constructor
      · rintro ((rfl | hold) | ⟨m, hm, hmask⟩)
        · exact .inr ⟨n, List.mem_cons_self, rfl⟩
        · exact .inl hold
        · exact .inr ⟨m, List.mem_cons_of_mem n hm, hmask⟩
      · rintro (hold | ⟨m, hm, hmask⟩)
        · exact .inl (.inr hold)
        · cases hm with
          | head => exact .inl (.inl hmask.symm)
          | tail _ hlater => exact .inr ⟨m, hlater, hmask⟩

theorem mem_toList_foldl_insert {s : PidSet} {ns : List Nat}
    (hns : forall n, n ∈ ns -> mask n = n) {p : Nat} :
    p ∈ (ns.foldl insert s).toList ↔ p ∈ s.toList ∨ p ∈ ns := by
  rw [mem_toList_foldl_insert_iff]
  apply or_congr_right
  constructor
  · rintro ⟨n, hn, rfl⟩
    rw [hns n hn]
    exact hn
  · intro hp
    exact ⟨p, hp, hns p hp⟩

theorem eq_of_perm {s t : PidSet} (h : s.toList.Perm t.toList) : s = t := by
  have hlist : s.toList = t.toList := by
    apply h.eq_of_pairwise _ s.ordered t.ordered
    intro p q _ _ hlt hgt
    exact absurd hgt (Nat.lt_asymm hlt)
  cases s
  cases t
  cases hlist
  rfl

theorem eq_of_mem_iff {s t : PidSet}
    (h : forall p, p ∈ s.toList ↔ p ∈ t.toList) : s = t :=
  eq_of_perm ((List.perm_ext_iff_of_nodup s.nodup_toList t.nodup_toList).mpr h)

theorem eq_of_subset_of_size {s t : PidSet}
    (hsub : forall p, p ∈ s.toList -> p ∈ t.toList) (hsize : t.size = s.size) :
    s = t := by
  have hsubperm : s.toList.Subperm t.toList := s.nodup_toList.subperm hsub
  exact eq_of_perm (hsubperm.perm_of_length_le (Nat.le_of_eq hsize))

/-!
## Intersections
-/

def inter (s t : PidSet) : PidSet :=
  ⟨s.toList.filter t.toList.contains, s.ordered.filter _⟩

theorem mem_toList_inter {s t : PidSet} {p : Nat} :
    p ∈ (s.inter t).toList ↔ p ∈ s.toList ∧ p ∈ t.toList := by
  rw [inter, List.mem_filter, List.contains_iff_mem]

theorem contains_inter (s t : PidSet) (n : Nat) :
    (s.inter t).contains n = (s.contains n && t.contains n) := by
  rw [Bool.eq_iff_iff, Bool.and_eq_true, contains_iff, contains_iff,
    contains_iff, mem_toList_inter]

theorem inter_comm (s t : PidSet) : s.inter t = t.inter s := by
  apply eq_of_mem_iff
  intro p
  rw [mem_toList_inter, mem_toList_inter, and_comm]

theorem inter_self (s : PidSet) : s.inter s = s := by
  apply eq_of_mem_iff
  intro p
  rw [mem_toList_inter, and_self]

end PidSet
end TransportStream
