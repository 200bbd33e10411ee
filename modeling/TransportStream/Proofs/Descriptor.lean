import TransportStream.Descriptor

/-!
# Descriptors taken one by one

The descriptors of a loop can be asked for one at a time.  An answer takes the
bytes of one descriptor off the front, until those that are left hold no whole
one.  Descriptors written one behind the other are taken as they were written,
and nothing but them.
-/

namespace TransportStream
namespace Descriptor

def bytes (d : Descriptor) : Bytes :=
  d.tag :: lowByte d.body.length :: d.body

/-- Bytes that hold no whole descriptor at their front. -/
inductive CutShort : Bytes -> Prop where
  | empty : CutShort []
  | tagOnly (tag : UInt8) : CutShort [tag]
  | body (tag : UInt8) {length : UInt8} {rest : Bytes}
    (h : rest.length < length.toNat) :
      CutShort (tag :: length :: rest)

theorem bytes_take {rest : Bytes} {length : UInt8}
    (h : length.toNat ≤ rest.length) (tag : UInt8) :
    bytes ⟨tag, rest.take length.toNat⟩ =
      tag :: length :: rest.take length.toNat := by
  rw [bytes, List.length_take_of_le h, lowByte, UInt8.ofNat_toNat]

end Descriptor

open Descriptor

/-!
## A walk through a loop
-/

/-- The bytes of a loop that have not been taken yet. -/
structure DescriptorWalk where
  rest : Bytes

namespace DescriptorWalk

/-- Ask for the next descriptor.  One with a body that is cut short is given up
with all its bytes. -/
def next (w : DescriptorWalk) : Option Descriptor × DescriptorWalk :=
  match w with
  | ⟨tag :: length :: rest⟩ =>
      if rest.length < length.toNat then (none, ⟨[]⟩)
      else (some ⟨tag, rest.take length.toNat⟩, ⟨rest.drop length.toNat⟩)
  | _ => (none, w)

def behind (w : DescriptorWalk) : Nat -> DescriptorWalk
  | 0 => w
  | n + 1 => w.next.2.behind n

theorem next_bytes_append {d : Descriptor} (h : d.body.length ≤ 255)
    (rest : Bytes) :
    next ⟨d.bytes ++ rest⟩ = (some d, ⟨rest⟩) := by
  have hlength : (lowByte d.body.length).toNat = d.body.length := by
    rw [lowByte, UInt8.toNat_ofNat']
    exact Nat.mod_eq_of_lt (Nat.lt_succ_of_le h)
  have hroom : ¬ (d.body ++ rest).length < d.body.length := by
    rw [List.length_append]
    exact Nat.not_lt.mpr (Nat.le_add_right _ _)
  rw [Descriptor.bytes, List.cons_append, List.cons_append, next, hlength,
    if_neg hroom, List.take_left, List.drop_left]

theorem next_of_cutShort {left : Bytes} (h : CutShort left) :
    (next ⟨left⟩).1 = none ∧ CutShort (next ⟨left⟩).2.rest := by
  cases h with
  | empty => exact ⟨rfl, .empty⟩
  | tagOnly tag => exact ⟨rfl, .tagOnly tag⟩
  | body tag hshort =>
      rw [next, if_pos hshort]
      exact ⟨rfl, .empty⟩

theorem next_behind_of_cutShort {left : Bytes} (h : CutShort left) (n : Nat) :
    (behind ⟨left⟩ n).next.1 = none := by
  induction n generalizing left with
  | zero => exact (next_of_cutShort h).left
  | succ n ih => exact ih (next_of_cutShort h).right

theorem scan_eq (loop : Bytes) :
    scan loop =
      match next ⟨loop⟩ with
      | (some d, w) => (d :: (scan w.rest).1, (scan w.rest).2)
      | (none, _) => ([], loop) := by
  match loop with
  | [] => simp only [scan, next]
  | [tag] => simp only [scan, next]
  | tag :: length :: rest =>
      rw [scan, next]
      by_cases hshort : rest.length < length.toNat
      · rw [if_pos hshort, if_pos hshort]
      · rw [if_neg hshort, if_neg hshort]

end DescriptorWalk

/-!
## What a loop holds
-/

namespace Descriptor

open DescriptorWalk

/-- The descriptors at the front of a byte string, and what is left behind the
last of them. -/
inductive Holds : Bytes -> List Descriptor -> Bytes -> Prop where
  | done {left : Bytes} (h : CutShort left) : Holds left [] left
  | cons {d : Descriptor} {rest left : Bytes} {later : List Descriptor}
      (hbody : d.body.length ≤ 255) (h : Holds rest later left) :
      Holds (d.bytes ++ rest) (d :: later) left

theorem holds_of_written {ds : List Descriptor} {left : Bytes}
    (hbodies : forall d, d ∈ ds -> d.body.length ≤ 255)
    (hleft : CutShort left) :
    Holds (ds.flatMap bytes ++ left) ds left := by
  induction ds with
  | nil => exact .done hleft
  | cons d ds ih =>
      rw [List.flatMap_cons, List.append_assoc]
      exact .cons (hbodies d List.mem_cons_self)
        (ih fun e he => hbodies e (List.mem_cons_of_mem d he))

theorem exists_holds (loop : Bytes) : exists ds left, Holds loop ds left := by
  match loop with
  | [] => exact ⟨[], [], .done .empty⟩
  | [tag] => exact ⟨[], [tag], .done (.tagOnly tag)⟩
  | tag :: length :: rest =>
      by_cases hshort : rest.length < length.toNat
      · exact ⟨[], _, .done (.body tag hshort)⟩
      · have hwhole : length.toNat ≤ rest.length := Nat.le_of_not_lt hshort
        have hbody : (rest.take length.toNat).length ≤ 255 :=
          Nat.le_trans (List.length_take_le _ _)
            (Nat.le_of_lt_succ length.toNat_lt)
        -- By recursion on the bytes behind the first descriptor, which are
        -- fewer.
        rcases exists_holds (rest.drop length.toNat) with ⟨later, left, hlater⟩
        have hholds :=
          Holds.cons (d := ⟨tag, rest.take length.toNat⟩) hbody hlater
        rw [bytes_take hwhole, List.cons_append, List.cons_append,
          List.take_append_drop] at hholds
        exact ⟨_, left, hholds⟩
termination_by loop.length
decreasing_by
  rw [List.length_drop]
  simp only [List.length_cons]
  omega

namespace Holds

variable {loop left : Bytes} {ds : List Descriptor}

theorem eq_append (h : Holds loop ds left) :
    loop = ds.flatMap bytes ++ left := by
  induction h with
  | done hleft => rfl
  | cons hbody h ih => rw [List.flatMap_cons, List.append_assoc, ← ih]

theorem cutShort (h : Holds loop ds left) : CutShort left := by
  induction h with
  | done hleft => exact hleft
  | cons hbody h ih => exact ih

theorem length_body (h : Holds loop ds left) :
    forall d, d ∈ ds -> d.body.length ≤ 255 := by
  induction h with
  | done hleft =>
      intro d hd
      cases hd
  | cons hbody h ih =>
      intro d hd
      cases hd with
      | head => exact hbody
      | tail _ hlater => exact ih d hlater

theorem scan_eq (h : Holds loop ds left) : scan loop = (ds, left) := by
  induction h with
  | @done left hleft =>
      rw [DescriptorWalk.scan_eq]
      split
      · rename_i hnext
        have hnone := (next_of_cutShort hleft).left
        rw [hnext] at hnone
        cases hnone
      · rfl
  | cons hbody h ih =>
      rw [DescriptorWalk.scan_eq, next_bytes_append hbody]
      dsimp only
      rw [ih]

theorem next_behind (h : Holds loop ds left) (n : Nat) :
    (behind ⟨loop⟩ n).next.1 = ds[n]? := by
  induction h generalizing n with
  | done hleft => exact next_behind_of_cutShort hleft n
  | cons hbody h ih =>
      cases n with
      | zero => rw [behind, next_bytes_append hbody, List.getElem?_cons_zero]
      | succ n =>
          rw [behind, next_bytes_append hbody, List.getElem?_cons_succ]
          exact ih n

theorem behind_length (h : Holds loop ds left) :
    behind ⟨loop⟩ ds.length = ⟨left⟩ := by
  induction h with
  | done hleft => rfl
  | cons hbody h ih =>
      rw [List.length_cons, behind, next_bytes_append hbody]
      exact ih

end Holds
end Descriptor

namespace DescriptorLoop

theorem descriptors_of_holds {loop : DescriptorLoop} {ds : List Descriptor}
    {left : Bytes} (h : Holds loop.bytes ds left) : loop.descriptors = ds :=
  congrArg Prod.fst h.scan_eq

def walk (loop : DescriptorLoop) : DescriptorWalk :=
  ⟨loop.bytes⟩

/-- Whatever a loop holds, its bytes are those of its descriptors and some that
hold no whole one.  A walk gives the descriptors in order, has the other bytes
left behind the last of them, and gives nothing any more.  Descriptors written
one behind the other are those of the loop that they make, also with one behind
them that is cut short. -/
theorem walk_takes_whole_descriptors :
    (forall loop : DescriptorLoop, exists left,
      loop.bytes = loop.descriptors.flatMap Descriptor.bytes ++ left ∧
      CutShort left ∧
        (forall d, d ∈ loop.descriptors -> d.body.length ≤ 255) ∧
        (loop.walk.behind loop.descriptors.length).rest = left ∧
        forall n, (loop.walk.behind n).next.1 = loop.descriptors[n]?) ∧
      forall ds left, (forall d, d ∈ ds -> d.body.length ≤ 255) ->
        CutShort left ->
        (DescriptorLoop.mk (ds.flatMap Descriptor.bytes ++ left)).descriptors =
          ds := by
  constructor
  · intro loop
    rcases exists_holds loop.bytes with ⟨ds, left, h⟩
    have hrest := congrArg DescriptorWalk.rest h.behind_length
    rw [descriptors_of_holds h]
    exact ⟨left, h.eq_append, h.cutShort, h.length_body, hrest, h.next_behind⟩
  · intro ds left hbodies hleft
    exact descriptors_of_holds (holds_of_written hbodies hleft)

def extreme : DescriptorLoop :=
  ⟨[0x09, 0x00, 0x52, 0xFF] ++ List.replicate 255 0xAA ++ [0x48, 0x09, 0x01]⟩

def extremeDescriptors : List Descriptor :=
  [⟨0x09, []⟩, ⟨0x52, List.replicate 255 0xAA⟩]

theorem walk_takes_extremeDescriptors :
    (forall d, d ∈ extremeDescriptors -> d.body.length ≤ 255) ∧
    CutShort [0x48, 0x09, 0x01] ∧
      extreme.descriptors = extremeDescriptors ∧
      (extreme.walk.behind 2).rest = [0x48, 0x09, 0x01] ∧
      forall n, 2 ≤ n -> (extreme.walk.behind n).next.1 = none := by
  have hbodies : forall d, d ∈ extremeDescriptors -> d.body.length ≤ 255 := by
    decide +kernel
  have hcut : CutShort [0x48, 0x09, 0x01] := .body 0x48 (by decide)
  have hmade : extreme.bytes =
      extremeDescriptors.flatMap Descriptor.bytes ++ [0x48, 0x09, 0x01] := by
    decide +kernel
  rcases walk_takes_whole_descriptors with ⟨hwalk, hwritten⟩
  have hloop := hwritten extremeDescriptors [0x48, 0x09, 0x01] hbodies hcut
  rw [← hmade] at hloop
  rcases hwalk extreme with ⟨left, hbytes, _, _, hrest, hnext⟩
  rw [hmade, hloop] at hbytes
  rw [hloop] at hrest hnext
  have hleft : [0x48, 0x09, 0x01] = left := List.append_cancel_left hbytes
  refine ⟨hbodies, hcut, hloop, hrest.trans hleft.symm, ?_⟩
  intro n hn
  rw [hnext, List.getElem?_eq_none hn]

end DescriptorLoop
end TransportStream
