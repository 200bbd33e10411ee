import TransportStream.Error

/-!
# Sections

A section is a byte string that announces its own size: a table identifier, then
twelve bits with the number of bytes that follow the first three.  Sections
stand one behind the other; a table identifier of `0xFF` is stuffing and says
that nothing follows.
-/

namespace TransportStream

def stuffingByte : UInt8 := 0xFF

def trailerSize : Nat := 4

def sectionHeaderSize : Nat := 8

structure SectionHeader where
  tableId : Nat
  extension : Nat
  version : Nat
  current : Bool
  number : Nat
  lastNumber : Nat
  deriving DecidableEq, Repr

def SectionHeader.parse (bytes : Bytes) : Except Error SectionHeader :=
  match bytes with
  | tableId :: _ :: _ :: hi :: lo :: version :: number :: lastNumber :: _ =>
      .ok
        { tableId := tableId.toNat
          extension := word hi lo
          version := field version 1 5
          current := flag version 0
          number := number.toNat
          lastNumber := lastNumber.toNat }
  | _ => .error (.malformed .shortSectionHeader)

/-- The size that a section announces for itself, once its first three bytes are
there. -/
def announcedSize? : Bytes -> Option Nat
  | _ :: hi :: lo :: _ => some (lengthField hi lo + 3)
  | _ => none

inductive Front where
  | stuffing
  | incomplete
  | complete (size : Nat)
  deriving DecidableEq, Repr

def front : Bytes -> Front
  | [] => .incomplete
  | tableId :: rest =>
      if tableId = stuffingByte then .stuffing
      else
        match announcedSize? (tableId :: rest) with
        | none => .incomplete
        | some size =>
            if (tableId :: rest).length < size then .incomplete
            else .complete size

theorem size_of_front {bytes : Bytes} {size : Nat}
    (h : front bytes = .complete size) :
    3 ≤ size ∧ size ≤ bytes.length := by
  unfold front at h
  split at h
  · cases h
  · split at h
    · cases h
    · split at h
      · cases h
      · rename_i hsize
        split at h
        · cases h
        · cases h
          unfold announcedSize? at hsize
          split at hsize
          · cases hsize
            omega
          · cases hsize

/-- The sections at the front of a byte string, and the bytes behind the last of
them; none if what follows is stuffing. -/
structure Cut where
  sections : List Bytes
  rest : Option Bytes
  deriving DecidableEq, Repr

def cutSections (bytes : Bytes) : Cut :=
  match h : front bytes with
  | .stuffing => ⟨[], none⟩
  | .incomplete => ⟨[], some bytes⟩
  | .complete size =>
      have := size_of_front h
      let later := cutSections (bytes.drop size)
      ⟨bytes.take size :: later.sections, later.rest⟩
termination_by bytes.length
decreasing_by
  rw [List.length_drop]
  omega

theorem cutSections_of_stuffing {bytes : Bytes} (h : front bytes = .stuffing) :
    cutSections bytes = ⟨[], none⟩ := by
  rw [cutSections]
  split <;> simp_all

theorem cutSections_of_incomplete {bytes : Bytes}
    (h : front bytes = .incomplete) :
    cutSections bytes = ⟨[], some bytes⟩ := by
  rw [cutSections]
  split <;> simp_all

theorem cutSections_of_complete {bytes : Bytes} {size : Nat}
    (h : front bytes = .complete size) :
    cutSections bytes =
      ⟨bytes.take size :: (cutSections (bytes.drop size)).sections,
        (cutSections (bytes.drop size)).rest⟩ := by
  rw [cutSections]
  split <;> simp_all

end TransportStream
