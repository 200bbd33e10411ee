import Mathlib.Data.List.Forall2
import TransportStream.Pes.Assembler
import TransportStream.Proofs.Pes.Header
import TransportStream.Proofs.Section.Units

/-!
# Units of an elementary stream

A unit is read here from all its bytes at once: its header, and then its data in
pieces.  How the data is cut into pieces depends on the packets; that it is all
there, in order and behind its header does not.  A header is recognised from the
front of the unit, so that it does not change when more bytes come.
-/

namespace TransportStream
namespace Pes

/-!
## The reading of a unit
-/

def unitBytes (u : PayloadUnit) : Bytes :=
  u.start.payload ++ continuation u.start.counter u.later

/-- The size of the header at the front of a unit, which is there if nine bytes
are, the first three of them are the start code, and the rest of the header is
there as well. -/
def headerSize? (bytes : Bytes) : Option Nat :=
  match bytes[8]? with
  | none => none
  | some length =>
      if bytes.take 3 = [0x00, 0x00, 0x01] ∧
        9 + length.toNat ≤ bytes.length then
        some (9 + length.toNat)
      else none

/-- What is handed out for a unit: its header and then its data, in pieces that
are not empty, or nothing at all if it has no whole header. -/
def Reads (bytes : Bytes) (events : List Event) : Prop :=
  match headerSize? bytes with
  | none => events = []
  | some size =>
      exists (header : Header) (pieces : List Bytes),
        Header.parse (bytes.take size) = .ok header ∧
          events = .header header :: pieces.map Event.data ∧
          (forall piece, piece ∈ pieces -> piece ≠ []) ∧
          pieces.flatten = bytes.drop size

def ReadsAll (contents : List Bytes) (events : List Event) : Prop :=
  exists calls : List (List Event),
    events = calls.flatten ∧ List.Forall₂ Reads contents calls

theorem readsAll_nil : ReadsAll [] [] :=
  ⟨[], rfl, List.Forall₂.nil⟩

theorem readsAll_cons {bytes : Bytes} {contents : List Bytes}
    {events later : List Event} (h : Reads bytes events)
    (hlater : ReadsAll contents later) :
    ReadsAll (bytes :: contents) (events ++ later) := by
  rcases hlater with ⟨calls, rfl, hcalls⟩
  exact ⟨events :: calls, rfl, List.Forall₂.cons h hcalls⟩

theorem reads_of_none {bytes : Bytes} (h : headerSize? bytes = none) :
    Reads bytes [] := by
  unfold Reads
  rw [h]

/-!
## The header of growing bytes
-/

/-- Bytes in which a header may still be on its way. -/
def AwaitsHeader (bytes : Bytes) : Prop :=
  forall length, bytes[8]? = some length ->
    Header.hasStartCode bytes = true ∧ bytes.length < 9 + length.toNat

def LacksStartCode (bytes : Bytes) : Prop :=
  exists length, bytes[8]? = some length ∧ Header.hasStartCode bytes = false

theorem hasStartCode_iff (bytes : Bytes) :
    Header.hasStartCode bytes = true ↔ bytes.take 3 = [0x00, 0x00, 0x01] :=
  beq_iff_eq

theorem headerSize?_of_awaitsHeader {bytes : Bytes} (h : AwaitsHeader bytes) :
    headerSize? bytes = none := by
  unfold headerSize?
  cases hninth : bytes[8]? with
  | none => rfl
  | some length =>
      rcases h length hninth with ⟨_, hshort⟩
      dsimp only
      rw [if_neg]
      intro hwhole
      exact absurd hwhole.right (Nat.not_le.mpr hshort)

theorem lt_length_of_ninth {bytes : Bytes} {length : UInt8}
    (h : bytes[8]? = some length) :
    8 < bytes.length := by
  rcases List.getElem?_eq_some_iff.mp h with ⟨hlength, _⟩
  exact hlength

theorem front_append {bytes : Bytes} {length : UInt8}
    (h : bytes[8]? = some length) (more : Bytes) :
    (bytes ++ more)[8]? = some length ∧
      (bytes ++ more).take 3 = bytes.take 3 := by
  have hlength := lt_length_of_ninth h
  constructor
  · rw [List.getElem?_append_left hlength]
    exact h
  · exact List.take_append_of_le_length (by lia)

theorem headerSize?_append_of_lacksStartCode {bytes : Bytes}
    (h : LacksStartCode bytes) (more : Bytes) :
    headerSize? (bytes ++ more) = none := by
  rcases h with ⟨length, hninth, hcode⟩
  rcases front_append hninth more with ⟨hninth', htake⟩
  unfold headerSize?
  rw [hninth', htake]
  dsimp only
  rw [if_neg]
  intro hwhole
  rw [(hasStartCode_iff bytes).mpr hwhole.left] at hcode
  cases hcode

theorem headerSize?_append {bytes : Bytes} {size : Nat}
    (h : headerSize? bytes = some size) (more : Bytes) :
    size ≤ bytes.length ∧ headerSize? (bytes ++ more) = some size := by
  unfold headerSize? at h
  split at h
  · cases h
  · rename_i length hninth
    split at h
    · rename_i hwhole
      cases h
      rcases front_append hninth more with ⟨hninth', htake⟩
      refine ⟨hwhole.right, ?_⟩
      unfold headerSize?
      rw [hninth', htake]
      dsimp only
      rw [if_pos]
      refine ⟨hwhole.left, ?_⟩
      rw [List.length_append]
      exact Nat.le_add_right_of_le hwhole.right
    · cases h

theorem exists_parse_take {bytes : Bytes} {length : UInt8}
    (hninth : bytes[8]? = some length)
    (hcode : Header.hasStartCode bytes = true)
    (hwhole : 9 + length.toNat ≤ bytes.length) :
    exists header,
      Header.parse (bytes.take (9 + length.toNat)) = .ok header := by
  have htake : (bytes.take (9 + length.toNat)).length = 9 + length.toNat := by
    rw [List.length_take, Nat.min_eq_left hwhole]
  have hsize : Header.size? (bytes.take (9 + length.toNat)) =
      some (9 + length.toNat) := by
    rw [Header.size?_eq, List.getElem?_take_of_lt (by lia), hninth]
    rfl
  apply Header.exists_parse_eq_ok hsize
  · exact Nat.le_of_eq htake.symm
  · rw [hasStartCode_iff, List.take_take, Nat.min_eq_left (by lia)]
    exact (hasStartCode_iff bytes).mp hcode

theorem tryHeader_cases (pid last : Nat) (bytes : Bytes) :
    AwaitsHeader bytes ∧
        (Assembler.tryHeader pid last bytes).value =
          (.collecting last bytes, []) ∨
      LacksStartCode bytes ∧ (Assembler.tryHeader pid last bytes).value =
        (.idle, []) ∨
      exists size header, headerSize? bytes = some size ∧
        Header.parse (bytes.take size) = .ok header ∧
        (Assembler.tryHeader pid last bytes).value =
          (.streaming last, .header header ::
            dataEvents (bytes.drop size)) := by
  unfold Assembler.tryHeader
  rw [Header.size?_eq]
  cases hninth : bytes[8]? with
  | none =>
      refine Or.inl ⟨?_, rfl⟩
      intro length h
      rw [hninth] at h
      cases h
  | some length =>
      rw [Option.map_some]
      dsimp only
      cases hcode : Header.hasStartCode bytes with
      | false => exact Or.inr (Or.inl ⟨⟨length, hninth, hcode⟩, rfl⟩)
      | true =>
          by_cases hshort : bytes.length < 9 + length.toNat
          · refine Or.inl ⟨?_, ?_⟩
            · intro other h
              rw [hninth] at h
              cases h
              exact ⟨hcode, hshort⟩
            · rw [if_neg (by simp),
                if_pos (show bytes.length < fixedHeaderSize + _ from hshort)]
              rfl
          · have hwhole := Nat.le_of_not_lt hshort
            rcases exists_parse_take hninth hcode hwhole with ⟨header, hheader⟩
            refine Or.inr (Or.inr ⟨9 + length.toNat, header, ?_, hheader, ?_⟩)
            · unfold headerSize?
              rw [hninth]
              exact if_pos ⟨(hasStartCode_iff bytes).mp hcode, hwhole⟩
            · rw [if_neg (by simp),
                if_neg (show ¬ bytes.length < fixedHeaderSize + _ from hshort)]
              simp only [Header.read, Logged.value_bind, Logged.value_pure,
                fixedHeaderSize, hheader]

end Pes
end TransportStream
