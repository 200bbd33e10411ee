import TransportStream.Proofs.Bounds.Packet
import TransportStream.Section.Assembler

/-!
# Cutting sections off a buffer

A section is cut off where its length field says, and what is left moves to the
front.  The pointer of a start packet and the length of a section are both taken
from the stream.
-/

namespace TransportStream
namespace Checked

def readPid (bytes : Bytes) : Checked Nat := do
  let hi ← byteAt bytes 0
  let lo ← byteAt bytes 1
  pure (pidField hi lo)

def readLength (bytes : Bytes) : Checked Nat := do
  let hi ← byteAt bytes 0
  let lo ← byteAt bytes 1
  pure (lengthField hi lo)

@[simp] theorem readPid_pair (hi lo : UInt8) :
    readPid [hi, lo] = .ok (pidField hi lo) :=
  rfl

@[simp] theorem readLength_pair (hi lo : UInt8) :
    readLength [hi, lo] = .ok (lengthField hi lo) :=
  rfl

def front (buffer : Bytes) : Checked Front :=
  match buffer with
  | [] => pure .incomplete
  | tableId :: rest =>
      if tableId = stuffingByte then pure .stuffing
      else if (tableId :: rest).length < 3 then pure .incomplete
      else do
        let lengthBytes ← slice (tableId :: rest) 1 3
        let length ← readLength lengthBytes
        let size := length + 3
        if (tableId :: rest).length < size then pure .incomplete
        else pure (.complete size)

theorem front_eq_ok (buffer : Bytes) :
    front buffer = .ok (TransportStream.front buffer) := by
  unfold front TransportStream.front
  match buffer with
  | [] => rfl
  | [tableId] =>
      dsimp only
      split
      · rfl
      · rfl
  | [tableId, hi] =>
      dsimp only
      split
      · rfl
      · rfl
  | tableId :: hi :: lo :: rest =>
      have hlong : ¬ (tableId :: hi :: lo :: rest).length < 3 :=
        Nat.not_lt.mpr (Nat.le_add_left _ _)
      have hslice : slice (tableId :: hi :: lo :: rest) 1 3 = .ok [hi, lo] :=
        slice_append [tableId] [hi, lo] rest
      dsimp only [announcedSize?]
      by_cases hstuffing : tableId = stuffingByte
      · rw [if_pos hstuffing, if_pos hstuffing]
        rfl
      · rw [if_neg hstuffing, if_neg hstuffing, if_neg hlong, hslice, ok_bind,
          readLength_pair, ok_bind]
        split
        · rfl
        · rfl

theorem length_lt_of_cut {buffer rest : Bytes} {size : Nat}
    (hfront : front buffer = .ok (.complete size))
    (hrest : slice buffer size buffer.length = .ok rest) :
    rest.length < buffer.length := by
  rw [front_eq_ok] at hfront
  have hsize := size_of_front (Except.ok.inj hfront)
  rw [slice_back hsize.right] at hrest
  rw [← Except.ok.inj hrest, List.length_drop]
  omega

def drain (buffer : Bytes) : Checked Cut :=
  match hfront : front buffer with
  | .error fault => .error fault
  | .ok .stuffing => pure ⟨[], none⟩
  | .ok .incomplete => pure ⟨[], some buffer⟩
  | .ok (.complete size) =>
      match hrest : slice buffer size buffer.length with
      | .error fault => .error fault
      | .ok rest => do
          have := length_lt_of_cut hfront hrest
          let first ← slice buffer 0 size
          let later ← drain rest
          pure ⟨first :: later.sections, later.rest⟩
termination_by buffer.length

def drainFront (buffer : Bytes) : Front -> Checked Cut
  | .stuffing => pure ⟨[], none⟩
  | .incomplete => pure ⟨[], some buffer⟩
  | .complete size => do
      let rest ← slice buffer size buffer.length
      let first ← slice buffer 0 size
      let later ← drain rest
      pure ⟨first :: later.sections, later.rest⟩

theorem drain_of_front {buffer : Bytes} {found : Front}
    (h : front buffer = .ok found) :
    drain buffer = drainFront buffer found := by
  rw [drain]
  split
  · rename_i fault hfront
    rw [h] at hfront
    cases hfront
  · rename_i hfront
    rw [h] at hfront
    cases hfront
    rfl
  · rename_i hfront
    rw [h] at hfront
    cases hfront
    rfl
  · rename_i size hfront
    rw [h] at hfront
    cases hfront
    rw [drainFront]
    split
    · rename_i fault hrest
      rw [hrest]
      rfl
    · rename_i rest hrest
      dsimp only
      rw [hrest]
      rfl

/-- Neither the cutting off nor the moving up leaves the buffer. -/
theorem drain_eq_ok (buffer : Bytes) :
    drain buffer = .ok (cutSections buffer) := by
  have hfront := front_eq_ok buffer
  fun_induction cutSections buffer with
  | case1 buffer h =>
      rw [h] at hfront
      rw [drain_of_front hfront]
      rfl
  | case2 buffer h =>
      rw [h] at hfront
      rw [drain_of_front hfront]
      rfl
  | case3 buffer size h hsize later ih =>
      rw [h] at hfront
      rw [drain_of_front hfront, drainFront, slice_back hsize.right, ok_bind,
        slice_front hsize.right, ok_bind, ih (front_eq_ok _)]
      rfl

end Checked

/-!
## Assembling sections
-/

namespace SectionAssembler

def handOutChecked (last : Nat) (buffer : Bytes) :
    Checked (SectionAssembler × List Bytes) := do
  let cut ← Checked.drain buffer
  pure (waiting last cut.rest, cut.sections)

def beginChecked (a : SectionAssembler) (counter : Nat) (payload : Bytes) :
    Checked (SectionAssembler × List Bytes) :=
  match payload with
  | [] => pure (a, [])
  | pointer :: rest =>
      if rest.length < pointer.toNat then pure (.idle, [])
      else do
        let buffer ← Checked.slice rest pointer.toNat rest.length
        handOutChecked counter buffer

def resumeChecked (last : Nat) (pending : Bytes) (p : PlacedPacket)
    (payload : Bytes) :
    Checked (SectionAssembler × List Bytes) :=
  match p.continuityAfter last with
  | .duplicate => pure (.collecting last pending, [])
  | .next => handOutChecked p.counter (pending ++ payload)
  | .gap => pure (.idle, [])

def submitChecked (a : SectionAssembler) (p : PlacedPacket) :
    Checked (SectionAssembler × List Bytes) :=
  if p.transportError then pure (a, [])
  else do
    let payload ← p.payload
    if p.unitStart then beginChecked a p.counter payload
    else
      match a with
      | .idle => pure (.idle, [])
      | .collecting last pending => resumeChecked last pending p payload

theorem handOutChecked_eq_ok (last : Nat) (buffer : Bytes) :
    handOutChecked last buffer = .ok (handOut last buffer) := by
  rw [handOutChecked, Checked.drain_eq_ok]
  rfl

theorem beginChecked_placed (a : SectionAssembler) (p : Packet) :
    beginChecked a p.placed.counter p.payload = .ok (begin a p).value := by
  unfold beginChecked begin
  cases p.payload with
  | nil => rfl
  | cons pointer rest =>
      dsimp only
      by_cases hpointer : rest.length < pointer.toNat
      · rw [if_pos hpointer, if_pos hpointer]
        rfl
      · rw [if_neg hpointer, if_neg hpointer,
          Checked.slice_back (Nat.le_of_not_lt hpointer), Checked.ok_bind,
          handOutChecked_eq_ok]
        rfl

theorem resumeChecked_placed (last : Nat) (pending : Bytes) (p : Packet) :
    resumeChecked last pending p.placed p.payload =
      .ok (resume last pending p).value := by
  unfold resumeChecked resume
  rw [Packet.continuityAfter_placed]
  cases p.continuityAfter last with
  | next => exact handOutChecked_eq_ok _ _
  | duplicate => rfl
  | gap => rfl

theorem submitChecked_placed (a : SectionAssembler) (p : Packet) :
    submitChecked a p.placed = .ok (submit a p).value := by
  unfold submitChecked submit
  rw [Packet.payload_placed, Packet.transportError_placed,
    Packet.unitStart_placed]
  by_cases herror : p.transportError = true
  · rw [if_pos herror, if_pos herror]
    rfl
  rw [if_neg herror, if_neg herror, Checked.ok_bind]
  by_cases hstart : p.unitStart = true
  · rw [if_pos hstart, if_pos hstart]
    exact beginChecked_placed a p
  rw [if_neg hstart, if_neg hstart]
  cases a with
  | idle => rfl
  | collecting last pending => exact resumeChecked_placed last pending p

end SectionAssembler
end TransportStream
