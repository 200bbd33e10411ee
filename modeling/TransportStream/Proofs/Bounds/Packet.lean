import TransportStream.Proofs.Bounds.Access
import TransportStream.Proofs.Packet.Payload

/-!
# Packets with the positions of their parts

A packet can be kept as its whole frame, with the ranges that the adaptation
field and the payload take in it.  The ranges are computed once, from a length
that may claim more than there is, and every later access relies on them.
-/

namespace TransportStream

def headerSize : Nat := 4

/-- A frame with its decoded header and the ranges of its parts. -/
structure PlacedPacket where
  transportError : Bool
  unitStart : Bool
  priority : Bool
  pid : Nat
  scrambling : Nat
  adaptationControl : Nat
  counter : Nat
  adaptationRange : Option (Nat × Nat)
  payloadRange : Option (Nat × Nat)
  frame : Bytes
  deriving DecidableEq

namespace PlacedPacket

def placeAdaptation (frame : Bytes) (fourth : UInt8) :
    Checked (Option (Nat × Nat)) :=
  if flag fourth 5 then do
    let length ← Checked.byteAt frame headerSize
    pure (some (headerSize, min (headerSize + (1 + length.toNat)) frameSize))
  else
    pure none

def placePayload (fourth : UInt8) (adaptation : Option (Nat × Nat)) :
    Option (Nat × Nat) :=
  let offset := (adaptation.map Prod.snd).getD headerSize
  if flag fourth 4 ∧ offset < frameSize then some (offset, frameSize) else none

def parse (frame : Bytes) : Checked (Except Error PlacedPacket) := do
  let sync ← Checked.byteAt frame 0
  if sync ≠ syncByte then pure (.error (.framing sync))
  else do
    let second ← Checked.byteAt frame 1
    let third ← Checked.byteAt frame 2
    let fourth ← Checked.byteAt frame 3
    let adaptation ← placeAdaptation frame fourth
    pure (.ok
      { transportError := flag second 7
        unitStart := flag second 6
        priority := flag second 5
        pid := pidField second third
        scrambling := field fourth 6 2
        adaptationControl := field fourth 4 2
        counter := field fourth 0 4
        adaptationRange := adaptation
        payloadRange := placePayload fourth adaptation
        frame := frame })

def adaptation? (p : PlacedPacket) : Checked (Option Bytes) :=
  match p.adaptationRange with
  | none => pure none
  | some (start, stop) => do
      let bytes ← Checked.slice p.frame start stop
      pure (some bytes)

def payload (p : PlacedPacket) : Checked Bytes :=
  match p.payloadRange with
  | none => pure []
  | some (start, stop) => Checked.slice p.frame start stop

def writePayload (p : PlacedPacket) (content : Bytes) : Checked PlacedPacket :=
  match p.payloadRange with
  | none => do
      let _ ← Checked.overwrite [] 0 0 content
      pure p
  | some (start, stop) => do
      let frame ← Checked.overwrite p.frame start stop content
      pure { p with frame := frame }

def continuityAfter (p : PlacedPacket) (last : Nat) : Continuity :=
  if p.counter = last then .duplicate
  else if p.counter = (last + 1) % 16 then .next
  else .gap

end PlacedPacket

namespace Packet

/-- A packet as a frame with the positions of its parts. -/
def placed (p : Packet) : PlacedPacket where
  transportError := p.transportError
  unitStart := p.unitStart
  priority := p.priority
  pid := p.pid
  scrambling := p.scrambling
  adaptationControl := p.adaptationControl
  counter := p.counter
  adaptationRange :=
    if p.hasAdaptation then some (headerSize, headerSize + p.adaptationSize)
    else none
  payloadRange :=
    if p.hasPayload ∧ p.payloadOffset < bodySize then
      some (headerSize + p.payloadOffset, frameSize)
    else none
  frame := p.bytes

@[simp] theorem transportError_placed (p : Packet) :
    p.placed.transportError = p.transportError :=
  rfl

@[simp] theorem unitStart_placed (p : Packet) :
    p.placed.unitStart = p.unitStart :=
  rfl

@[simp] theorem pid_placed (p : Packet) : p.placed.pid = p.pid := rfl

@[simp] theorem frame_placed (p : Packet) : p.placed.frame = p.bytes := rfl

@[simp] theorem continuityAfter_placed (p : Packet) (last : Nat) :
    p.placed.continuityAfter last = p.continuityAfter last := rfl

theorem length_bytes (p : Packet) : p.bytes.length = frameSize :=
  p.frame.length_bytes

theorem drop_bytes (p : Packet) (n : Nat) :
    p.bytes.drop (headerSize + n) = p.body.drop n := by
  rw [headerSize, Nat.add_comm]
  rfl

theorem frameSize_eq : frameSize = headerSize + bodySize := rfl

/-!
## Parsing
-/

theorem placeAdaptation_bytes (p : Packet) :
    PlacedPacket.placeAdaptation p.bytes p.fourth =
      .ok p.placed.adaptationRange := by
  unfold PlacedPacket.placeAdaptation
  show (if p.hasAdaptation = true then _ else _) =
    Except.ok (if p.hasAdaptation = true then _ else _)
  by_cases h : p.hasAdaptation = true
  · rcases List.exists_cons_of_length_pos (l := p.body)
      (by rw [p.length_body]; decide) with
      ⟨length, rest, hbody⟩
    have hdrop : p.bytes.drop headerSize = [] ++ length :: rest :=
      (drop_bytes p 0).trans hbody
    have hlength : Checked.byteAt p.bytes headerSize = .ok length :=
      Checked.byteAt_of_drop hdrop
    have hstop : min (headerSize + (1 + length.toNat)) frameSize =
        headerSize + p.adaptationSize := by
      rw [adaptationSize, if_pos h, declaredAdaptation, hbody, frameSize_eq,
        Nat.add_min_add_left]
    rw [if_pos h, if_pos h, hlength, Checked.ok_bind, hstop]
    rfl
  · rw [if_neg h, if_neg h]
    rfl

theorem placePayload_fourth (p : Packet) :
    PlacedPacket.placePayload p.fourth p.placed.adaptationRange =
      p.placed.payloadRange := by
  have hoffset : (p.placed.adaptationRange.map Prod.snd).getD headerSize =
      headerSize + p.adaptationSize := by
    show ((if p.hasAdaptation = true then _
      else _ : Option (Nat × Nat)).map Prod.snd).getD _ = _
    by_cases h : p.hasAdaptation = true
    · rw [if_pos h]
      rfl
    · rw [if_neg h, adaptationSize, if_neg h]
      rfl
  unfold PlacedPacket.placePayload
  rw [hoffset]
  show (if p.hasPayload = true ∧ headerSize + p.adaptationSize < frameSize then
    _ else none) =
    if p.hasPayload = true ∧ p.payloadOffset < bodySize then _ else none
  by_cases h : p.hasPayload = true
  · have hroom : headerSize + p.adaptationSize < frameSize ↔
        p.payloadOffset < bodySize := by
      rw [payloadOffset, if_pos h, frameSize_eq, Nat.add_lt_add_iff_left]
    rw [payloadOffset, if_pos h] at hroom ⊢
    simp only [hroom]
  · rw [if_neg (fun hboth => h hboth.left), if_neg (fun hboth => h hboth.left)]

theorem parse_bytes (p : Packet) :
    PlacedPacket.parse p.bytes = .ok (.ok p.placed) := by
  show (do
    let adaptation ← PlacedPacket.placeAdaptation p.bytes p.fourth
    _ : Checked (Except Error PlacedPacket)) = _
  rw [placeAdaptation_bytes, Checked.ok_bind, placePayload_fourth]
  rfl

theorem parse_placed (f : Frame) :
    PlacedPacket.parse f.bytes = .ok ((Packet.parse f).map placed) := by
  cases hparse : Packet.parse f with
  | ok p =>
      rw [← frame_of_parse hparse]
      exact parse_bytes p
  | error e =>
      unfold Packet.parse at hparse
      split at hparse
      split at hparse
      · cases hparse
      · rename_i hsync
        cases hparse
        exact if_pos hsync

/-!
## Adaptation field and payload
-/

theorem adaptation?_placed (p : Packet) :
    p.placed.adaptation? = .ok p.adaptation? := by
  unfold PlacedPacket.adaptation? adaptation?
  show (match if p.hasAdaptation = true then
    some (headerSize, headerSize + p.adaptationSize)
    else none with | none => _ | some (start, stop) => _) = _
  by_cases h : p.hasAdaptation = true
  · rw [if_pos h, if_pos h]
    dsimp only
    rw [Checked.slice_of_le (Nat.le_add_right _ _)
      (by
        rw [frame_placed, length_bytes]
        exact Nat.add_le_add_left p.adaptationSize_le headerSize),
      Nat.add_sub_cancel_left, Checked.ok_bind]
    rfl
  · rw [if_neg h, if_neg h]
    rfl

theorem payload_eq_nil_iff {p : Packet} :
    p.payload = [] ↔ ¬(p.hasPayload = true ∧ p.payloadOffset < bodySize) := by
  rw [← List.length_eq_zero_iff, length_payload]
  have hoffset := p.payloadOffset_le
  constructor
  · rintro hzero ⟨_, hroom⟩
    omega
  · intro hnone
    by_cases hpayload : p.hasPayload = true
    · have hfull : ¬ p.payloadOffset < bodySize := fun hroom =>
        hnone ⟨hpayload, hroom⟩
      omega
    · rw [payloadOffset, if_neg hpayload, Nat.sub_self]

theorem payload_placed (p : Packet) : p.placed.payload = .ok p.payload := by
  unfold PlacedPacket.payload
  show (match if p.hasPayload = true ∧ p.payloadOffset < bodySize then
      some (headerSize + p.payloadOffset, frameSize) else none with
    | none => _ | some (start, stop) => _) = _
  by_cases h : p.hasPayload = true ∧ p.payloadOffset < bodySize
  · rw [if_pos h]
    dsimp only
    have hstart : headerSize + p.payloadOffset ≤ p.bytes.length := by
      rw [length_bytes, frameSize_eq]
      exact Nat.add_le_add_left (Nat.le_of_lt h.right) headerSize
    rw [← length_bytes p, frame_placed, Checked.slice_back hstart, drop_bytes,
      payload]
  · rw [if_neg h, payload_eq_nil_iff.mpr h]
    rfl

/-!
## Writing the payload
-/

theorem adaptationSize_of_sameOutsidePayload {p q : Packet}
    (h : SameOutsidePayload p q) :
    q.adaptationSize = p.adaptationSize := by
  rcases sameOutsidePayload_iff.mp h with ⟨_, _, hfourth, _⟩
  have hadaptation : q.hasAdaptation = p.hasAdaptation := by
    rw [hasAdaptation, hasAdaptation, hfourth]
  rw [adaptationSize, adaptationSize, hadaptation]
  by_cases ha : p.hasAdaptation = true
  · have hoffset : 0 < p.payloadOffset := by
      by_cases hp : p.hasPayload = true
      · exact payloadOffset_pos_of_adaptation hp ha
      · rw [payloadOffset, if_neg hp]
        decide
    rw [declaredAdaptation_of_sameOutsidePayload h hoffset]
  · rw [if_neg ha, if_neg ha]

theorem placed_writePayload (p : Packet) (content : Bytes) :
    (p.writePayload content).placed =
      { p.placed with frame := (p.writePayload content).bytes } := by
  have hadaptation :=
    adaptationSize_of_sameOutsidePayload
      (sameOutsidePayload_writePayload p content)
  rw [placed, hadaptation, payloadOffset_writePayload]
  rfl

def aheadOfPayload (p : Packet) : Bytes :=
  [syncByte, p.second, p.third, p.fourth] ++ p.body.take p.payloadOffset

theorem length_aheadOfPayload (p : Packet) :
    p.aheadOfPayload.length = headerSize + p.payloadOffset := by
  rw [aheadOfPayload, List.length_append, List.length_take, p.length_body,
    Nat.min_eq_left p.payloadOffset_le]
  rfl

theorem bytes_eq (p : Packet) : p.bytes = p.aheadOfPayload ++ p.payload := by
  rw [aheadOfPayload, payload, List.append_assoc, List.take_append_drop]
  rfl

theorem bytes_writePayload {p : Packet} {content : Bytes}
    (h : content.length = p.payload.length) :
    (p.writePayload content).bytes = p.aheadOfPayload ++ content := by
  rw [bytes_eq, payload_writePayload_of_length h, aheadOfPayload,
    payloadOffset_writePayload, take_body_writePayload]
  rfl

theorem writePayload_placed {p : Packet} {content : Bytes}
    (h : content.length = p.payload.length) :
    p.placed.writePayload content = .ok (p.writePayload content).placed := by
  unfold PlacedPacket.writePayload
  show (match if p.hasPayload = true ∧ p.payloadOffset < bodySize then
      some (headerSize + p.payloadOffset, frameSize) else none with
    | none => _ | some (start, stop) => _) = _
  by_cases hroom : p.hasPayload = true ∧ p.payloadOffset < bodySize
  · have hfront : p.aheadOfPayload.length = headerSize + p.payloadOffset :=
      length_aheadOfPayload p
    have hstop : p.aheadOfPayload.length + p.payload.length = frameSize := by
      rw [hfront, length_payload, frameSize_eq]
      have hoffset := p.payloadOffset_le
      omega
    have hoverwrite := Checked.overwrite_append p.aheadOfPayload [] h
    rw [List.append_nil, List.append_nil, hstop, hfront, ← bytes_eq,
      ← bytes_writePayload h] at hoverwrite
    rw [if_pos hroom]
    dsimp only
    rw [frame_placed, hoverwrite, Checked.ok_bind, placed_writePayload]
    rfl
  · have hpayload : p.payload = [] := payload_eq_nil_iff.mpr hroom
    rw [hpayload] at h
    have hcontent : content = [] := List.length_eq_zero_iff.mp h
    have hsame := writePayload_payload p
    rw [hpayload] at hsame
    rw [if_neg hroom, hcontent, hsame]
    rfl

end Packet
end TransportStream
