import TransportStream.Error

/-!
# Transport packets

A transport stream is cut into frames of 188 bytes.  A frame that starts with
the sync byte is a packet: three more header bytes hold flags, the packet
identifier and a continuity counter, and the 184 bytes of the body hold an
optional adaptation field followed by an optional payload.
-/

namespace TransportStream

def frameSize : Nat := 188

def bodySize : Nat := 184

def syncByte : UInt8 := 0x47

/-- A byte string of the size of a packet, whatever it contains. -/
structure Frame where
  bytes : Bytes
  length_bytes : bytes.length = frameSize
  deriving DecidableEq

structure Packet where
  second : UInt8
  third : UInt8
  fourth : UInt8
  body : Bytes
  length_body : body.length = bodySize
  deriving DecidableEq

/-- Where the counter of a packet stands relative to the last one accepted on
its identifier. -/
inductive Continuity where
  | next
  | duplicate
  | gap
  deriving DecidableEq, Repr

namespace Packet

def parse (f : Frame) : Except Error Packet :=
  match f with
  | ⟨sync :: second :: third :: fourth :: body, h⟩ =>
      if sync = syncByte then
        .ok ⟨second, third, fourth, body,
          by simpa [frameSize, bodySize] using h⟩
      else
        .error (.framing sync)

def frame (p : Packet) : Frame :=
  ⟨syncByte :: p.second :: p.third :: p.fourth :: p.body,
    congrArg (· + 4) p.length_body⟩

def bytes (p : Packet) : Bytes :=
  p.frame.bytes

/-!
# Header fields
-/

def transportError (p : Packet) : Bool :=
  flag p.second 7

def unitStart (p : Packet) : Bool :=
  flag p.second 6

def priority (p : Packet) : Bool :=
  flag p.second 5

def pid (p : Packet) : Nat :=
  pidField p.second p.third

def scrambling (p : Packet) : Nat :=
  field p.fourth 6 2

def adaptationControl (p : Packet) : Nat :=
  field p.fourth 4 2

def hasAdaptation (p : Packet) : Bool :=
  flag p.fourth 5

def hasPayload (p : Packet) : Bool :=
  flag p.fourth 4

def counter (p : Packet) : Nat :=
  field p.fourth 0 4

def encodeHeader (p : Packet) : Bytes :=
  [syncByte,
    lowByte (p.transportError.toNat * 128 + p.unitStart.toNat * 64 +
      p.priority.toNat * 32 + p.pid / 256),
    lowByte p.pid,
    lowByte (p.scrambling * 64 + p.adaptationControl * 16 + p.counter)]

def continuityAfter (p : Packet) (last : Nat) : Continuity :=
  if p.counter = last then .duplicate
  else if p.counter = (last + 1) % 16 then .next
  else .gap

/-!
# Adaptation field and payload
-/

def declaredAdaptation (p : Packet) : Nat :=
  match p.body with
  | [] => 1
  | length :: _ => 1 + length.toNat

/-- The bytes of the body taken by the adaptation field, never more than the
body holds. -/
def adaptationSize (p : Packet) : Nat :=
  if p.hasAdaptation then min p.declaredAdaptation bodySize else 0

def adaptation? (p : Packet) : Option Bytes :=
  if p.hasAdaptation then some (p.body.take p.adaptationSize) else none

def overrun? (p : Packet) : Option Nat :=
  if p.hasAdaptation && bodySize < p.declaredAdaptation then
    some p.declaredAdaptation
  else none

def payloadOffset (p : Packet) : Nat :=
  if p.hasPayload then p.adaptationSize else bodySize

def payload (p : Packet) : Bytes :=
  p.body.drop p.payloadOffset

/-- Overwrite the payload from its start.  Bytes beyond its end are dropped, and
payload bytes beyond the end of the new content stay. -/
def writePayload (p : Packet) (content : Bytes) : Packet where
  second := p.second
  third := p.third
  fourth := p.fourth
  body := p.body.take p.payloadOffset ++ content.take p.payload.length ++
    p.payload.drop content.length
  length_body := by
    have h := p.length_body
    have hoffset : p.payloadOffset ≤ bodySize := by
      unfold payloadOffset adaptationSize
      split
      · split <;> omega
      · exact Nat.le_refl _
    simp only [payload, List.length_append, List.length_take, List.length_drop]
    omega

theorem payloadOffset_le (p : Packet) : p.payloadOffset ≤ bodySize := by
  unfold payloadOffset adaptationSize
  split
  · split <;> omega
  · exact Nat.le_refl _

@[simp] theorem parse_frame (p : Packet) : parse p.frame = .ok p := by
  simp [parse, frame]

theorem frame_of_parse {f : Frame} {p : Packet} (h : parse f = .ok p) :
    p.frame = f := by
  unfold parse at h
  split at h
  split at h
  · rename_i hsync
    cases h
    subst hsync
    rfl
  · cases h

theorem length_payload (p : Packet) :
    p.payload.length = bodySize - p.payloadOffset := by
  simp [payload, p.length_body]

theorem counter_lt (p : Packet) : p.counter < 16 :=
  field_lt p.fourth 0 4

theorem pid_lt (p : Packet) : p.pid < 0x2000 :=
  pidField_lt p.second p.third

end Packet
end TransportStream
