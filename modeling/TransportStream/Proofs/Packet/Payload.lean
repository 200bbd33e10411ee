import TransportStream.Packet
import TransportStream.Section

/-!
# Overwriting payloads

Writing into the payload of a packet leaves its header and its adaptation field
as they are, so that the payload stays where it was.
-/

namespace TransportStream
namespace Packet

@[simp] theorem counter_writePayload (p : Packet) (content : Bytes) :
    (p.writePayload content).counter = p.counter := rfl

@[simp] theorem unitStart_writePayload (p : Packet) (content : Bytes) :
    (p.writePayload content).unitStart = p.unitStart := rfl

@[simp] theorem transportError_writePayload (p : Packet) (content : Bytes) :
    (p.writePayload content).transportError = p.transportError := rfl

theorem body_writePayload (p : Packet) (content : Bytes) :
    (p.writePayload content).body = p.body.take p.payloadOffset ++
      (content.take p.payload.length ++ p.payload.drop content.length) :=
  List.append_assoc _ _ _

theorem take_body_writePayload (p : Packet) (content : Bytes) :
    (p.writePayload content).body.take p.payloadOffset =
      p.body.take p.payloadOffset := by
  have hoffset : (p.body.take p.payloadOffset).length = p.payloadOffset := by
    rw [List.length_take, p.length_body]
    exact Nat.min_eq_left p.payloadOffset_le
  rw [body_writePayload,
    List.take_append_of_le_length (Nat.le_of_eq hoffset.symm), List.take_take,
    Nat.min_self]

/-!
## Outside the payload
-/

/-- Two packets whose frames agree in every byte outside the payload of the
first. -/
def SameOutsidePayload (p q : Packet) : Prop :=
  q.bytes.take (4 + p.payloadOffset) = p.bytes.take (4 + p.payloadOffset)

theorem sameOutsidePayload_refl (p : Packet) : SameOutsidePayload p p := rfl

theorem sameOutsidePayload_iff {p q : Packet} :
    SameOutsidePayload p q ↔
      q.second = p.second ∧ q.third = p.third ∧ q.fourth = p.fourth ∧
        q.body.take p.payloadOffset = p.body.take p.payloadOffset := by
  show List.take (4 + p.payloadOffset) (syncByte :: q.second :: q.third ::
    q.fourth :: q.body) =
      List.take (4 + p.payloadOffset) (syncByte :: p.second :: p.third ::
        p.fourth :: p.body) ↔ _
  rw [Nat.add_comm]
  simp only [List.take_succ_cons, List.cons.injEq, true_and]

theorem sameOutsidePayload_writePayload (p : Packet) (content : Bytes) :
    SameOutsidePayload p (p.writePayload content) :=
  sameOutsidePayload_iff.mpr ⟨rfl, rfl, rfl, take_body_writePayload p content⟩

theorem pid_of_sameOutsidePayload {p q : Packet} (h : SameOutsidePayload p q) :
    q.pid = p.pid := by
  rcases sameOutsidePayload_iff.mp h with ⟨hsecond, hthird, _, _⟩
  rw [pid, pid, hsecond, hthird]

theorem transportError_of_sameOutsidePayload {p q : Packet}
    (h : SameOutsidePayload p q) :
    q.transportError = p.transportError := by
  rcases sameOutsidePayload_iff.mp h with ⟨hsecond, _, _, _⟩
  rw [transportError, transportError, hsecond]

/-- The length byte of an adaptation field lies ahead of the payload. -/
theorem declaredAdaptation_of_sameOutsidePayload {p q : Packet}
    (h : SameOutsidePayload p q) (hoffset : 0 < p.payloadOffset) :
    q.declaredAdaptation = p.declaredAdaptation := by
  rcases sameOutsidePayload_iff.mp h with ⟨_, _, _, htake⟩
  have hhead := congrArg List.head? htake
  rw [List.head?_take, List.head?_take, if_neg (Nat.ne_of_gt hoffset),
    if_neg (Nat.ne_of_gt hoffset)] at hhead
  unfold declaredAdaptation
  cases hbody : p.body with
  | nil =>
      rw [hbody, List.head?_nil, List.head?_eq_none_iff] at hhead
      rw [hhead]
  | cons length rest =>
      rw [hbody, List.head?_cons] at hhead
      rcases List.head?_eq_some_iff.mp hhead with ⟨rest', hbody'⟩
      rw [hbody']

theorem adaptationSize_le (p : Packet) : p.adaptationSize ≤ bodySize := by
  unfold adaptationSize
  split
  · exact Nat.min_le_right _ _
  · exact Nat.zero_le _

theorem payloadOffset_pos_of_adaptation {p : Packet}
    (hpayload : p.hasPayload = true) (hadaptation : p.hasAdaptation = true) :
    0 < p.payloadOffset := by
  rw [payloadOffset, if_pos hpayload, adaptationSize, if_pos hadaptation,
    Nat.lt_min]
  constructor
  · unfold declaredAdaptation
    split
    · decide
    · exact Nat.lt_of_lt_of_le Nat.zero_lt_one (Nat.le_add_right 1 _)
  · decide

theorem payloadOffset_of_sameOutsidePayload {p q : Packet}
    (h : SameOutsidePayload p q) :
    q.payloadOffset = p.payloadOffset := by
  rcases sameOutsidePayload_iff.mp h with ⟨_, _, hfourth, _⟩
  have hpayload : q.hasPayload = p.hasPayload := by
    rw [hasPayload, hasPayload, hfourth]
  have hadaptation : q.hasAdaptation = p.hasAdaptation := by
    rw [hasAdaptation, hasAdaptation, hfourth]
  rw [payloadOffset, payloadOffset, adaptationSize, adaptationSize, hpayload,
    hadaptation]
  by_cases hp : p.hasPayload = true
  · by_cases ha : p.hasAdaptation = true
    · rw [declaredAdaptation_of_sameOutsidePayload h
        (payloadOffset_pos_of_adaptation hp ha)]
    · rw [if_neg ha, if_neg ha]
  · rw [if_neg hp, if_neg hp]

theorem sameOutsidePayload_trans {p q r : Packet} (hpq : SameOutsidePayload p q)
    (hqr : SameOutsidePayload q r) : SameOutsidePayload p r := by
  unfold SameOutsidePayload at hqr
  rw [payloadOffset_of_sameOutsidePayload hpq] at hqr
  exact hqr.trans hpq

/-!
## The payload after writing
-/

@[simp] theorem payloadOffset_writePayload (p : Packet) (content : Bytes) :
    (p.writePayload content).payloadOffset = p.payloadOffset :=
  payloadOffset_of_sameOutsidePayload
    (sameOutsidePayload_writePayload p content)

theorem payload_writePayload (p : Packet) (content : Bytes) :
    (p.writePayload content).payload =
      content.take p.payload.length ++ p.payload.drop content.length := by
  have hoffset : (p.body.take p.payloadOffset).length = p.payloadOffset := by
    rw [List.length_take, p.length_body]
    exact Nat.min_eq_left p.payloadOffset_le
  rw [payload, payloadOffset_writePayload, body_writePayload,
    List.drop_left' hoffset]

theorem payload_writePayload_of_length {p : Packet} {content : Bytes}
    (h : content.length = p.payload.length) :
    (p.writePayload content).payload = content := by
  rw [payload_writePayload, ← h, List.take_length, h, List.drop_length,
    List.append_nil]

theorem length_payload_writePayload (p : Packet) (content : Bytes) :
    (p.writePayload content).payload.length = p.payload.length := by
  rw [length_payload, length_payload, payloadOffset_writePayload]

theorem writePayload_payload (p : Packet) : p.writePayload p.payload = p := by
  have hbody : (p.writePayload p.payload).body = p.body := by
    rw [body_writePayload, List.take_length, List.drop_length, List.append_nil,
      payload, List.take_append_drop]
  cases p
  simp only [writePayload, mk.injEq, true_and] at hbody ⊢
  exact hbody

theorem writePayload_writePayload {p : Packet} {first second : Bytes}
    (h : second.length = p.payload.length) :
    (p.writePayload first).writePayload second = p.writePayload second := by
  have hlength := length_payload_writePayload p first
  have hover {q : Packet} (hq : second.length = q.payload.length) :
      (q.writePayload second).body = q.body.take q.payloadOffset ++ second := by
    rw [body_writePayload, ← hq, List.take_length, hq, List.drop_length,
      List.append_nil]
  have hbody : ((p.writePayload first).writePayload second).body =
      (p.writePayload second).body := by
    rw [hover (h.trans hlength.symm), hover h, payloadOffset_writePayload,
      take_body_writePayload]
  simp only [writePayload, mk.injEq, true_and] at hbody ⊢
  exact hbody

/-!
## Packets made of content
-/

def padded (second third fourth : UInt8) (content : Bytes) : Packet where
  second := second
  third := third
  fourth := fourth
  body :=
    content.take bodySize ++ List.replicate (bodySize - content.length) 0xFF
  length_body := by
    rw [List.length_append, List.length_take, List.length_replicate]
    lia

end Packet

/-!
## A table in several packets

The section announces the network, a program map and the one-segment program,
and goes on from a start packet into a second packet.  The program map lists a
video stream and an audio stream.
-/

def mixedSection : Bytes :=
  [0x00, 0xB0, 0x15, 0x7F, 0xE0, 0xC1, 0x00, 0x00,
    0x00, 0x00, 0xE0, 0x10, 0x04, 0x00, 0xE1, 0xF0, 0x05, 0x88, 0xFF, 0xC8,
    0x44, 0xF9, 0x07, 0x1E]

def mixedStart : Packet :=
  .padded 0x40 0x00 0x10
    (176 :: List.replicate 176 stuffingByte ++ mixedSection.take 7)

def mixedRest : Packet :=
  .padded 0x00 0x00 0x11 (mixedSection.drop 7)

def flaggedPacket : Packet :=
  .padded 0x80 0x00 0x11 []

def mapPacket : Packet :=
  .padded 0x41 0xF0 0x10
    [0x00,
      0x02, 0xB0, 0x17, 0x04, 0x00, 0xC1, 0x00, 0x00, 0xE1, 0x00, 0xF0, 0x00,
      0x02, 0xE1, 0x00, 0xF0, 0x00, 0x0F, 0xE1, 0x10, 0xF0, 0x00,
      0x00, 0x00, 0x00, 0x00]

def announcedLate : List Packet :=
  [mapPacket, mixedStart, mixedRest, mapPacket, flaggedPacket]

end TransportStream
