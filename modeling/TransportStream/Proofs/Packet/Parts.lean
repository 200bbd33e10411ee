import TransportStream.Proofs.Bits.Numbers
import TransportStream.Proofs.Bounds.Packet

/-!
# The parts of a frame

Header, adaptation field and payload of a packet make up its frame.  Other
content in the payload leaves a frame whose parts are found where they were.
-/

namespace TransportStream
namespace Packet

/-!
## The header
-/

theorem lowByte_eq_iff {n : Nat} {b : UInt8} :
    lowByte n = b ↔ n % 256 = b.toNat := by
  rw [lowByte, ← UInt8.toNat_inj, UInt8.toNat_ofNat']

theorem pid_mod (p : Packet) : p.pid % 256 = p.third.toNat := by
  have hlt := p.third.toNat_lt
  rw [pid, pidField, word]
  omega

theorem pid_div (p : Packet) : p.pid / 256 = field p.second 0 5 := by
  have hlt := p.third.toNat_lt
  rw [pid, pidField, word, field]
  omega

theorem second_eq (p : Packet) :
    p.transportError.toNat * 128 + p.unitStart.toNat * 64 +
      p.priority.toNat * 32 + p.pid / 256 =
      p.second.toNat := by
  have hbyte : p.second.toNat = field p.second 7 1 * 128 + field p.second 0 7 :=
    (field_byte p.second).symm.trans (field_add p.second 0 7 1)
  have hseven :
      field p.second 0 7 = field p.second 6 1 * 64 + field p.second 0 6 :=
    field_add p.second 0 6 1
  have hsix :
      field p.second 0 6 = field p.second 5 1 * 32 + field p.second 0 5 :=
    field_add p.second 0 5 1
  rw [transportError, unitStart, priority, flag_toNat, flag_toNat, flag_toNat,
    pid_div, hbyte, hseven, hsix, Nat.add_assoc, Nat.add_assoc]

theorem fourth_eq (p : Packet) :
    p.scrambling * 64 + p.adaptationControl * 16 + p.counter =
      p.fourth.toNat := by
  have hbyte : p.fourth.toNat = field p.fourth 6 2 * 64 + field p.fourth 0 6 :=
    (field_byte p.fourth).symm.trans (field_add p.fourth 0 6 2)
  have hsix :
      field p.fourth 0 6 = field p.fourth 4 2 * 16 + field p.fourth 0 4 :=
    field_add p.fourth 0 4 2
  rw [scrambling, adaptationControl, counter, hbyte, hsix, Nat.add_assoc]

theorem encodeHeader_eq (p : Packet) :
    p.encodeHeader = [syncByte, p.second, p.third, p.fourth] := by
  rw [encodeHeader, second_eq, fourth_eq, lowByte_eq_iff.mpr p.pid_mod, lowByte,
    lowByte, UInt8.ofNat_toNat, UInt8.ofNat_toNat]

/-!
## Adaptation field and payload
-/

theorem declaredAdaptation_eq (p : Packet) :
    p.declaredAdaptation = 1 + (p.bytes.getD 4 0).toNat := by
  show _ = 1 + (p.body.getD 0 0).toNat
  unfold declaredAdaptation
  cases p.body with
  | nil => rfl
  | cons length rest => rfl

theorem adaptation?_eq (p : Packet) :
    p.adaptation? =
      if flag (p.bytes.getD 3 0) 5 then
        some ((p.bytes.drop 4).take (min (1 + (p.bytes.getD 4 0).toNat) 184))
      else none := by
  show (if p.hasAdaptation = true then _ else none) = if p.hasAdaptation =
      true then _ else none
  by_cases h : p.hasAdaptation = true
  · rw [if_pos h, if_pos h, adaptationSize, if_pos h, declaredAdaptation_eq]
    rfl
  · rw [if_neg h, if_neg h]

theorem adaptation?_getD (p : Packet) :
    p.adaptation?.getD [] = p.body.take p.adaptationSize := by
  rw [adaptation?, adaptationSize]
  by_cases h : p.hasAdaptation = true
  · rw [if_pos h, if_pos h]
    rfl
  · rw [if_neg h, if_neg h]
    rfl

theorem parts_eq {p : Packet} (h : p.hasPayload = true) :
    p.encodeHeader ++ p.adaptation?.getD [] ++ p.payload = p.bytes := by
  rw [encodeHeader_eq, adaptation?_getD, payload, payloadOffset, if_pos h,
    List.append_assoc, List.take_append_drop]
  rfl

theorem payload_of_not_hasPayload {p : Packet} (h : p.hasPayload = false) :
    p.payload = [] :=
  payload_eq_nil_iff.mpr fun hboth => ne_true_of_eq_false h hboth.left

/-!
## Other content
-/

theorem adaptationSize_le_payloadOffset (p : Packet) :
    p.adaptationSize ≤ p.payloadOffset := by
  unfold payloadOffset
  split
  · exact Nat.le_refl _
  · exact p.adaptationSize_le

theorem adaptation?_of_sameOutsidePayload {p q : Packet}
    (h : SameOutsidePayload p q) :
    q.adaptation? = p.adaptation? := by
  rcases sameOutsidePayload_iff.mp h with ⟨_, _, hfourth, htake⟩
  -- The adaptation field ends where the payload starts or ahead of it.
  have hbody : q.body.take p.adaptationSize = p.body.take p.adaptationSize := by
    have hshorter := congrArg (List.take p.adaptationSize) htake
    rw [List.take_take, List.take_take,
      Nat.min_eq_left p.adaptationSize_le_payloadOffset]
      at hshorter
    exact hshorter
  rw [adaptation?, adaptation?, adaptationSize_of_sameOutsidePayload h, hbody,
    hasAdaptation, hasAdaptation, hfourth]

theorem exists_parse_of_sync {f : Frame} (h : f.bytes.head? = some syncByte) :
    exists p, parse f = .ok p := by
  unfold parse
  split
  rename_i sync second third fourth body hlength
  have hsync : sync = syncByte := Option.some.inj h
  rw [if_pos hsync]
  exact ⟨_, rfl⟩

/-- Any frame that starts with the sync byte is a packet, and its parts are all
of it: the header that is encoded again, the adaptation field if bit 5 of the
fourth byte announces one, and the payload if bit 4 does.  When other content
fills the payload, the frame that results is a packet with the same header, the
same ranges for its parts, the same adaptation field and that content. -/
theorem parse_keeps_all_parts (f : Frame) (h : f.bytes.head? = some syncByte) :
    exists p ahead, parse f = .ok p ∧ f.bytes = ahead ++ p.payload ∧
      p.encodeHeader = f.bytes.take 4 ∧
      p.adaptation? =
        (if flag (f.bytes.getD 3 0) 5 then
          some ((f.bytes.drop 4).take (min (1 + (f.bytes.getD 4 0).toNat) 184))
        else none) ∧
      (flag (f.bytes.getD 3 0) 4 = true ->
        p.encodeHeader ++ p.adaptation?.getD [] ++ p.payload = f.bytes) ∧
      (flag (f.bytes.getD 3 0) 4 = false -> p.payload = []) ∧
      forall content, content.length = p.payload.length ->
        (p.writePayload content).bytes = ahead ++ content ∧
          exists q, parse (p.writePayload content).frame = .ok q ∧
            q.placed = { p.placed with frame := ahead ++ content } ∧
            q.adaptation? = p.adaptation? ∧ q.payload = content := by
  rcases exists_parse_of_sync h with ⟨p, hparse⟩
  have hbytes : p.bytes = f.bytes :=
    congrArg Frame.bytes (frame_of_parse hparse)
  rw [← hbytes]
  refine ⟨p, p.aheadOfPayload, hparse, p.bytes_eq, p.encodeHeader_eq,
    p.adaptation?_eq, parts_eq, payload_of_not_hasPayload, ?_⟩
  intro content hcontent
  have hwritten := bytes_writePayload hcontent
  refine ⟨hwritten, p.writePayload content, parse_frame _, ?_,
    adaptation?_of_sameOutsidePayload
      (sameOutsidePayload_writePayload p content),
    payload_writePayload_of_length hcontent⟩
  rw [placed_writePayload, hwritten]

def crowded : Packet :=
  padded 0xE1 0xFF 0xFA (182 :: List.replicate 182 0x00)

theorem parse_keeps_parts_of_crowded :
    crowded.frame.bytes.head? = some syncByte ∧
      [0x55].length = crowded.payload.length ∧
      crowded.encodeHeader = [0x47, 0xE1, 0xFF, 0xFA] ∧
      crowded.adaptation? = some (182 :: List.replicate 182 0x00) ∧
      [0x47, 0xE1, 0xFF, 0xFA] ++ (182 :: List.replicate 182 0x00) ++ [0xFF] =
        crowded.frame.bytes ∧
      exists q, parse (crowded.writePayload [0x55]).frame = .ok q ∧
        q.adaptation? = some (182 :: List.replicate 182 0x00) ∧
          q.payload = [0x55] := by
  have hsync : crowded.frame.bytes.head? = some syncByte := rfl
  have hlength : [0x55].length = crowded.payload.length := by decide +kernel
  rcases parse_keeps_all_parts crowded.frame hsync with
    ⟨p, ahead, hparse, _, hheader, hadaptation, hparts, _, hwritten⟩
  rw [parse_frame] at hparse
  cases hparse
  have hfield : crowded.adaptation? = some (182 :: List.replicate 182 0x00) :=
    hadaptation.trans (by decide +kernel)
  have hpayload : crowded.payload = [0xFF] := by decide +kernel
  have hwhole := hparts rfl
  rw [hheader, hfield, hpayload] at hwhole
  rcases hwritten [0x55] hlength with ⟨_, q, hq, _, hkept, hcontent⟩
  exact ⟨hsync, hlength, hheader, hfield, hwhole, q, hq, hkept.trans hfield,
    hcontent⟩

end Packet
end TransportStream
