import TransportStream.Proofs.Packet.Payload
import TransportStream.Proofs.Source.Delivery

/-!
# One call after the other

A reader can be called again whatever the call before it returned.  Every call
takes the next frame of the bytes that its source delivers, whether the frame is
a packet or not, so that the frames are counted off from the first byte on.
-/

namespace TransportStream
namespace Reader

variable {ρ : Type} [FiniteSource ρ]

def afterCalls (r : ρ) : Nat -> ρ
  | 0 => r
  | i + 1 => (readPacket (afterCalls r i)).value.2

def call (r : ρ) (i : Nat) : Except Error Packet :=
  (readPacket (afterCalls r i)).value.1

def frameBytes (bytes : Bytes) (i : Nat) : Bytes :=
  (bytes.drop (frameSize * i)).take frameSize

theorem lt_div_frameSize_iff {i length : Nat} :
    i < length / frameSize ↔ frameSize ≤ length - frameSize * i := by
  rw [Nat.lt_div_iff_mul_lt (by decide)]
  simp only [frameSize]
  lia

theorem length_frameBytes {bytes : Bytes} {i : Nat}
    (h : i < bytes.length / frameSize) :
    (frameBytes bytes i).length = frameSize := by
  have hrest := lt_div_frameSize_iff.mp h
  rw [frameBytes, List.length_take, List.length_drop]
  exact Nat.min_eq_left hrest

theorem delivers_afterCalls {r : ρ} {bytes : Bytes} (h : Delivers r bytes)
    (i : Nat) :
    Delivers (afterCalls r i) (bytes.drop (frameSize * i)) := by
  induction i with
  | zero => exact h
  | succ i ih =>
      rcases readPacket_ahead ih with ⟨r', hread, hrest⟩
      have hafter : afterCalls r (i + 1) = r' := congrArg Prod.snd hread
      rw [List.drop_drop] at hrest
      rw [hafter, Nat.mul_succ]
      exact hrest

theorem call_eq_packetAhead {r : ρ} {bytes : Bytes} (h : Delivers r bytes)
    (i : Nat) :
    call r i = packetAhead (bytes.drop (frameSize * i)) := by
  rcases readPacket_ahead (delivers_afterCalls h i) with ⟨r', hread, _⟩
  exact congrArg Prod.fst hread

/-- Whatever the portions and interruptions of a source, every call returns what
the next 188 bytes parse as, a frame that is no packet included, and once fewer
are left every call finds the end. -/
theorem call_returns_frame {r : ρ} {bytes : Bytes} (h : Delivers r bytes)
    (i : Nat) :
    (forall hi : i < bytes.length / frameSize,
        call r i = Packet.parse ⟨frameBytes bytes i, length_frameBytes hi⟩) ∧
      (bytes.length / frameSize ≤ i -> call r i = .error .endOfStream) := by
  rw [call_eq_packetAhead h i]
  constructor
  · intro hi
    have hrest : frameSize ≤ (bytes.drop (frameSize * i)).length := by
      rw [List.length_drop]
      exact lt_div_frameSize_iff.mp hi
    exact dif_pos hrest
  · intro hi
    apply packetAhead_of_short
    rw [List.length_drop]
    exact Nat.lt_of_not_le (fun hle =>
      absurd (lt_div_frameSize_iff.mpr hle) (Nat.not_lt.mpr hi))

/-!
## A frame without a sync byte
-/

def unsyncedBytes : Bytes :=
  0x48 :: List.replicate 187 syncByte ++
    (Packet.padded 0x01 0xF0 0x10 []).bytes ++
    List.replicate 3 syncByte

def unsyncedFeed : Feed :=
  ⟨unsyncedBytes, 0, 50,
    [⟨120, some .interrupted⟩, ⟨120, some .interrupted⟩,
      ⟨200, some .interrupted⟩, ⟨379, some .interrupted⟩]⟩

theorem calls_of_unsyncedFeed :
    Delivers unsyncedFeed unsyncedBytes ∧ unsyncedBytes.length / frameSize = 2 ∧
      call unsyncedFeed 0 = .error (.framing 0x48) ∧
      call unsyncedFeed 1 = .ok (.padded 0x01 0xF0 0x10 []) ∧
      call unsyncedFeed 2 = .error .endOfStream ∧
      call unsyncedFeed 3 = .error .endOfStream := by
  have h : Delivers unsyncedFeed unsyncedBytes := by
    apply Feed.delivers
    intro fault hfault
    simp only [unsyncedFeed, List.mem_cons, List.not_mem_nil, or_false]
      at hfault
    rcases hfault with rfl | rfl | rfl | rfl
    all_goals rfl
  have hframes : unsyncedBytes.length / frameSize = 2 := by decide +kernel
  have hsecond :
      Frame.mk (frameBytes unsyncedBytes 1)
      (length_frameBytes (by decide +kernel)) =
      (Packet.padded 0x01 0xF0 0x10 []).frame := by decide +kernel
  refine ⟨h, hframes, ?_, ?_, ?_, ?_⟩
  · exact (call_returns_frame h 0).left (by decide +kernel)
  · rw [(call_returns_frame h 1).left (by decide +kernel), hsecond,
      Packet.parse_frame]
  · exact (call_returns_frame h 2).right (Nat.le_of_eq hframes)
  · exact (call_returns_frame h 3).right
      (Nat.le_succ_of_le (Nat.le_of_eq hframes))

end Reader
end TransportStream
