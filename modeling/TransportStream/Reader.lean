import TransportStream.Log
import TransportStream.Packet
import TransportStream.Source

/-!
# Reading packets from a source

A frame is collected from as many deliveries as the source needs for it.
Interruptions are waited out; any other failure, and the end of the input, give
up the bytes collected so far.
-/

namespace TransportStream

inductive FrameRead where
  | complete (frame : Frame)
  | ended (collected : Nat)
  | failed (failure : IoFailure)
  deriving DecidableEq

namespace Reader

variable {ρ : Type} [FiniteSource ρ]

theorem length_collected_le {collected data : Bytes}
    (h : collected.length ≤ frameSize)
    (hdata : data.length ≤ frameSize - collected.length) :
    (collected ++ data).length ≤ frameSize := by
  rw [List.length_append]
  omega

/-- Collect a frame of which some bytes are there already. -/
def fill (r : ρ) (collected : Bytes) (h : collected.length ≤ frameSize) :
    FrameRead × ρ :=
  if hfull : collected.length = frameSize then
    (.complete ⟨collected, hfull⟩, r)
  else
    match hread : Source.read r (frameSize - collected.length) with
    | (.bytes [], r') => (.ended collected.length, r')
    | (.bytes (b :: data), r') =>
        have := FiniteSource.isBound.lt_of_bytes hread
        have hlength := Source.length_le_of_read hread
        fill r' (collected ++ b :: data) (length_collected_le h hlength)
    | (.failed .interrupted, r') =>
        have := FiniteSource.isBound.lt_of_interrupted hread
        fill r' collected h
    | (.failed failure, r') => (.failed failure, r')
termination_by FiniteSource.remaining r

def readFrame (r : ρ) : FrameRead × ρ :=
  fill r [] (Nat.zero_le _)

def overrunRemark (p : Packet) : Option Record :=
  p.overrun?.map fun size => .debug .packet
    s!"pid {Text.hex4 p.pid}: adaptation field length {size} overruns packet"

def trailingRemark (collected : Nat) : Option Record :=
  if collected = 0 then none
  else some (.warn .packet
    s!"discarding {collected} trailing bytes (incomplete packet)")

def parsePacket (f : Frame) : Logged (Except Error Packet) := do
  let p := Packet.parse f
  Logged.note? (p.toOption.bind overrunRemark)
  pure p

def packetOf : FrameRead -> Logged (Except Error Packet)
  | .complete f => parsePacket f
  | .ended collected => do
      Logged.note? (trailingRemark collected)
      pure (.error .endOfStream)
  | .failed failure => pure (.error (.io failure))

def readPacket (r : ρ) : Logged (Except Error Packet × ρ) := do
  let (collected, r') := readFrame r
  let p ← packetOf collected
  pure (p, r')

/-!
# What reading uses up
-/

theorem remaining_le_of_fill {r r' : ρ} {collected : Bytes} {f : Frame}
    {h : collected.length ≤ frameSize}
    (hfill : fill r collected h = (.complete f, r')) :
    FiniteSource.remaining r' ≤ FiniteSource.remaining r := by
  fun_induction fill r collected h with
  | case1 => cases hfill; exact Nat.le_refl _
  | case2 => cases hfill
  | case3 r collected _ _ b data r1 hread hlt _ ih =>
      exact Nat.le_trans (ih hfill) (Nat.le_of_lt hlt)
  | case4 r collected _ _ r1 hread hlt ih =>
      exact Nat.le_trans (ih hfill) (Nat.le_of_lt hlt)
  | case5 => cases hfill

theorem remaining_lt_of_fill {r r' : ρ} {collected : Bytes} {f : Frame}
    {h : collected.length ≤ frameSize} (hshort : collected.length ≠ frameSize)
    (hfill : fill r collected h = (.complete f, r')) :
    FiniteSource.remaining r' < FiniteSource.remaining r := by
  fun_induction fill r collected h with
  | case1 => contradiction
  | case2 => cases hfill
  | case3 r collected _ _ b data r1 hread hlt _ ih =>
      exact Nat.lt_of_le_of_lt (remaining_le_of_fill hfill) hlt
  | case4 r collected _ _ r1 hread hlt ih =>
      exact Nat.lt_trans (ih hshort hfill) hlt
  | case5 => cases hfill

theorem complete_of_packetOf {c : FrameRead} {p : Packet}
    (h : (packetOf c).value = .ok p) :
    ∃ f, c = .complete f ∧ Packet.parse f = .ok p := by
  cases c with
  | complete f => exact ⟨f, rfl, h⟩
  | ended n => cases h
  | failed e => cases h

theorem remaining_lt_of_readPacket {r r' : ρ} {p : Packet}
    (h : (readPacket r).value = (.ok p, r')) :
    FiniteSource.remaining r' < FiniteSource.remaining r := by
  obtain ⟨hp, hr⟩ := Prod.mk.inj h
  obtain ⟨f, hf, _⟩ := complete_of_packetOf hp
  exact remaining_lt_of_fill (by decide) (Prod.ext hf hr)

end Reader
end TransportStream
