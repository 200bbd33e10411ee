import TransportStream.Section.Assembler
import TransportStream.Proofs.Section.Cutting

/-!
# Units of a packet sequence

The packets of one identifier fall into units: a start packet and the packets
behind it, up to the next start packet.  The sections that an assembler hands
out packet by packet are read here unit by unit, from all the bytes of a unit at
once.
-/

namespace TransportStream

/-!
## Feeding an assembler
-/

namespace SectionAssembler

def feed (a : SectionAssembler) : List Packet -> SectionAssembler × List Bytes
  | [] => (a, [])
  | p :: packets =>
      let (a', sections) := (a.submit p).value
      let (a'', later) := feed a' packets
      (a'', sections ++ later)

@[simp] theorem feed_nil (a : SectionAssembler) : a.feed [] = (a, []) := rfl

theorem feed_cons (a : SectionAssembler) (p : Packet) (packets : List Packet) :
    a.feed (p :: packets) =
      (((a.submit p).value.1.feed packets).1,
        (a.submit p).value.2 ++ ((a.submit p).value.1.feed packets).2) := rfl

theorem feed_append (a : SectionAssembler) (packets later : List Packet) :
    a.feed (packets ++ later) =
      (((a.feed packets).1.feed later).1,
        (a.feed packets).2 ++ ((a.feed packets).1.feed later).2) := by
  induction packets generalizing a with
  | nil => rfl
  | cons p packets ih =>
      rw [List.cons_append, feed_cons, ih, feed_cons, List.append_assoc]

end SectionAssembler

/-!
## Units and their bytes
-/

/-- A start packet and the packets that follow it up to the next one. -/
structure PayloadUnit where
  start : Packet
  later : List Packet
  deriving DecidableEq

def units (opens : Packet -> Bool) : List Packet -> List PayloadUnit
  | [] => []
  | p :: packets =>
      if opens p then ⟨p, packets.takeWhile (!opens ·)⟩ :: units opens packets
      else units opens packets

theorem units_cons_of_opens {opens : Packet -> Bool} {p : Packet}
    (h : opens p = true) (packets : List Packet) :
    units opens (p :: packets) =
      ⟨p, packets.takeWhile (!opens ·)⟩ :: units opens packets := by
  rw [units, if_pos h]

theorem units_cons_of_not_opens {opens : Packet -> Bool} {p : Packet}
    (h : opens p = false) (packets : List Packet) :
    units opens (p :: packets) = units opens packets := by
  rw [units, if_neg (by simp [h])]

/-- An assembler does not hear packets with a transport error, nor start packets
without a payload. -/
def Packet.isHeard (p : Packet) : Bool :=
  !p.transportError && !(p.unitStart && p.payload.isEmpty)

/-- The payload bytes that packets add to a unit whose last accepted counter is
given: a repeated counter is skipped, the next counter is appended, and any
other counter ends the unit. -/
def continuation (last : Nat) : List Packet -> Bytes
  | [] => []
  | p :: packets =>
      if p.counter = last then continuation last packets
      else if p.counter = (last + 1) % 16 then
        p.payload ++ continuation p.counter packets
      else []

namespace PayloadUnit

/-- The bytes of a unit behind its pointer; none if the pointer leads past the
start packet. -/
def bytes? (u : PayloadUnit) : Option Bytes :=
  match u.start.payload with
  | [] => none
  | pointer :: rest =>
      if rest.length < pointer.toNat then none
      else some (rest.drop pointer.toNat ++
        continuation u.start.counter u.later)

def sections (u : PayloadUnit) : List Bytes :=
  match u.bytes? with
  | none => []
  | some bytes => wholeSections bytes

end PayloadUnit

/-!
## What one packet does to an assembler
-/

namespace SectionAssembler

theorem submit_of_not_heard (a : SectionAssembler) {p : Packet}
    (h : p.isHeard = false) :
    (a.submit p).value = (a, []) := by
  unfold submit
  by_cases herror : p.transportError = true
  · rw [if_pos herror]
    rfl
  · have hstart : p.unitStart = true ∧ p.payload = [] := by
      simpa [Packet.isHeard, herror] using h
    rw [if_neg herror, if_pos hstart.left, begin, hstart.right]
    rfl

theorem submit_of_start (a : SectionAssembler) {p : Packet} {pointer : UInt8}
    {rest : Bytes} (herror : p.transportError = false)
    (hstart : p.unitStart = true) (hpayload : p.payload = pointer :: rest) :
    (a.submit p).value =
      if rest.length < pointer.toNat then (.idle, [])
      else handOut p.counter (rest.drop pointer.toNat) := by
  unfold submit
  rw [if_neg (by simp [herror]), if_pos hstart, begin, hpayload]
  by_cases hpast : rest.length < pointer.toNat
  · simp only [if_pos hpast]
    rfl
  · simp only [if_neg hpast]
    rfl

theorem submit_idle_of_later {p : Packet} (hstart : p.unitStart = false) :
    (SectionAssembler.idle.submit p).value = (.idle, []) := by
  unfold submit
  by_cases herror : p.transportError = true
  · rw [if_pos herror]
    rfl
  · rw [if_neg herror, if_neg (by simp [hstart])]
    rfl

theorem submit_collecting_of_later (last : Nat) (pending : Bytes) {p : Packet}
    (herror : p.transportError = false) (hstart : p.unitStart = false) :
    ((SectionAssembler.collecting last pending).submit p).value =
      if p.counter = last then (.collecting last pending, [])
      else if p.counter = (last + 1) % 16 then
        handOut p.counter (pending ++ p.payload)
      else (.idle, []) := by
  unfold submit
  rw [if_neg (by simp [herror]), if_neg (by simp [hstart])]
  simp only [resume, Packet.continuityAfter]
  by_cases hsame : p.counter = last
  · rw [if_pos hsame, if_pos hsame]
    rfl
  · rw [if_neg hsame, if_neg hsame]
    by_cases hnext : p.counter = (last + 1) % 16
    · rw [if_pos hnext, if_pos hnext]
      rfl
    · rw [if_neg hnext, if_neg hnext]
      rfl

theorem feed_filter_isHeard (a : SectionAssembler) (packets : List Packet) :
    a.feed (packets.filter Packet.isHeard) = a.feed packets := by
  induction packets generalizing a with
  | nil => rfl
  | cons p packets ih =>
      cases hheard : p.isHeard with
      | false =>
          rw [List.filter_cons_of_neg (by simp [hheard]), ih, feed_cons,
            submit_of_not_heard a hheard]
          rfl
      | true => rw [List.filter_cons_of_pos hheard, feed_cons, feed_cons, ih]

end SectionAssembler

/-!
## Reading a unit at once

An assembler that has just cut what it collected goes on exactly as if it had
the rest of the unit before it: by `cutSections_append` the sections cut later
are those that follow in the bytes of the whole unit.
-/

def sectionsByUnit (packets : List Packet) : List Bytes :=
  (units Packet.unitStart packets).flatMap PayloadUnit.sections

def sectionsFrom (last : Nat) (bytes : Bytes) (packets : List Packet) :
    List Bytes :=
  wholeSections (bytes ++
    continuation last (packets.takeWhile (!Packet.unitStart ·))) ++
    sectionsByUnit packets

theorem sectionsByUnit_cons_of_start {p : Packet} {pointer : UInt8}
    {rest : Bytes} (hstart : p.unitStart = true)
    (hpayload : p.payload = pointer :: rest) (packets : List Packet) :
    sectionsByUnit (p :: packets) =
      if rest.length < pointer.toNat then sectionsByUnit packets
      else sectionsFrom p.counter (rest.drop pointer.toNat) packets := by
  unfold sectionsByUnit
  rw [units_cons_of_opens hstart, List.flatMap_cons, PayloadUnit.sections,
    PayloadUnit.bytes?, hpayload]
  by_cases hpast : rest.length < pointer.toNat
  · simp only [if_pos hpast, List.nil_append]
  · simp only [if_neg hpast]
    rfl

theorem sectionsByUnit_cons_of_later {p : Packet} (hstart : p.unitStart = false)
    (packets : List Packet) :
    sectionsByUnit (p :: packets) = sectionsByUnit packets := by
  unfold sectionsByUnit
  rw [units_cons_of_not_opens hstart]

theorem sectionsFrom_cons_of_start (last : Nat) (bytes : Bytes) {p : Packet}
    (hstart : p.unitStart = true) (packets : List Packet) :
    sectionsFrom last bytes (p :: packets) =
      wholeSections bytes ++ sectionsByUnit (p :: packets) := by
  rw [sectionsFrom, List.takeWhile_cons_of_neg (by simp [hstart]), continuation,
    List.append_nil]

theorem sectionsFrom_cons_of_later (last : Nat) (bytes : Bytes) {p : Packet}
    (hstart : p.unitStart = false) (packets : List Packet) :
    sectionsFrom last bytes (p :: packets) =
      if p.counter = last then sectionsFrom last bytes packets
      else if p.counter = (last + 1) % 16 then
        sectionsFrom p.counter (bytes ++ p.payload) packets
      else wholeSections bytes ++ sectionsByUnit packets := by
  rw [sectionsFrom, sectionsByUnit_cons_of_later hstart,
    List.takeWhile_cons_of_pos (by simp [hstart]), continuation]
  by_cases hsame : p.counter = last
  · rw [if_pos hsame, if_pos hsame]
    rfl
  · rw [if_neg hsame, if_neg hsame]
    by_cases hnext : p.counter = (last + 1) % 16
    · rw [if_pos hnext, if_pos hnext, sectionsFrom, List.append_assoc bytes]
    · rw [if_neg hnext, if_neg hnext, List.append_nil]

theorem sectionsFrom_of_rest_none (last : Nat) {bytes : Bytes}
    (h : (cutSections bytes).rest = none) (packets : List Packet) :
    sectionsFrom last bytes packets =
      wholeSections bytes ++ sectionsByUnit packets := by
  rw [sectionsFrom, wholeSections_append_of_rest_none h]

theorem sectionsFrom_append_of_rest_some (last : Nat) {bytes rest : Bytes}
    (h : (cutSections bytes).rest = some rest) (more : Bytes)
    (packets : List Packet) :
    sectionsFrom last (bytes ++ more) packets =
      wholeSections bytes ++ sectionsFrom last (rest ++ more) packets := by
  rw [sectionsFrom, sectionsFrom, List.append_assoc,
    wholeSections_append_of_rest_some h, List.append_assoc, List.append_assoc]

namespace SectionAssembler

theorem handOut_of_rest_none (last : Nat) {bytes : Bytes}
    (h : (cutSections bytes).rest = none) :
    handOut last bytes = (.idle, wholeSections bytes) := by
  rw [handOut, h, sections_cutSections, waiting]

theorem handOut_of_rest_some (last : Nat) {bytes rest : Bytes}
    (h : (cutSections bytes).rest = some rest) :
    handOut last bytes = (.collecting last rest, wholeSections bytes) := by
  rw [handOut, h, sections_cutSections, waiting]

theorem sections_handOut (last : Nat) (bytes : Bytes) :
    (handOut last bytes).2 = wholeSections bytes := by
  rw [handOut, sections_cutSections]

theorem sections_feed_heard (packets : List Packet)
    (hheard : forall p, p ∈ packets -> p.isHeard = true) :
    (SectionAssembler.idle.feed packets).2 = sectionsByUnit packets ∧
      forall (last : Nat) (bytes : Bytes),
        (handOut last bytes).2 ++ ((handOut last bytes).1.feed packets).2 =
          sectionsFrom last bytes packets := by
  induction packets with
  | nil =>
      constructor
      · rfl
      · intro last bytes
        rw [feed_nil, sections_handOut, List.append_nil, sectionsFrom,
          List.takeWhile_nil, continuation, List.append_nil bytes]
        exact (List.append_nil (wholeSections bytes)).symm
  | cons p packets ih =>
      have hp := hheard p List.mem_cons_self
      rcases ih (fun q hq => hheard q (List.mem_cons_of_mem p hq)) with
        ⟨ihIdle, ihCut⟩
      have herror : p.transportError = false := by
        simp only [Packet.isHeard, Bool.and_eq_true, Bool.not_eq_true'] at hp
        exact hp.left
      cases hstart : p.unitStart with
      | true =>
          -- A start packet makes the assembler forget what it collected.
          have hfeed : forall a : SectionAssembler,
              (a.feed (p :: packets)).2 = sectionsByUnit (p :: packets) := by
            intro a
            cases hpayload : p.payload with
            | nil => simp [Packet.isHeard, hstart, hpayload] at hp
            | cons pointer rest =>
                rw [feed_cons, submit_of_start a herror hstart hpayload,
                  sectionsByUnit_cons_of_start hstart hpayload]
                by_cases hpast : rest.length < pointer.toNat
                · rw [if_pos hpast, if_pos hpast]
                  exact ihIdle
                · rw [if_neg hpast, if_neg hpast]
                  exact ihCut p.counter (rest.drop pointer.toNat)
          constructor
          · exact hfeed .idle
          · intro last bytes
            rw [hfeed, sections_handOut,
              sectionsFrom_cons_of_start last bytes hstart]
      | false =>
          have hidle : (SectionAssembler.idle.feed (p :: packets)).2 =
              sectionsByUnit packets := by
            rw [feed_cons, submit_idle_of_later hstart]
            exact ihIdle
          constructor
          · rw [hidle, sectionsByUnit_cons_of_later hstart]
          · intro last bytes
            cases hrest : (cutSections bytes).rest with
            | none =>
                rw [sectionsFrom_of_rest_none last hrest,
                  handOut_of_rest_none last hrest, hidle,
                  sectionsByUnit_cons_of_later hstart]
            | some pending =>
                have hnow := ihCut last bytes
                rw [sectionsFrom_cons_of_later last bytes hstart]
                rw [handOut_of_rest_some last hrest] at hnow ⊢
                rw [feed_cons,
                  submit_collecting_of_later last pending herror hstart]
                by_cases hsame : p.counter = last
                · rw [if_pos hsame, if_pos hsame]
                  exact hnow
                · rw [if_neg hsame, if_neg hsame]
                  by_cases hnext : p.counter = (last + 1) % 16
                  · rw [if_pos hnext, if_pos hnext, ihCut,
                      sectionsFrom_append_of_rest_some p.counter hrest]
                  · rw [if_neg hnext, if_neg hnext]
                    exact congrArg (wholeSections bytes ++ ·) ihIdle

/-- Whatever packets are fed to a fresh assembler, the sections it hands out are
those of the batch reading: packets that are not heard are dropped, and every
start packet that is left opens a unit whose sections are cut greedily from all
the bytes of the unit. -/
theorem sections_feed_idle (packets : List Packet) :
    (SectionAssembler.idle.feed packets).2 =
      (units Packet.unitStart (packets.filter Packet.isHeard)).flatMap
        PayloadUnit.sections := by
  rw [← feed_filter_isHeard]
  exact (sections_feed_heard (packets.filter Packet.isHeard)
    (fun p hp => (List.mem_filter.mp hp).right)).left

end SectionAssembler
end TransportStream
