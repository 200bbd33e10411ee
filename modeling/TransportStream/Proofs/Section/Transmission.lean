import TransportStream.Proofs.Packet.Payload
import TransportStream.Proofs.Section.Splitting

/-!
# Sections on their way

Sections that are sent one behind the other may be cut anywhere: into a start
packet, behind its pointer, and into any number of packets behind it.  On the
way some packets are damaged, which they say themselves, and some are repeated.
An assembler hands out the sections that were sent, in order and once each,
whatever it was busy with before.
-/

namespace TransportStream

/-!
## Sections one behind the other
-/

/-- A section whose length field tells its length, and which does not look like
stuffing. -/
def IsWholeSection (bytes : Bytes) : Prop :=
  exists (tableId hi lo : UInt8) (rest : Bytes),
    bytes = tableId :: hi :: lo :: rest ∧ tableId ≠ stuffingByte ∧
      lengthField hi lo = rest.length

theorem wholeSections_append_of_isWholeSection {bytes : Bytes}
    (h : IsWholeSection bytes) (more : Bytes) :
    wholeSections (bytes ++ more) = bytes :: wholeSections more := by
  rcases h with ⟨tableId, hi, lo, rest, rfl, htable, hlength⟩
  have hcut :
      ¬ (tableId = stuffingByte ∨
      (rest ++ more).length < lengthField hi lo) := by
    intro hstop
    rcases hstop with hstuff | hshort
    · exact htable hstuff
    · rw [hlength, List.length_append] at hshort
      lia
  rw [List.cons_append, List.cons_append, List.cons_append, wholeSections,
    if_neg hcut, hlength, List.take_left, List.drop_left]

theorem wholeSections_flatten_append {sections : List Bytes}
    (h : forall bytes, bytes ∈ sections -> IsWholeSection bytes)
    (more : Bytes) :
    wholeSections (sections.flatten ++ more) =
      sections ++ wholeSections more := by
  induction sections with
  | nil => rfl
  | cons bytes sections ih =>
      have hlater : forall later, later ∈ sections -> IsWholeSection later := by
        intro later hmem
        exact h later (List.mem_cons_of_mem bytes hmem)
      rw [List.flatten_cons, List.append_assoc,
        wholeSections_append_of_isWholeSection (h bytes List.mem_cons_self),
        ih hlater, List.cons_append]

theorem wholeSections_sent {sections : List Bytes}
    (h : forall bytes, bytes ∈ sections -> IsWholeSection bytes)
    (stuffing : Nat) :
    wholeSections (sections.flatten ++ List.replicate stuffing stuffingByte) =
      sections := by
  have hempty : wholeSections [] = [] := wholeSections_of_incomplete rfl
  have hstuff := wholeSections_replicate_append stuffing []
  rw [List.append_nil, hempty, ite_self] at hstuff
  rw [wholeSections_flatten_append h, hstuff, List.append_nil]

/-!
## Packets behind a start packet
-/

/-- Packets that carry portions of a unit behind a packet with the counter
given: one packet for each portion, with damaged packets and repetitions of the
packet last sent anywhere between. -/
inductive Carries : Nat -> List Bytes -> List Packet -> Prop where
  | nothing (last : Nat) : Carries last [] []
  | damaged {last : Nat} {portions : List Bytes} {p : Packet}
    {packets : List Packet} :
      p.transportError = true -> Carries last portions packets ->
        Carries last portions (p :: packets)
  | repeated {last : Nat} {portions : List Bytes} {p : Packet}
    {packets : List Packet} :
      p.transportError = false -> p.unitStart = false -> p.counter = last ->
        Carries last portions packets -> Carries last portions (p :: packets)
  | portion {last : Nat} {portions : List Bytes} {p : Packet}
    {packets : List Packet} :
      p.transportError = false -> p.unitStart = false ->
        p.counter = (last + 1) % 16 ->
        Carries p.counter portions packets ->
          Carries last (p.payload :: portions) (p :: packets)

theorem Packet.isHeard_of_damaged {p : Packet} (h : p.transportError = true) :
    p.isHeard = false := by
  rw [isHeard, h]
  rfl

theorem Packet.isHeard_of_later {p : Packet} (herror : p.transportError = false)
    (hstart : p.unitStart = false) : p.isHeard = true := by
  rw [isHeard, herror, hstart]
  rfl

section Carries

variable {last : Nat} {portions : List Bytes} {packets : List Packet}

theorem continuation_of_carries (h : Carries last portions packets)
    (hlast : last < 16) :
    continuation last (packets.filter Packet.isHeard) = portions.flatten := by
  induction h with
  | nothing last => rfl
  | damaged herror _ ih =>
      rw [List.filter_cons_of_neg (by simp [Packet.isHeard_of_damaged herror]),
        ih hlast]
  | repeated herror hstart hsame _ ih =>
      rw [List.filter_cons_of_pos (Packet.isHeard_of_later herror hstart),
        continuation, if_pos hsame, ih hlast]
  | @portion last portions p packets herror hstart hnext _ ih =>
      have hother : p.counter ≠ last := by
        rw [hnext]
        lia
      rw [List.filter_cons_of_pos (Packet.isHeard_of_later herror hstart),
        continuation, if_neg hother, if_pos hnext, ih p.counter_lt,
        List.flatten_cons]

theorem opensUnit_of_carries (h : Carries last portions packets) :
    forall p, p ∈ packets -> p.opensUnit = false := by
  induction h with
  | nothing last =>
      intro p hp
      cases hp
  | damaged herror _ ih =>
      intro q hq
      rcases List.mem_cons.mp hq with rfl | hmem
      · rw [Packet.opensUnit, Packet.isHeard_of_damaged herror]
        rfl
      · exact ih q hmem
  | repeated _ hstart _ _ ih =>
      intro q hq
      rcases List.mem_cons.mp hq with rfl | hmem
      · rw [Packet.opensUnit, hstart, Bool.and_false]
      · exact ih q hmem
  | portion _ hstart _ _ ih =>
      intro q hq
      rcases List.mem_cons.mp hq with rfl | hmem
      · rw [Packet.opensUnit, hstart, Bool.and_false]
      · exact ih q hmem

end Carries

/-!
## What is handed out
-/

namespace SectionAssembler

theorem feed_of_damaged (a : SectionAssembler) {packets : List Packet}
    (h : forall p, p ∈ packets -> p.transportError = true) :
    a.feed packets = (a, []) := by
  have hnone : packets.filter Packet.isHeard = [] := by
    rw [List.filter_eq_nil_iff]
    intro p hp
    rw [Packet.isHeard_of_damaged (h p hp)]
    exact Bool.false_ne_true
  rw [← feed_filter_isHeard, hnone, feed_nil]

theorem feed_cons_of_opensUnit (a b : SectionAssembler) {p : Packet}
    (hp : p.opensUnit = true) (packets : List Packet) :
    a.feed (p :: packets) = b.feed (p :: packets) := by
  have herror := Packet.transportError_of_opensUnit hp
  have hstart := Packet.unitStart_of_opensUnit hp
  have hheard := Packet.isHeard_of_opensUnit hp
  cases hpayload : p.payload with
  | nil => simp [Packet.isHeard, hstart, hpayload] at hheard
  | cons pointer rest =>
      rw [feed_cons, feed_cons, submit_of_start a herror hstart hpayload,
        submit_of_start b herror hstart hpayload]

/-- Sections are handed out as they were sent: in whatever places their bytes
are cut, wherever the counter starts, whatever damaged and repeated packets
stand between, and whatever the assembler was busy with before. -/
theorem sections_feed_transmission {sections : List Bytes}
    (hsections : forall bytes, bytes ∈ sections -> IsWholeSection bytes)
    {damaged later : List Packet} {start : Packet} {pointer : UInt8}
    {filler first : Bytes} {portions : List Bytes} {stuffing : Nat}
    (hdamaged : forall p, p ∈ damaged -> p.transportError = true)
    (herror : start.transportError = false) (hstart : start.unitStart = true)
    (hpayload : start.payload = pointer :: (filler ++ first))
    (hpointer : pointer.toNat = filler.length)
    (hlater : Carries start.counter portions later)
    (hbytes : first ++ portions.flatten =
      sections.flatten ++ List.replicate stuffing stuffingByte)
    (a : SectionAssembler) :
    (a.feed (damaged ++ start :: later)).2 = sections := by
  have hopens : start.opensUnit = true := by
    rw [Packet.opensUnit, Packet.isHeard, herror, hstart, hpayload]
    rfl
  have hunit : units Packet.opensUnit (start :: later) = [⟨start, later⟩] :=
    units_of_unit hopens (opensUnit_of_carries hlater)
  have hread : (PayloadUnit.heard ⟨start, later⟩).bytes? =
      some (first ++ portions.flatten) := by
    unfold PayloadUnit.heard PayloadUnit.bytes?
    have hlong : ¬ (filler ++ first).length < pointer.toNat := by
      rw [hpointer, List.length_append]
      lia
    dsimp only
    rw [hpayload]
    dsimp only
    rw [if_neg hlong, hpointer, List.drop_left,
      continuation_of_carries hlater start.counter_lt]
  rw [feed_append, feed_of_damaged a hdamaged, List.nil_append,
    feed_cons_of_opensUnit a .idle hopens, sections_feed_units, hunit,
    List.flatMap_singleton, PayloadUnit.sections, hread]
  dsimp only
  rw [hbytes]
  exact wholeSections_sent hsections stuffing

/-!
## A transmission with noise

The counter starts at its highest value.  One section is cut in two, one of the
packets behind the start packet carries nothing, and one comes twice.
-/

def sentSections : List Bytes :=
  [[0x02, 0xB0, 0x04, 0x01, 0x02, 0x03, 0x04], [0x00, 0x00, 0x00]]

def damagedPacket : Packet :=
  .padded 0xC0 0x20 0x17 [0x00]

def sentStart : Packet :=
  .padded 0x40 0x20 0x1F (181 :: List.replicate 181 stuffingByte ++
    [0x02, 0xB0])

def repeatedPacket : Packet :=
  .padded 0x00 0x20 0x1F [0x02, 0x00, 0x00]

def idlePacket : Packet :=
  .padded 0x00 0x20 0x20 []

def lastPacket : Packet :=
  .padded 0x00 0x20 0x11 [0x04, 0x01, 0x02, 0x03, 0x04, 0x00, 0x00, 0x00]

def sentLater : List Packet :=
  [damagedPacket, repeatedPacket, idlePacket, damagedPacket, lastPacket]

theorem sections_feed_noisy_transmission :
    (forall bytes, bytes ∈ sentSections -> IsWholeSection bytes) ∧
      (forall p, p ∈ [damagedPacket] -> p.transportError = true) ∧
      sentStart.transportError = false ∧ sentStart.unitStart = true ∧
      sentStart.payload =
        181 :: (List.replicate 181 stuffingByte ++ [0x02, 0xB0]) ∧
      (181 : UInt8).toNat = (List.replicate 181 stuffingByte).length ∧
      Carries sentStart.counter [idlePacket.payload, lastPacket.payload]
        sentLater ∧
      [0x02, 0xB0] ++ [idlePacket.payload, lastPacket.payload].flatten =
        sentSections.flatten ++ List.replicate 176 stuffingByte ∧
      ((collecting 3 [0x02]).feed
        ([damagedPacket] ++ sentStart :: sentLater)).2 =
        sentSections := by
  have hsections : forall bytes, bytes ∈ sentSections ->
      IsWholeSection bytes := by
    intro bytes hbytes
    simp only [sentSections, List.mem_cons, List.not_mem_nil, or_false]
      at hbytes
    rcases hbytes with rfl | rfl
    · exact ⟨0x02, 0xB0, 0x04, [0x01, 0x02, 0x03, 0x04], rfl, by decide, rfl⟩
    · exact ⟨0x00, 0x00, 0x00, [], rfl, by decide, rfl⟩
  have hdamaged : forall p, p ∈ [damagedPacket] -> p.transportError = true := by
    intro p hp
    rw [List.mem_singleton.mp hp]
    rfl
  have hlater :
      Carries sentStart.counter [idlePacket.payload, lastPacket.payload]
      sentLater := by
    refine .damaged rfl ?_
    refine .repeated rfl rfl rfl ?_
    refine .portion rfl rfl rfl ?_
    refine .damaged rfl ?_
    exact .portion rfl rfl rfl (.nothing _)
  have hpayload : sentStart.payload =
      181 :: (List.replicate 181 stuffingByte ++ [0x02, 0xB0]) := by
        decide +kernel
  have hbytes :
      [0x02, 0xB0] ++ [idlePacket.payload, lastPacket.payload].flatten =
      sentSections.flatten ++ List.replicate 176 stuffingByte := by
        decide +kernel
  have hpointer :
      (181 : UInt8).toNat = (List.replicate 181 stuffingByte).length := by
    rw [List.length_replicate]
    rfl
  exact ⟨hsections, hdamaged, rfl, rfl, hpayload, hpointer, hlater, hbytes,
    sections_feed_transmission hsections hdamaged rfl rfl hpayload hpointer
      hlater hbytes (collecting 3 [0x02])⟩

end SectionAssembler
end TransportStream
