import TransportStream.Proofs.Crc.Bursts
import TransportStream.Proofs.TableReport

/-!
# Damage that a report shows

A section that was damaged in no more than 32 bits in a row is listed like any
other that can be decoded, and marked as damaged.
-/

namespace TransportStream

open TransportStream.TableReport

theorem TableReport.Lists.marks {τ : Type} [Table τ]
    {listed entries : List (TableEntry τ)} (h : Lists listed entries)
    {e : TableEntry τ} (he : e ∈ entries)
    (hdamaged : Crc.isIntact e.bytes = false) :
    e ∈ listed ∧ e.isIntact = false := by
  have hlisted := (h.complete e).mpr he
  exact ⟨hlisted, (h.decoded e hlisted).right.trans hdamaged⟩

/-- If all bits in which a section of the same length differs from an intact one
lie within 32 bits in a row, wherever these begin, then its checksum is wrong,
and every table that a report lists from it is marked as damaged. -/
theorem report_marks_burst {sent received : Bytes}
    (hsent : Crc.isIntact sent = true) (hlength : received.length = sent.length)
    (hne : received ≠ sent) {start : Nat}
    (hburst : forall i, bitAt received i ≠ bitAt sent i ->
      start ≤ i ∧ i < start + 32) :
    Crc.isIntact received = false ∧
      forall {ρ : Type} [FiniteSource ρ] {r : ρ} {packets : List Packet}
        {tail : Bytes}, Delivers r (packetBytes packets ++ tail) ->
        tail.length < frameSize ->
          exists report, (collect r).value = .ok report ∧
            (forall e, e ∈ patEntries packets -> e.bytes = received ->
              e ∈ report.pats ∧ e.isIntact = false) ∧
            (forall e, e ∈ mapEntries packets -> e.bytes = received ->
              e ∈ report.pmts ∧ e.isIntact = false) := by
  have hdamaged : Crc.isIntact received = false := by
    apply Bool.eq_false_iff.mpr
    intro hreceived
    have hcrc := Crc.crc_ne_of_burst hlength hne hburst
    rw [(Crc.isIntact_iff.mp hsent).right,
      (Crc.isIntact_iff.mp hreceived).right] at hcrc
    exact hcrc rfl
  refine ⟨hdamaged, ?_⟩
  intro ρ _ r packets tail hr htail
  have hpats : Lists (listing packets).pats (patEntries packets) :=
    lists_eraseDupsBy (fun e he => (of_mem_patEntries he).right)
  have hpmts : Lists (listing packets).pmts (mapEntries packets) :=
    lists_eraseDupsBy (fun e he => (of_mem_mapEntries he).right)
  refine ⟨listing packets, collect_of_delivers hr htail, ?_, ?_⟩
  · intro e he hbytes
    exact hpats.marks he (by rw [hbytes, hdamaged])
  · intro e he hbytes
    exact hpmts.marks he (by rw [hbytes, hdamaged])

/-!
## An association table with damaged entries
-/

def damagedSection : Bytes :=
  [0x00, 0xB0, 0x15, 0x7F, 0xE0, 0xC1, 0x00, 0x00, 0x00, 0x10, 0xE0, 0x5A, 0x04,
    0x20, 0xE1, 0xF0, 0x05, 0x88, 0xFF, 0xC8, 0x44, 0xF9, 0x07, 0x1E]

def damagedPacket : Packet :=
  .padded 0x40 0x00 0x10 (0x00 :: damagedSection)

theorem damaged_in_window {i : Nat}
    (h : bitAt damagedSection i ≠ bitAt mixedSection i) :
    75 ≤ i ∧ i < 75 + 32 := by
  have hinside : forall i, i < 192 ->
      bitAt damagedSection i ≠ bitAt mixedSection i ->
      75 ≤ i ∧ i < 75 + 32 := by
    decide +kernel
  by_cases hi : i < 192
  · exact hinside i hi h
  · have hreceived : bitAt damagedSection i = false :=
      bitAt_of_le (Nat.le_of_not_lt hi)
    have hsent : bitAt mixedSection i = false :=
      bitAt_of_le (Nat.le_of_not_lt hi)
    exact absurd (hreceived.trans hsent.symm) h

theorem report_marks_damagedSection :
    Crc.isIntact mixedSection = true ∧
    damagedSection.length = mixedSection.length ∧
      damagedSection ≠ mixedSection ∧
      (bitAt damagedSection 75 ≠ bitAt mixedSection 75 ∧
        bitAt damagedSection 106 ≠ bitAt mixedSection 106) ∧
      Crc.isIntact damagedSection = false ∧
      Delivers (Feed.ofBytes (packetBytes [damagedPacket]))
        (packetBytes [damagedPacket] ++ []) ∧
      ([] : Bytes).length < frameSize ∧
      exists report e,
        (collect (Feed.ofBytes (packetBytes [damagedPacket]))).value =
        .ok report ∧
        e ∈ report.pats ∧ e.bytes = damagedSection ∧ e.isIntact = false := by
  have hsent : Crc.isIntact mixedSection = true := by decide +kernel
  have hlength : damagedSection.length = mixedSection.length := rfl
  have hne : damagedSection ≠ mixedSection := by decide
  have hr := Feed.delivers_packetBytes [damagedPacket]
  have htail : ([] : Bytes).length < frameSize := by decide
  have hentries :
      damagedSection ∈ (patEntries [damagedPacket]).map TableEntry.bytes := by
    decide +kernel
  rcases report_marks_burst hsent hlength hne (fun _ => damaged_in_window) with
    ⟨hdamaged, hreport⟩
  rcases hreport hr htail with ⟨report, hcollect, hpats, _⟩
  rcases List.mem_map.mp hentries with ⟨e, he, hbytes⟩
  rcases hpats e he hbytes with ⟨hlisted, hmarked⟩
  exact ⟨hsent, hlength, hne,
    by
      decide +kernel, hdamaged, hr, htail, report, e, hcollect, hlisted,
      hbytes, hmarked⟩

end TransportStream
