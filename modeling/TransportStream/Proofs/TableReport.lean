import TransportStream.Proofs.Packet.Payload
import TransportStream.Proofs.Pass
import TransportStream.Proofs.TableReport.Followed

/-!
# What a report lists

Behind any packets a report lists the first copies of the tables that they
complete, and has a decoder for each program map that they announce.  One packet
either belongs to the association table, or to a program map that is followed,
or adds nothing.
-/

namespace TransportStream
namespace TableReport

open Pat TableEntry

/-- A decoder for each map announced that has read the packets behind its
announcement.  One that is announced on the identifier of the association table
is never used. -/
def HasDecoders (packets : List Packet) (decoders : PidMap (TableDecoder Pmt)) :
    Prop :=
  forall pid, pid ≠ patPid ->
    decoders.get? pid =
      if pid ∈ announcedPids packets then
        some (TableDecoder.fresh.after (followed pid packets))
      else none

structure Survey.Knows (s : Survey) (packets : List Packet) : Prop where
  count : s.report.packets = packets.length
  pats : s.report.pats = (patEntries packets).eraseDupsBy isCopyOf
  pmts : s.report.pmts = (mapEntries packets).eraseDupsBy isCopyOf
  patDecoder : s.patDecoder = TableDecoder.fresh.after (patPackets packets)
  decoders : HasDecoders packets s.pmtDecoders

namespace Survey

variable {s : Survey} {packets : List Packet} {p : Packet}

theorem knows_fresh : fresh.Knows [] :=
  ⟨rfl, rfl, rfl, rfl, fun _ _ => rfl⟩

/-!
## A packet of the association table
-/

theorem get?_follow (decoders : PidMap (TableDecoder Pmt)) (a : Association)
    (pid : Nat) :
    (follow decoders a).value.get? pid =
      if pid = a.pid then (decoders.get? pid).or (some .fresh)
      else decoders.get? pid := by
  rw [follow]
  by_cases hknown : decoders.contains a.pid = true
  · rw [if_pos hknown, Logged.value_pure]
    by_cases hpid : pid = a.pid
    · subst hpid
      rcases Option.isSome_iff_exists.mp hknown with ⟨decoder, hdecoder⟩
      rw [if_pos rfl, hdecoder, Option.some_or]
    · rw [if_neg hpid]
  · rw [if_neg hknown, Logged.value_bind, Logged.value_pure, PidMap.get?_put]
    by_cases hpid : pid = a.pid
    · subst hpid
      have hnone : decoders.get? a.pid = none := by
        simpa [PidMap.contains] using hknown
      rw [if_pos rfl, if_pos rfl, hnone, Option.none_or]
    · rw [if_neg hpid, if_neg hpid]

theorem get?_foldl_follow (decoders : PidMap (TableDecoder Pmt))
    (programs : List Association) (pid : Nat) :
    (programs.foldl (fun decoders a => (follow decoders a).value) decoders).get?
      pid =
      if pid ∈ programs.map Association.pid then
        (decoders.get? pid).or (some .fresh)
      else decoders.get? pid := by
  induction programs generalizing decoders with
  | nil => rfl
  | cons a programs ih =>
      rw [List.foldl_cons, ih, get?_follow, List.map_cons]
      by_cases hpid : pid = a.pid
      · subst hpid
        rw [if_pos rfl, if_pos List.mem_cons_self, Option.or_assoc]
        split
        · rfl
        · rfl
      · rw [if_neg hpid]
        simp only [List.mem_cons, hpid, false_or]

theorem value_foldl_addPat (k : TableReport × PidMap (TableDecoder Pmt))
    (entries : List (TableEntry Pat))
    (h : forall e, e ∈ entries ->
      TableDecoder.entryOf patPid (e.table, e.bytes) = e) :
    entries.foldl (fun k e => (addPat k e.table e.bytes).value) k =
      (⟨k.1.packets, entries.foldl addDistinct k.1.pats, k.1.pmts⟩,
        ((entries.map TableEntry.table).flatMap Pat.programs).foldl
          (fun decoders a => (follow decoders a).value) k.2) := by
  induction entries generalizing k with
  | nil => rfl
  | cons e entries ih =>
      have he :
          (⟨patPid, e.bytes, Crc.isIntact e.bytes, e.table⟩ : TableEntry Pat) =
          e :=
        h e List.mem_cons_self
      rw [List.foldl_cons,
        ih _ (fun e' he' => h e' (List.mem_cons_of_mem e he')), List.map_cons,
        List.flatMap_cons, List.foldl_append]
      simp only [addPat, Logged.value_bind, Logged.value_pure,
        Logged.value_foldlM, he, List.foldl_cons]

theorem hasDecoders_of_pat {decoders : PidMap (TableDecoder Pmt)}
    (h : HasDecoders packets decoders) (hp : p.pid = patPid) :
    HasDecoders (packets ++ [p])
      ((((TableDecoder.fresh.after (patPackets packets)).tables [p]).flatMap
        Pat.programs).foldl (fun decoders a => (follow decoders a).value)
        decoders) := by
  intro pid hpid
  have hfollowed : followed pid (packets ++ [p]) = followed pid packets :=
    followed_append_of_other (fun heq => absurd (heq.symm.trans hp) hpid)
  rw [get?_foldl_follow, h pid hpid, hfollowed, announcedPids_of_pat packets hp]
  by_cases hknown : pid ∈ announcedPids packets
  · rw [if_pos hknown, if_pos (List.mem_append_left _ hknown), Option.some_or,
      ite_self]
  · rw [if_neg hknown, Option.none_or, followed_of_not_announced hknown]
    simp only [List.mem_append, hknown, false_or]
    rfl

theorem knows_advance_of_pat (h : s.Knows packets) (hp : p.pid = patPid) :
    (advance s.count p).value.Knows (packets ++ [p]) := by
  have hentries := value_foldl_addPat (s.count.report, s.count.pmtDecoders)
    ((TableDecoder.fresh.after (patPackets packets)).entries patPid [p])
    (fun _ he => TableDecoder.entryOf_of_mem_entries he)
  rw [TableDecoder.map_table_entries] at hentries
  have hadvance : (advance s.count p).value =
      ⟨⟨s.report.packets + 1,
          ((TableDecoder.fresh.after (patPackets packets)).entries patPid
            [p]).foldl addDistinct s.report.pats, s.report.pmts⟩,
        (TableDecoder.fresh.after (patPackets packets)).after [p],
        (((TableDecoder.fresh.after (patPackets packets)).tables [p]).flatMap
          Pat.programs).foldl (fun decoders a => (follow decoders a).value)
          s.pmtDecoders⟩ := by
    unfold advance
    rw [if_pos hp]
    simp only [Logged.value_bind, Logged.value_pure,
      TableDecoder.submit_of_entries patPid, count, h.patDecoder]
    simp only [count] at hentries
    rw [hentries]
  rw [hadvance]
  refine ⟨?_, ?_, ?_, ?_, hasDecoders_of_pat h.decoders hp⟩
  · rw [List.length_append, h.count]
    rfl
  · rw [patEntries_append, patPackets_cons_of_pat hp, eraseDupsBy_append,
      h.pats]
    rfl
  · have hnone : mapsCompleted packets p = [] := by
      rw [mapsCompleted, if_neg (fun hmap => hmap.left hp)]
    rw [mapEntries_append, hnone, List.append_nil]
    exact h.pmts
  · rw [patPackets_append_of_pat packets hp, TableDecoder.after_append]

/-!
## A packet of another identifier
-/

theorem foldl_addPmt (pid : Nat) (report : TableReport)
    (entries : List (TableEntry Pmt))
    (h : forall e, e ∈ entries ->
      TableDecoder.entryOf pid (e.table, e.bytes) = e) :
    entries.foldl (fun report e => addPmt pid report e.table e.bytes) report =
      ⟨report.packets, report.pats, entries.foldl addDistinct report.pmts⟩ := by
  induction entries generalizing report with
  | nil => rfl
  | cons e entries ih =>
      have he :
          (⟨pid, e.bytes, Crc.isIntact e.bytes, e.table⟩ : TableEntry Pmt) =
          e :=
        h e List.mem_cons_self
      rw [List.foldl_cons,
        ih _ (fun e' he' => h e' (List.mem_cons_of_mem e he')), addPmt, he]
      rfl

theorem knows_advance_of_map (h : s.Knows packets) (hp : p.pid ≠ patPid)
    (hannounced : p.pid ∈ announcedPids packets) :
    (advance s.count p).value.Knows (packets ++ [p]) := by
  have hdecoder := h.decoders p.pid hp
  rw [if_pos hannounced] at hdecoder
  have hadvance : (advance s.count p).value =
      ⟨⟨s.report.packets + 1, s.report.pats,
          (mapsCompleted packets p).foldl addDistinct s.report.pmts⟩,
            s.patDecoder,
        s.pmtDecoders.put p.pid
          ((TableDecoder.fresh.after (followed p.pid packets)).after [p])⟩ := by
    unfold advance
    rw [if_neg hp, count, hdecoder]
    simp only [Logged.value_bind, Logged.value_pure,
      TableDecoder.submit_of_entries p.pid]
    rw [foldl_addPmt p.pid _ _ (fun _ he =>
      TableDecoder.entryOf_of_mem_entries he),
      mapsCompleted_of_followed hp hannounced]
  rw [hadvance]
  refine ⟨?_, ?_, ?_, ?_, ?_⟩
  · rw [List.length_append, h.count]
    rfl
  · rw [patEntries_append_of_other packets hp]
    exact h.pats
  · rw [mapEntries_append, eraseDupsBy_append, h.pmts]
  · rw [patPackets_append_of_other packets hp]
    exact h.patDecoder
  · intro pid hpid
    rw [PidMap.get?_put, announcedPids_of_other packets hp,
      ← TableDecoder.after_append, ← followed_append_of_followed hannounced]
    by_cases hsame : pid = p.pid
    · subst hsame
      rw [if_pos rfl, if_pos hannounced]
    · rw [if_neg hsame,
        followed_append_of_other (fun heq => absurd heq.symm hsame)]
      exact h.decoders pid hpid

theorem knows_advance_of_unknown (h : s.Knows packets) (hp : p.pid ≠ patPid)
    (hunknown : p.pid ∉ announcedPids packets) :
    (advance s.count p).value.Knows (packets ++ [p]) := by
  have hdecoder := h.decoders p.pid hp
  rw [if_neg hunknown] at hdecoder
  have hadvance : (advance s.count p).value = s.count := by
    unfold advance
    rw [if_neg hp, count, hdecoder]
    rfl
  have hnone : mapsCompleted packets p = [] := by
    rw [mapsCompleted, if_neg (fun hmap => hunknown hmap.right)]
  rw [hadvance]
  refine ⟨?_, ?_, ?_, ?_, ?_⟩
  · rw [List.length_append, count, h.count]
    rfl
  · rw [patEntries_append_of_other packets hp]
    exact h.pats
  · rw [mapEntries_append, hnone, List.append_nil]
    exact h.pmts
  · rw [patPackets_append_of_other packets hp]
    exact h.patDecoder
  · intro pid hpid
    have hsame : p.pid = pid -> pid ∉ announcedPids packets := by
      rintro rfl
      exact hunknown
    rw [announcedPids_of_other packets hp, followed_append_of_other hsame]
    exact h.decoders pid hpid

theorem knows_advance (h : s.Knows packets) (p : Packet) :
    (advance s.count p).value.Knows (packets ++ [p]) := by
  by_cases hp : p.pid = patPid
  · exact knows_advance_of_pat h hp
  · by_cases hannounced : p.pid ∈ announcedPids packets
    · exact knows_advance_of_map h hp hannounced
    · exact knows_advance_of_unknown h hp hannounced

/-!
## All packets
-/

theorem knows_foldl_advance (h : s.Knows packets) (later : List Packet) :
    (later.foldl (fun s p => (advance s.count p).value) s).Knows
      (packets ++ later) := by
  induction later generalizing s packets with
  | nil =>
      rw [List.append_nil]
      exact h
  | cons p later ih =>
      rw [List.foldl_cons, List.append_cons]
      exact ih (knows_advance h p)

theorem value_step (s : Survey) (p : Packet) :
    (step s p).value = .more (advance s.count p).value := rfl

end Survey

variable {ρ : Type} [FiniteSource ρ]

def listing (packets : List Packet) : TableReport :=
  ⟨packets.length, (patEntries packets).eraseDupsBy isCopyOf,
    (mapEntries packets).eraseDupsBy isCopyOf⟩

theorem collect_of_delivers {r : ρ} {packets : List Packet} {tail : Bytes}
    (hr : Delivers r (packetBytes packets ++ tail))
    (htail : tail.length < frameSize) :
    (collect r).value = .ok (listing packets) := by
  rcases Pass.value_run_of_delivers (fun _ => True)
      (fun (s : Survey) p => (Survey.advance s.count p).value)
      (fun s p _ => ⟨Survey.value_step s p, trivial⟩) htail hr .fresh
        trivial #[] with
    ⟨r', hrun⟩
  have hknows := Survey.knows_foldl_advance Survey.knows_fresh packets
  rw [List.nil_append] at hknows
  have hreport :
      (packets.foldl (fun (s : Survey) p => (Survey.advance s.count p).value)
      .fresh).report = listing packets := by
    rw [listing, ← hknows.count, ← hknows.pats, ← hknows.pmts]
  rw [collect, Logged.value_bind, Pass.start, hrun, ← hreport]
  rfl

theorem listing_prefix (front later : List Packet) :
    (listing front).pats <+: (listing (front ++ later)).pats ∧
      (listing front).pmts <+: (listing (front ++ later)).pmts := by
  constructor
  · rw [listing, listing, patEntries_append]
    exact eraseDupsBy_prefix (patEntries front) _
  · rw [listing, listing, mapEntries, mapEntries, mapEntriesBehind_append]
    exact eraseDupsBy_prefix (mapEntriesBehind [] front) _

/-!
## Every section once
-/

/-- Of the entries with one section the first is listed, and every entry was
decoded from its section and is judged by the section's checksum. -/
structure Lists {τ : Type} [Table τ] (listed entries : List (TableEntry τ)) :
    Prop where
  firstCopies : listed = entries.eraseDupsBy isCopyOf
  distinct : (listed.map key).Nodup
  complete : forall e, e ∈ listed ↔ e ∈ entries
  decoded : forall e, e ∈ listed ->
    Table.decode e.bytes = .ok e.table ∧ e.isIntact = Crc.isIntact e.bytes

theorem lists_eraseDupsBy {τ : Type} [Table τ] {entries : List (TableEntry τ)}
    (hread : forall e, e ∈ entries ->
      Table.decode e.bytes = .ok e.table ∧ e.isIntact = Crc.isIntact e.bytes) :
    Lists (entries.eraseDupsBy isCopyOf) entries := by
  have hsame : forall e e', e ∈ entries -> e' ∈ entries -> e'.key = e.key ->
      e' = e := by
    intro e e' he he' hkey
    rcases key_eq_iff.mp hkey with ⟨hpid, hbytes⟩
    rcases hread e he with ⟨hdecode, hintact⟩
    rcases hread e' he' with ⟨hdecode', hintact'⟩
    rw [hbytes] at hdecode' hintact'
    have htable := Except.ok.inj (hdecode'.symm.trans hdecode)
    cases e
    cases e'
    cases hpid
    cases hbytes
    cases htable
    cases hintact'.trans hintact.symm
    rfl
  refine ⟨rfl, nodup_eraseDupsBy entries, ?_, ?_⟩
  · intro e
    constructor
    · exact mem_of_mem_eraseDupsBy
    · intro he
      rcases exists_copy_of_mem he with ⟨listed, hlisted, hkey⟩
      rw [← hsame e listed he (mem_of_mem_eraseDupsBy hlisted) hkey]
      exact hlisted
  · intro e he
    exact hread e (mem_of_mem_eraseDupsBy he)

end TableReport

open TransportStream.TableReport

variable {ρ : Type} [FiniteSource ρ]

/-- A report counts the packets and lists the first copy of every association
table and of every program map, those of a map as its own decoder reads them
behind its announcement.  What packets at the front complete is listed at the
front. -/
theorem collect_lists_first_copies {r : ρ} {packets : List Packet}
    {tail : Bytes} (hr : Delivers r (packetBytes packets ++ tail))
    (htail : tail.length < frameSize) :
    exists report, (collect r).value = .ok report ∧
      report.packets = packets.length ∧
      Lists report.pats (patEntries packets) ∧
      (forall e, e ∈ report.pats -> e.pid = patPid) ∧
      Lists report.pmts (mapEntries packets) ∧
      (forall e, e ∈ report.pmts -> e.pid ≠ patPid) ∧
      (forall pid, pid ≠ patPid ->
        (mapEntries packets).filter (·.pid = pid) =
          TableDecoder.fresh.entries pid (followed pid packets)) ∧
      forall {ρ' : Type} [FiniteSource ρ'] {r' : ρ'} {front later : List Packet}
        {tail' : Bytes}, packets = front ++ later ->
        Delivers r' (packetBytes front ++ tail') ->
          tail'.length < frameSize ->
            exists before, (collect r').value = .ok before ∧
              before.pats <+: report.pats ∧ before.pmts <+: report.pmts := by
  have hpats : Lists (listing packets).pats (patEntries packets) :=
    lists_eraseDupsBy (fun e he => (of_mem_patEntries he).right)
  have hpmts : Lists (listing packets).pmts (mapEntries packets) :=
    lists_eraseDupsBy (fun e he => (of_mem_mapEntries he).right)
  refine ⟨listing packets, collect_of_delivers hr htail, rfl, hpats, ?_, hpmts,
    ?_, ?_, ?_⟩
  · intro e he
    exact (of_mem_patEntries ((hpats.complete e).mp he)).left
  · intro e he
    exact (of_mem_mapEntries ((hpmts.complete e).mp he)).left
  · intro pid hpid
    exact filter_mapEntries hpid packets
  · intro ρ' _ r' front later tail' hpackets hr' htail'
    refine ⟨listing front, collect_of_delivers hr' htail', ?_⟩
    rw [hpackets]
    exact listing_prefix front later

/-!
## Tables that come again
-/

def repeatedTables : List Packet :=
  announcedLate ++ announcedLate

theorem collect_lists_repeated_tables :
    Delivers (Feed.ofBytes (packetBytes repeatedTables))
      (packetBytes repeatedTables ++ []) ∧
      ([] : Bytes).length < frameSize ∧
      exists report,
        (collect (Feed.ofBytes (packetBytes repeatedTables))).value =
          .ok report ∧
          report.packets = 10 ∧
          (patEntries repeatedTables).length = 2 ∧ report.pats.length = 1 ∧
          (mapEntries repeatedTables).length = 3 ∧ report.pmts.length = 1 ∧
          exists before,
            (collect (Feed.ofBytes (packetBytes announcedLate))).value =
              .ok before ∧
              before.pats <+: report.pats ∧ before.pmts <+: report.pmts := by
  have hr := Feed.delivers_packetBytes repeatedTables
  have hfront := Feed.delivers_packetBytes announcedLate
  have htail : ([] : Bytes).length < frameSize := by decide
  rcases collect_lists_first_copies hr htail with
    ⟨report, hcollect, hcount, hpats, -, hpmts, -, -, hfronts⟩
  refine ⟨hr, htail, report, hcollect, hcount, ?_, ?_, ?_, ?_,
    hfronts rfl hfront htail⟩
  · decide +kernel
  · rw [hpats.firstCopies]
    decide +kernel
  · decide +kernel
  · rw [hpmts.firstCopies]
    decide +kernel

end TransportStream
