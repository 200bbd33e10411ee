import Mathlib.Data.List.Perm.Basic
import TransportStream.Proofs.Filter.UnitSections
import TransportStream.Proofs.Pat.Announced

/-!
# What a filtered stream announces

A fresh decoder that reads the association packets written by the filter finds
reduced tables where the filter recognised a run, and what was there before
elsewhere.  A dropped program is still announced exactly where a section passes
through as it was, and a kept program is announced no more exactly where
stuffing overwrites a section.
-/

namespace TransportStream

namespace Pat

theorem associationsIn_reduceSection {old : Bytes} (h : IsSection old)
    (pmtPids : PidSet) :
    associationsIn (reduceSection pmtPids old) =
      (associationsIn old).filter (Association.isKept pmtPids) := by
  rw [associationsIn, decode_reduceSection h, associationsIn]
  cases decode old with
  | ok t => rfl
  | error e => rfl

end Pat

open TransportStream.Filter Pat

/-!
## Within a unit
-/

namespace PayloadUnit

variable {pmtPids : PidSet}

theorem isSection_of_settled {u : PayloadUnit} {run : List Packet}
    (h : u.run? = some run) :
    forall bytes, bytes ∈ u.heard.sections.take 1 -> IsSection bytes := by
  rcases settledRun?_eq_some_iff.mp h with ⟨later, rest, hpackets, rfl, hisRun⟩
  rcases hisRun.complete with ⟨start, stop, hspan⟩
  rcases spanOf_eq_complete hspan with
    ⟨pointer, tail, old, behind, hpayload, hpos, hpointer, hold, _, hdrop⟩
  have hunit : u = ⟨u.start, later ++ rest⟩ := by rw [← hpackets]
  have hsections :=
    sections_heard_of_consecutive hpayload (Nat.le_of_lt hpointer)
      hisRun.consecutive rest
  rw [← hunit, ← hpos, hdrop, List.append_assoc] at hsections
  intro bytes hbytes
  rw [hsections] at hbytes
  by_cases hstuff : old.head? = some stuffingByte
  · rw [wholeSections_of_head (by rw [List.head?_append, hstuff]; rfl)]
      at hbytes
    cases hbytes
  · rw [wholeSections_append_of_isSection hold hstuff] at hbytes
    rw [List.mem_singleton.mp hbytes]
    exact hold

theorem isKept_of_reduced {u : PayloadUnit} {a : Association}
    (h : a ∈ (u.reduced pmtPids).flatMap associationsIn) :
    a.isKept pmtPids = true := by
  unfold reduced at h
  cases hrun : u.run? with
  | none =>
      rw [hrun] at h
      cases h
  | some run =>
      rw [hrun] at h
      rcases List.mem_flatMap.mp h with ⟨bytes, hbytes, ha⟩
      rcases List.mem_map.mp hbytes with ⟨old, hold, rfl⟩
      rw [associationsIn_reduceSection (isSection_of_settled hrun old hold)]
        at ha
      exact (List.mem_filter.mp ha).right

/-- A section of a unit passes through the filter: no run is settled in the
unit, or its reduced section fills the run, and this section comes behind
that. -/
inductive PassesThrough (pmtPids : PidSet) (u : PayloadUnit) (bytes : Bytes) :
    Prop where
  | hindered {cause : Hindrance} (h : HinderedBy u.start u.later cause)
      (hbytes : bytes ∈ u.heard.sections) : PassesThrough pmtPids u bytes
  | behind {run rest : List Packet} (hlater : u.later = run ++ rest)
      (hrun : IsRun u.start run) (hroom : leavesRoom pmtPids (u.start :: run) =
        false)
      (hbytes : bytes ∈ u.heard.sections.tail) : PassesThrough pmtPids u bytes

theorem mem_untouched_iff {u : PayloadUnit} {bytes : Bytes} :
    bytes ∈ u.untouched pmtPids ↔ u.PassesThrough pmtPids bytes := by
  unfold untouched
  cases hrun : u.run? with
  | none =>
      rcases settledRun?_eq_none_iff.mp hrun with ⟨cause, hcause⟩
      constructor
      · exact .hindered hcause
      · rintro (⟨-, hbytes⟩ | ⟨-, -, -, hbytes⟩)
        · exact hbytes
        · exact List.mem_of_mem_tail hbytes
  | some run =>
      rcases settledRun?_eq_some_iff.mp hrun with
        ⟨later, rest, hlater, rfl, hisRun⟩
      constructor
      · intro hbytes
        dsimp only at hbytes
        cases hroom : leavesRoom pmtPids (u.start :: later) with
        | false =>
            rw [hroom] at hbytes
            exact .behind hlater hisRun hroom hbytes
        | true =>
            rw [hroom] at hbytes
            cases hbytes
      · rintro (⟨hcause, -⟩ | ⟨hlater', hisRun', hroom, hbytes⟩)
        · rw [hlater] at hcause
          exact absurd hcause hisRun.not_hinderedBy
        · have hsame : u.run? = some (u.start :: _) :=
            settledRun?_eq_some_iff.mpr ⟨_, _, hlater', rfl, hisRun'⟩
          cases hrun.symm.trans hsame
          dsimp only
          rw [hroom]
          exact hbytes

theorem kept_of_unit (u : PayloadUnit) (pmtPids : PidSet) :
    (u.heard.sections.flatMap associationsIn).filter
      (Association.isKept pmtPids) =
      ((u.reduced pmtPids ++ u.untouched pmtPids).flatMap associationsIn).filter
          (Association.isKept pmtPids) ++
        ((u.erased pmtPids).flatMap associationsIn).filter
          (Association.isKept pmtPids) := by
  unfold reduced untouched erased
  cases hrun : u.run? with
  | none => simp
  | some run =>
      have hold := isSection_of_settled hrun
      cases hsections : u.heard.sections with
      | nil => simp
      | cons old later =>
          rw [hsections] at hold
          have hreduced := associationsIn_reduceSection
            (hold old List.mem_cons_self) pmtPids
          by_cases hroom : leavesRoom pmtPids run = true
          · simp [hroom, hreduced, List.filter_append]
          · simp [hroom, hreduced, List.filter_append]

end PayloadUnit

/-!
## Over all units
-/

theorem announced_of_units (packets : List Packet) :
    announced packets = (units Packet.opensUnit packets).flatMap
      (fun u => u.heard.sections.flatMap associationsIn) := by
  rw [announced_eq_flatMap, sections_feed_units, List.flatMap_assoc]

theorem announced_patOutput (pmtPids : PidSet) (packets : List Packet) :
    announced (patOutput pmtPids [] packets) =
      (units Packet.opensUnit packets).flatMap
      (fun u =>
      (u.reduced pmtPids ++ u.untouched pmtPids).flatMap associationsIn) := by
  rw [announced_eq_flatMap, sections_feed_patOutput, List.flatMap_assoc]

theorem announced_iff_of_not_kept (packets : List Packet) {pmtPids : PidSet}
    {a : Association} (ha : a.isKept pmtPids = false) :
    a ∈ announced (patOutput pmtPids [] packets) ↔
      exists u bytes, u ∈ units Packet.opensUnit packets ∧
        u.PassesThrough pmtPids bytes ∧ a ∈ associationsIn bytes := by
  rw [announced_patOutput]
  constructor
  · intro h
    rcases List.mem_flatMap.mp h with ⟨u, hu, hmem⟩
    rw [List.flatMap_append] at hmem
    rcases List.mem_append.mp hmem with hreduced | huntouched
    · rw [PayloadUnit.isKept_of_reduced hreduced] at ha
      cases ha
    · rcases List.mem_flatMap.mp huntouched with ⟨bytes, hbytes, hin⟩
      exact ⟨u, bytes, hu, PayloadUnit.mem_untouched_iff.mp hbytes, hin⟩
  · rintro ⟨u, bytes, hu, hpasses, hin⟩
    apply List.mem_flatMap_of_mem hu
    have huntouched := PayloadUnit.mem_untouched_iff.mpr hpasses
    exact List.mem_flatMap_of_mem (List.mem_append_right _ huntouched) hin

theorem flatMap_sublist_iff {α β : Type} {p : β -> Bool}
    {f g more : α -> List β}
    (h : forall u, f u = (g u).filter p ++ (more u).filter p) (l : List α) :
    (l.flatMap f).Sublist (l.flatMap g) ↔
      forall u, u ∈ l -> forall a, a ∈ more u -> p a = false := by
  have hsplit :
      l.flatMap f = l.flatMap (fun u => (g u).filter p ++ (more u).filter p) :=
    List.flatMap_congr (fun u _ => h u)
  constructor
  · intro hsub
    have hselected : (l.flatMap f).filter p = l.flatMap f := by
      rw [List.filter_eq_self, hsplit]
      intro a ha
      rcases List.mem_flatMap.mp ha with ⟨u, _, hmem⟩
      rcases List.mem_append.mp hmem with hin | hin
      · exact (List.mem_filter.mp hin).right
      · exact (List.mem_filter.mp hin).right
    -- Selecting from both sides leaves `more` as the difference of their
    -- lengths.
    have hle := (hsub.filter p).length_le
    have hperm := (List.flatMap_append_perm l (fun u => (g u).filter p)
      (fun u => (more u).filter p)).length_eq
    rw [hselected, List.filter_flatMap, hsplit, ← hperm, List.length_append]
      at hle
    have hnone : l.flatMap (fun u => (more u).filter p) = [] := by
      apply List.eq_nil_of_length_eq_zero
      lia
    intro u hu a ha
    have hempty := List.flatMap_eq_nil_iff.mp hnone u hu
    rw [List.filter_eq_nil_iff] at hempty
    simpa using hempty a ha
  · intro hnone
    have hkept : l.flatMap f = (l.flatMap g).filter p := by
      rw [List.filter_flatMap]
      apply List.flatMap_congr
      intro u hu
      have hempty : (more u).filter p = [] := by
        rw [List.filter_eq_nil_iff]
        intro a ha
        simp [hnone u hu a ha]
      rw [h, hempty, List.append_nil]
    rw [hkept]
    exact List.filter_sublist

theorem kept_sublist_iff (pmtPids : PidSet) (packets : List Packet) :
    ((announced packets).filter (Association.isKept pmtPids)).Sublist
        (announced (patOutput pmtPids [] packets)) ↔
      forall u, u ∈ units Packet.opensUnit packets ->
        forall bytes, bytes ∈ u.erased pmtPids ->
          forall a, a ∈ associationsIn bytes -> a.isKept pmtPids = false := by
  rw [announced_of_units, announced_patOutput, List.filter_flatMap,
    flatMap_sublist_iff (fun u => u.kept_of_unit pmtPids)]
  constructor
  · intro h u hu bytes hbytes a ha
    exact h u hu a (List.mem_flatMap_of_mem hbytes ha)
  · intro h u hu a ha
    rcases List.mem_flatMap.mp ha with ⟨bytes, hbytes, hin⟩
    exact h u hu bytes hbytes a hin

/-!
## Over a whole stream
-/

variable {ρ κ : Type} [FiniteSource ρ] [Sink κ]

/-- The filter succeeds, and a fresh decoder reads an association that is not
kept from what is written exactly if a section that passes through announces
it. -/
theorem filter_announces_dropped_iff {r : ρ} {k : κ} {packets : List Packet}
    {tail : Bytes} (hr : Delivers r (packetBytes packets ++ tail))
    (htail : tail.length < frameSize) (hk : Sink.AcceptsAll k) (d : Discovery) :
    exists (stats : Stats) (k' : κ) (out : List Packet),
      (filter d r k).value = (.ok stats, k') ∧
        Sink.contents k' = Sink.contents k ++ packetBytes out ∧
        forall a, a.isKept d.pmtPids = false ->
          (a ∈ announced (patPackets out) ↔
            exists u bytes, u ∈ units Packet.opensUnit (patPackets packets) ∧
              u.PassesThrough d.pmtPids bytes ∧ a ∈ associationsIn bytes) := by
  rcases filter_of_delivers hr htail hk d with ⟨k', hfilter, hcontents⟩
  refine ⟨_, k', output d packets, hfilter, hcontents, ?_⟩
  intro a ha
  rw [patPackets_output]
  exact announced_iff_of_not_kept (patPackets packets) ha

def mixedMiddle : Packet :=
  .padded 0x00 0x00 0x31
    (179 :: List.replicate 179 stuffingByte ++ (mixedSection.drop 7).take 4)

def mixedLast : Packet :=
  .padded 0x00 0x00 0x12 (mixedSection.drop 11)

def repeatedRun : List Packet :=
  [mixedStart, mixedMiddle, mixedMiddle, mixedLast]

theorem repeatedRun_passesThrough :
    PayloadUnit.PassesThrough mapDiscovery.pmtPids
      ⟨mixedStart, [mixedMiddle, mixedMiddle, mixedLast]⟩ mixedSection := by
  have hfront : Consecutive mixedStart.counter [mixedMiddle] :=
    ⟨by decide, by decide, by decide, trivial⟩
  have hspan : Pat.spanOf [mixedStart, mixedMiddle] = .unfinished := by
    decide +kernel
  have hhindered :
      HinderedBy mixedStart [mixedMiddle, mixedMiddle, mixedLast] .repeated :=
    .repeated hfront hspan (by decide) (by decide) (by decide) [mixedLast]
  exact .hindered hhindered (by decide +kernel)

theorem repeated_packet_passes_dropped_through :
    Delivers (Feed.ofBytes (packetBytes repeatedRun))
      (packetBytes repeatedRun ++ []) ∧
      ([] : Bytes).length < frameSize ∧ Sink.AcceptsAll Tray.unlimited ∧
      exists (stats : Stats) (k' : Tray) (out : List Packet),
        (filter mapDiscovery (Feed.ofBytes (packetBytes repeatedRun))
          Tray.unlimited).value = (.ok stats, k') ∧
          Sink.contents k' = Sink.contents Tray.unlimited ++ packetBytes out ∧
          (Association.mk 0x0588 oneSegmentPid).isKept mapDiscovery.pmtPids =
            false ∧
          ⟨0x0588, oneSegmentPid⟩ ∈ announced (patPackets out) := by
  have hr := Feed.delivers_packetBytes repeatedRun
  have htail : ([] : Bytes).length < frameSize := by decide
  have hk : Sink.AcceptsAll Tray.unlimited := Tray.acceptsAll rfl rfl
  rcases filter_announces_dropped_iff hr htail hk mapDiscovery with
    ⟨stats, k', out, hfilter, hcontents, hiff⟩
  have hdropped :
      (Association.mk 0x0588 oneSegmentPid).isKept mapDiscovery.pmtPids =
      false := by
    decide +kernel
  have hunit : ⟨mixedStart, [mixedMiddle, mixedMiddle, mixedLast]⟩ ∈
      units Packet.opensUnit (patPackets repeatedRun) := by
    decide +kernel
  refine ⟨hr, htail, hk, stats, k', out, hfilter, hcontents, hdropped, ?_⟩
  exact (hiff _ hdropped).mpr ⟨_, mixedSection, hunit,
    repeatedRun_passesThrough, by decide +kernel⟩

/-- A reader of sections skips the packet that is sent twice and reads the whole
table, of which the filter takes nothing away. -/
theorem repeated_packet_keeps_dropped :
    exists k' : Tray,
      (filter mapDiscovery (Feed.ofBytes (packetBytes repeatedRun))
        Tray.unlimited).value = (.ok ⟨4, 4, 0⟩, k') ∧
        Sink.contents k' = packetBytes repeatedRun ∧
        ⟨0x0588, oneSegmentPid⟩ ∈ announced (patPackets repeatedRun) ∧
        (Association.mk 0x0588 oneSegmentPid).isKept mapDiscovery.pmtPids =
          false := by
  have hk : Sink.AcceptsAll Tray.unlimited := Tray.acceptsAll rfl rfl
  obtain ⟨k', hfilter, hcontents⟩ :=
    filter_of_delivers (Feed.delivers_packetBytes repeatedRun) (by decide) hk
      mapDiscovery
  have houtput : output mapDiscovery repeatedRun = repeatedRun := by
    decide +kernel
  have hreduced :
      (run mapDiscovery .initial repeatedRun).1.patsReduced = 0 := by
    decide +kernel
  rw [houtput, hreduced] at hfilter
  rw [houtput] at hcontents
  exact ⟨k', hfilter, hcontents, by decide +kernel, by decide +kernel⟩

def spanningRun : List Packet :=
  [mixedStart, mixedRest]

/-- The filter succeeds, and a fresh decoder reads from what is written every
kept association that it reads from the input, in the same order, exactly if the
sections that stuffing overwrites announce no kept one. -/
theorem filter_announces_all_kept_iff {r : ρ} {k : κ} {packets : List Packet}
    {tail : Bytes} (hr : Delivers r (packetBytes packets ++ tail))
    (htail : tail.length < frameSize) (hk : Sink.AcceptsAll k) (d : Discovery) :
    exists (stats : Stats) (k' : κ) (out : List Packet),
      (filter d r k).value = (.ok stats, k') ∧
        Sink.contents k' = Sink.contents k ++ packetBytes out ∧
        (((announced (patPackets packets)).filter
          (Association.isKept d.pmtPids)).Sublist (announced (patPackets out)) ↔
          forall u, u ∈ units Packet.opensUnit (patPackets packets) ->
            forall bytes, bytes ∈ u.erased d.pmtPids ->
              forall a, a ∈ associationsIn bytes ->
                a.isKept d.pmtPids = false) := by
  rcases filter_of_delivers hr htail hk d with ⟨k', hfilter, hcontents⟩
  refine ⟨_, k', output d packets, hfilter, hcontents, ?_⟩
  rw [patPackets_output]
  exact kept_sublist_iff d.pmtPids (patPackets packets)

def twoMapsDiscovery : Discovery :=
  ⟨.ofList [0x01F0, 0x01F1], ∅, .ofList [0x01F0, 0x01F1]⟩

def twoSections : Packet :=
  .padded 0x40 0x00 0x10
    [0x00,
      0x00, 0xB0, 0x0D, 0x7F, 0xE0, 0xC1, 0x00, 0x01, 0x04, 0x00, 0xE1, 0xF0,
      0x86, 0x48, 0x77, 0x9B,
      0x00, 0xB0, 0x0D, 0x7F, 0xE0, 0xC1, 0x01, 0x01, 0x04, 0x01, 0xE1, 0xF1,
      0x98, 0x79, 0xCB, 0xD3]

/-- Two association sections in one payload: the second is overwritten, although
its program map is followed. -/
theorem second_section_is_announced_no_more :
    exists (k' : Tray) (out : List Packet),
      (filter twoMapsDiscovery (Feed.ofBytes (packetBytes [twoSections]))
        Tray.unlimited).value = (.ok ⟨1, 1, 1⟩, k') ∧
        Sink.contents k' = packetBytes out ∧
        (announced (patPackets [twoSections])).filter
            (Association.isKept twoMapsDiscovery.pmtPids) =
          [⟨0x0400, 0x01F0⟩, ⟨0x0401, 0x01F1⟩] ∧
        announced (patPackets out) = [⟨0x0400, 0x01F0⟩] := by
  have hk : Sink.AcceptsAll Tray.unlimited := Tray.acceptsAll rfl rfl
  obtain ⟨k', hfilter, hcontents⟩ :=
    filter_of_delivers (Feed.delivers_packetBytes [twoSections]) (by decide) hk
      twoMapsDiscovery
  have hlength : (output twoMapsDiscovery [twoSections]).length = 1 := by
    decide +kernel
  have hreduced :
      (run twoMapsDiscovery .initial [twoSections]).1.patsReduced = 1 := by
    decide +kernel
  have hempty : Sink.contents Tray.unlimited = [] := rfl
  rw [hlength, hreduced] at hfilter
  rw [hempty, List.nil_append] at hcontents
  exact ⟨k', output twoMapsDiscovery [twoSections], hfilter, hcontents,
    by decide +kernel, by decide +kernel⟩

theorem spanning_run_announces_all_kept :
    Delivers (Feed.ofBytes (packetBytes spanningRun))
      (packetBytes spanningRun ++ []) ∧
      ([] : Bytes).length < frameSize ∧ Sink.AcceptsAll Tray.unlimited ∧
      exists (stats : Stats) (k' : Tray) (out : List Packet),
        (filter mapDiscovery (Feed.ofBytes (packetBytes spanningRun))
          Tray.unlimited).value = (.ok stats, k') ∧
          Sink.contents k' = Sink.contents Tray.unlimited ++ packetBytes out ∧
          ((announced (patPackets spanningRun)).filter
            (Association.isKept mapDiscovery.pmtPids)).Sublist
              (announced (patPackets out)) := by
  have hr := Feed.delivers_packetBytes spanningRun
  have htail : ([] : Bytes).length < frameSize := by decide
  have hk : Sink.AcceptsAll Tray.unlimited := Tray.acceptsAll rfl rfl
  rcases filter_announces_all_kept_iff hr htail hk mapDiscovery with
    ⟨stats, k', out, hfilter, hcontents, hiff⟩
  exact ⟨hr, htail, hk, stats, k', out, hfilter, hcontents,
    hiff.mpr (by decide +kernel)⟩

end TransportStream
