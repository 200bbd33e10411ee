import TransportStream.Proofs.Filter.PatPackets
import TransportStream.Proofs.Pat.Carrying

/-!
# What reducing does to a run

A run is reduced exactly if it holds a whole section, and then the section is
the only thing in it that is rewritten, field by field as its layout says.  The
table identifier has no part in this: a section of another table, which is not
decoded, is reduced all the same.
-/

namespace TransportStream
namespace Pat

open TransportStream.Filter

/-!
## The reduced run
-/

theorem exists_decode_iff {l : Layout} :
    (exists t, decode l.bytes = .ok t) ↔ l.tableId = Pat.tableId := by
  rw [Layout.decode_bytes]
  by_cases hpat : l.tableId = Pat.tableId
  · rw [if_pos hpat]
    exact ⟨fun _ => hpat, fun _ => ⟨_, rfl⟩⟩
  · rw [if_neg hpat]
    constructor
    · rintro ⟨t, ht⟩
      cases ht
    · intro heq
      exact absurd heq hpat

theorem decode_of_tableId {pmtPids : PidSet} {l : Layout}
    (h : l.tableId = Pat.tableId) :
    exists t, decode l.bytes = .ok t ∧ decode (l.reduce pmtPids).bytes =
      .ok (restrict pmtPids t) := by
  rcases exists_decode_iff.mpr h with ⟨t, ht⟩
  refine ⟨t, ht, ?_⟩
  rw [Layout.decode_reduce, ht]
  rfl

theorem letGo_of_reduce? {pmtPids : PidSet} {run reduced : List Packet}
    (h : (reduce? pmtPids run).value = some reduced) :
    letGo pmtPids run = reduced := by
  rw [letGo, h]
  rfl

theorem letGo_of_not_reduce? {pmtPids : PidSet} {run : List Packet}
    (h : (reduce? pmtPids run).value = none) : letGo pmtPids run = run := by
  rw [letGo, h]
  rfl

/-- A run is reduced exactly if it holds a whole section, and is let go as it is
otherwise.  A reduced run differs from it in the section and what is behind: the
entries of the network and of chosen program maps stay, in order, with a length
and a checksum to match, and stuffing follows.  What is decoded from an
association section is restricted accordingly. -/
theorem reduction_keeps_chosen_entries (pmtPids : PidSet) (run : List Packet) :
    ((reduce? pmtPids run).value.isSome = true ↔ HoldsSection run) ∧
      ((reduce? pmtPids run).value = none -> letGo pmtPids run = run) ∧
      forall reduced, (reduce? pmtPids run).value = some reduced ->
        letGo pmtPids run = reduced ∧
          List.Forall₂ Packet.SameOutsidePayload run reduced ∧
          (joined reduced).length = (joined run).length ∧
          (joined reduced).take (target (joined run)) =
            (joined run).take (target (joined run)) ∧
          exists (l l' : Layout) (behind : Bytes) (room : Nat),
            (joined run).drop (target (joined run)) = l.bytes ++ behind ∧
              (joined reduced).drop (target (joined run)) =
                l'.bytes ++ List.replicate room stuffingByte ∧
              l.IsReduction pmtPids l' ∧ Crc.isIntact l'.bytes = true ∧
              (l.tableId = Pat.tableId -> exists t,
                decode l.bytes = .ok t ∧
                  decode l'.bytes = .ok (restrict pmtPids t)) := by
  refine ⟨isSome_reduce?_iff pmtPids run, letGo_of_not_reduce?, ?_⟩
  intro reduced h
  rcases exists_carries_of_reduce? h with ⟨ahead, l, behind, hcarries, hreduced⟩
  have hjoined : joined reduced = reducedBytes pmtPids ahead l behind := by
    rw [hreduced]
    exact joined_layOver (length_reducedBytes hcarries pmtPids)
  refine ⟨letGo_of_reduce? h, ?_, ?_, ?_, l, l.reduce pmtPids, behind,
    l.bytes.length + behind.length - (l.reduce pmtPids).bytes.length, ?_, ?_,
    l.isReduction_reduce pmtPids, l.isIntact_reduce pmtPids, decode_of_tableId⟩
  · rw [hreduced]
    exact forall₂_layOver run _
  · rw [hjoined]
    exact length_reducedBytes hcarries pmtPids
  · rw [target_of_carries hcarries, hjoined, hcarries.joined_eq, reducedBytes,
      List.take_left, List.take_left]
  · rw [target_of_carries hcarries, hcarries.joined_eq, List.drop_left]
  · rw [target_of_carries hcarries, hjoined, reducedBytes, List.drop_left]

theorem two_packets_keep_chosen_entries :
    exists (reduced : List Packet) (l l' : Layout) (room : Nat),
      (reduce? (.ofList [0x01F0]) [mixedStart, mixedRest]).value =
        some reduced ∧
        letGo (.ofList [0x01F0]) [mixedStart, mixedRest] = reduced ∧
        List.Forall₂ Packet.SameOutsidePayload [mixedStart, mixedRest] reduced ∧
        (joined reduced).drop 177 =
          l'.bytes ++ List.replicate room stuffingByte ∧
        l.IsReduction (.ofList [0x01F0]) l' ∧ Crc.isIntact l'.bytes = true := by
  have hsome :
      (reduce? (.ofList [0x01F0]) [mixedStart, mixedRest]).value.isSome =
      true := by
    decide +kernel
  have htarget : target (joined [mixedStart, mixedRest]) = 177 := by
    decide +kernel
  rcases Option.isSome_iff_exists.mp hsome with ⟨reduced, h⟩
  rcases (reduction_keeps_chosen_entries (.ofList [0x01F0])
    [mixedStart, mixedRest]).right.right reduced h with
    ⟨hlet, hsame, _, _, l, l', _, room, _, hdrop, hreduction, hintact, _⟩
  rw [htarget] at hdrop
  exact ⟨reduced, l, l', room, h, hlet, hsame, hdrop, hreduction, hintact⟩

/-!
## Sections of other tables
-/

/-- Only sections that are decoded as a table of associations are reduced: where
reducing succeeds, the section is decoded, and where it is not decoded or
stuffing stands in its place, the run stays as it is. -/
def ReducesOnlyTables (pmtPids : PidSet) (run : List Packet) : Prop :=
  ((reduce? pmtPids run).value.isSome = true ->
      exists t, decode (sectionAt (joined run)) = .ok t) ∧
    ((forall t, decode (sectionAt (joined run)) ≠ .ok t) ∨
      ((joined run).drop (target (joined run))).head? = some stuffingByte ->
        letGo pmtPids run = run)

theorem exists_decode_sectionAt_iff {run : List Packet} (h : HoldsSection run) :
    (exists t, decode (sectionAt (joined run)) = .ok t) ↔
      ((joined run).drop (target (joined run))).head? = some Pat.tableId := by
  rcases holdsSection_iff.mp h with ⟨ahead, l, behind, hcarries⟩
  have hhead : (l.bytes ++ behind).head? = some l.tableId := rfl
  rw [sectionAt_of_carries hcarries, target_of_carries hcarries,
    hcarries.joined_eq, List.drop_left, hhead, exists_decode_iff,
    Option.some.injEq]

/-- Reducing looks at everything that decoding looks at but the table
identifier. -/
theorem reducesOnlyTables_iff (pmtPids : PidSet) (run : List Packet) :
    ReducesOnlyTables pmtPids run ↔
      (HoldsSection run -> ((joined run).drop (target (joined run))).head? =
        some Pat.tableId) := by
  have hsome := isSome_reduce?_iff pmtPids run
  constructor
  · rintro ⟨hdecoded, _⟩ hholds
    exact (exists_decode_sectionAt_iff hholds).mp (hdecoded (hsome.mpr hholds))
  · intro htable
    refine ⟨fun h => (exists_decode_sectionAt_iff (hsome.mp h)).mpr
      (htable (hsome.mp h)), ?_⟩
    intro hother
    apply letGo_of_not_reduce?
    rw [← Option.not_isSome_iff_eq_none, hsome]
    intro hholds
    rcases hother with hrejected | hstuffing
    · rcases (exists_decode_sectionAt_iff hholds).mpr (htable hholds) with
        ⟨t, ht⟩
      exact hrejected t ht
    · rw [htable hholds] at hstuffing
      cases hstuffing

def misplacedMap : Packet :=
  .padded 0x40 0x00 0x10
    [0x00,
      0x02, 0xB0, 0x12, 0x04, 0x01, 0xC1, 0x00, 0x00, 0xE2, 0x10, 0xF0, 0x00,
      0x0F, 0xE2, 0x10,
      0xF0, 0x00, 0x6F, 0x60, 0xD8, 0xA2]

theorem misplaced_map_is_reduced :
    (reduce? ∅ [misplacedMap]).value.isSome = true ∧
      decode (sectionAt (joined [misplacedMap])) = .error (.malformed .notPat) ∧
      letGo ∅ [misplacedMap] ≠ [misplacedMap] ∧
        ¬ ReducesOnlyTables ∅ [misplacedMap] := by
  have hsome : (reduce? ∅ [misplacedMap]).value.isSome = true := by
    decide +kernel
  have hdecode : decode (sectionAt (joined [misplacedMap])) =
      .error (.malformed .notPat) := by
    decide +kernel
  refine ⟨hsome, hdecode, by decide +kernel, ?_⟩
  rintro ⟨hdecoded, _⟩
  rcases hdecoded hsome with ⟨t, ht⟩
  rw [hdecode] at ht
  cases ht

end Pat
end TransportStream
