import TransportStream.Proofs.Pat.Carrying

/-!
# Reducing a run again

A reduced run holds a section again, which can be reduced further: what is left
in the end are the entries that every set of program maps keeps, whatever the
order.  An intact section that loses no entry is not changed at all.
-/

namespace TransportStream
namespace Pat

/-!
## One reduction after the other
-/

section Twice

variable {run : List Packet} {ahead behind : Bytes} {l : Layout}

theorem reducedBytes_reduce (first second : PidSet) (ahead : Bytes) (l : Layout)
    (behind : Bytes) :
    reducedBytes second ahead (l.reduce first)
        (List.replicate (l.bytes.length + behind.length -
          (l.reduce first).bytes.length) stuffingByte) =
      reducedBytes (first.inter second) ahead l behind := by
  have hfirst := l.length_reduce_le first
  have hroom : (l.reduce first).bytes.length +
      (l.bytes.length + behind.length - (l.reduce first).bytes.length) =
        l.bytes.length + behind.length := by
    lia
  rw [reducedBytes, reducedBytes, Layout.reduce_reduce, List.length_replicate,
    hroom]

theorem reduce?_layOver (h : Carries run ahead l behind)
    (first second : PidSet) :
    (reduce? second (layOver run (reducedBytes first ahead l behind))).value =
      some (layOver run
        (reducedBytes (first.inter second) ahead l behind)) := by
  rw [reduce?_of_carries (carries_layOver h first), reducedBytes_reduce,
    layOver_layOver (length_reducedBytes h (first.inter second))]

end Twice

/-- Reducing with one set after the other is reducing with what both contain.
It succeeds whenever the first succeeds, the order does not matter, and the same
set changes nothing the second time. -/
theorem reductions_compose (first second : PidSet) {run once : List Packet}
    (h : (reduce? first run).value = some once) :
    exists twice, (reduce? second once).value = some twice ∧
      (reduce? (first.inter second) run).value = some twice ∧
      (exists other, (reduce? second run).value = some other ∧
        (reduce? first other).value = some twice) ∧
      (reduce? first once).value = some once := by
  rcases exists_carries_of_reduce? h with ⟨ahead, l, behind, hcarries, rfl⟩
  refine ⟨_, reduce?_layOver hcarries first second,
    reduce?_of_carries hcarries _, ⟨_, reduce?_of_carries hcarries second, ?_⟩,
    ?_⟩
  · rw [reduce?_layOver hcarries second first, PidSet.inter_comm]
  · rw [reduce?_layOver hcarries first first, PidSet.inter_self]

theorem two_packets_reduced_twice :
    exists once twice,
      (reduce? (.ofList [0x01F0]) [mixedStart, mixedRest]).value = some once ∧
        (reduce? (.ofList [oneSegmentPid]) once).value = some twice ∧
        (reduce? ((PidSet.ofList [0x01F0]).inter (.ofList [oneSegmentPid]))
          [mixedStart, mixedRest]).value = some twice ∧
        once ≠ twice := by
  have hsome :
      (reduce? (.ofList [0x01F0]) [mixedStart, mixedRest]).value.isSome =
      true := by
    decide +kernel
  have hother :
      (reduce? ((PidSet.ofList [0x01F0]).inter (.ofList [oneSegmentPid]))
      [mixedStart, mixedRest]).value ≠
        (reduce? (.ofList [0x01F0]) [mixedStart, mixedRest]).value := by
    decide +kernel
  rcases Option.isSome_iff_exists.mp hsome with ⟨once, h⟩
  rcases reductions_compose (.ofList [0x01F0]) (.ofList [oneSegmentPid]) h with
    ⟨twice, hagain, hinter, _, _⟩
  refine ⟨once, twice, h, hagain, hinter, ?_⟩
  rintro rfl
  rw [hinter, h] at hother
  exact hother rfl

/-!
## Nothing to drop
-/

/-- An intact section without stray bytes, all of whose entries stay, is left as
it is; behind it there is stuffing. -/
theorem reduction_with_nothing_dropped {pmtPids : PidSet}
    {run reduced : List Packet} (h : (reduce? pmtPids run).value = some reduced)
    (hintact : Crc.isIntact (sectionAt (joined run)) = true)
    (hlength : 4 ∣ (sectionAt (joined run)).length - 12)
    (hkept : forall e, e ∈ entries (entryBytes (sectionAt (joined run))) ->
      e.program = 0 ∨ pmtPids.contains e.pid = true) :
    List.Forall₂ Packet.SameOutsidePayload run reduced ∧
      (joined reduced).take (sectionStop (joined run)) =
        (joined run).take (sectionStop (joined run)) ∧
      (joined reduced).drop (sectionStop (joined run)) =
        List.replicate ((joined run).length - sectionStop (joined run))
          stuffingByte ∧
      ((forall b, b ∈ (joined run).drop (sectionStop (joined run)) ->
        b = stuffingByte) ->
        reduced = run) := by
  rcases exists_carries_of_reduce? h with ⟨ahead, l, behind, hcarries, rfl⟩
  rw [sectionAt_of_carries hcarries] at hintact hlength hkept
  rw [Layout.entries_entryBytes] at hkept
  have hstray : l.stray = [] := by
    have hshort := l.length_stray
    rw [l.length_bytes] at hlength
    apply List.eq_nil_of_length_eq_zero
    lia
  have hself : l.reduce pmtPids = l := by
    apply Layout.reduce_eq_self hintact hstray
    intro e he
    rw [Entry.isKept, Bool.or_eq_true, beq_iff_eq]
    exact hkept e he
  have hjoined := joined_layOver (length_reducedBytes hcarries pmtPids)
  have hbytes : reducedBytes pmtPids ahead l behind =
      (ahead ++ l.bytes) ++ List.replicate behind.length stuffingByte := by
    rw [reducedBytes, hself, Nat.add_sub_cancel_left, List.append_assoc]
  have hrun : joined run = (ahead ++ l.bytes) ++ behind := by
    rw [hcarries.joined_eq, List.append_assoc]
  rw [hjoined, sectionStop_of_carries hcarries, hbytes, hrun, List.take_left,
    List.take_left, List.drop_left, List.drop_left, List.length_append,
    Nat.add_sub_cancel_left]
  refine ⟨forall₂_layOver run _, rfl, rfl, ?_⟩
  intro hstuffing
  rw [← List.eq_replicate_of_mem hstuffing, ← hrun]
  exact layOver_joined run

def trailedRest : Packet :=
  .padded 0x00 0x00 0x11 (mixedSection.drop 7 ++ [0x00, 0xB0, 0x0D])

theorem trailed_section_stays :
    exists reduced,
      (reduce? (.ofList [0x01F0, oneSegmentPid])
        [mixedStart, trailedRest]).value = some reduced ∧
        sectionAt (joined [mixedStart, trailedRest]) = mixedSection ∧
        Crc.isIntact mixedSection = true ∧ 4 ∣ mixedSection.length - 12 ∧
        (forall e, e ∈ entries (entryBytes mixedSection) ->
          e.program = 0 ∨
          (PidSet.ofList [0x01F0, oneSegmentPid]).contains e.pid = true) ∧
        (joined reduced).take 201 =
          (joined [mixedStart, trailedRest]).take 201 ∧
        (joined reduced).drop 201 = List.replicate 167 stuffingByte := by
  have hsome : (reduce? (.ofList [0x01F0, oneSegmentPid])
      [mixedStart, trailedRest]).value.isSome = true := by
    decide +kernel
  have hsection : sectionAt (joined [mixedStart, trailedRest]) =
      mixedSection := by
    decide +kernel
  have hstop : sectionStop (joined [mixedStart, trailedRest]) = 201 := by
    decide +kernel
  have hlength : (joined [mixedStart, trailedRest]).length = 368 := by
    decide +kernel
  have hintact : Crc.isIntact mixedSection = true := by decide +kernel
  have hwhole : 4 ∣ mixedSection.length - 12 := by decide
  have hkept : forall e, e ∈ entries (entryBytes mixedSection) ->
      e.program = 0 ∨ (PidSet.ofList [0x01F0, oneSegmentPid]).contains e.pid =
        true := by
    decide +kernel
  rcases Option.isSome_iff_exists.mp hsome with ⟨reduced, h⟩
  rcases reduction_with_nothing_dropped h (hsection.symm ▸ hintact)
    (hsection.symm ▸ hwhole) (hsection.symm ▸ hkept) with
    ⟨_, htake, hdrop, _⟩
  rw [hstop] at htake hdrop
  rw [hlength] at hdrop
  exact ⟨reduced, h, hsection, hintact, hwhole, hkept, htake, hdrop⟩

end Pat
end TransportStream
