import TransportStream.Proofs.Filter.UnitSections

/-!
# Runs that were reduced before

A reduced run holds a section that its reduction leaves as it is, and stuffing
behind it.  Of such a run the filter may need fewer packets than of the run it
was made from, and what it needs it writes again as it is; the packets behind
pass alone.  A run that was given up is given up again at the same packet.
Therefore the filter changes nothing about association packets it has written.
-/

namespace TransportStream
namespace Filter

/-- A run that its reduction would leave as it is. -/
structure IsReduced (pmtPids : PidSet) (run : List Packet) (start stop : Nat) :
    Prop where
  complete : Pat.spanOf run = .complete start stop
  fixed :
    Pat.reduceSection pmtPids
    (((Pat.joined run).drop start).take (stop - start)) =
    ((Pat.joined run).drop start).take (stop - start)
  stuffed : forall b, b ∈ (Pat.joined run).drop stop -> b = stuffingByte

variable {pmtPids : PidSet} {first : Packet} {later : List Packet}
  {start stop : Nat}

theorem stop_le_length
    (hspan : Pat.spanOf (first :: later) = .complete start stop) :
    start ≤ stop ∧ stop ≤ (Pat.joined (first :: later)).length := by
  rcases Pat.spanOf_eq_complete hspan with
    ⟨pointer, tail, old, behind, _, _, _, hold, hstop, hdrop⟩
  have hlength := congrArg List.length hdrop
  have hlong := hold.right
  rw [List.length_drop, List.length_append] at hlength
  simp only [sectionHeaderSize] at hlong
  lia

theorem replaceSection_of_isReduced
    (h : IsReduced pmtPids (first :: later) start stop) :
    Pat.replaceSection (Pat.joined (first :: later)) start
        (((Pat.joined (first :: later)).drop start).take (stop - start)) =
      Pat.joined (first :: later) := by
  rcases stop_le_length h.complete with ⟨hstart, hstop⟩
  have hlength :
      (((Pat.joined (first :: later)).drop start).take (stop - start)).length =
      stop - start := by
    rw [List.length_take, List.length_drop]
    lia
  have hstuffing : (Pat.joined (first :: later)).drop stop =
      List.replicate ((Pat.joined (first :: later)).length - start -
        (stop - start)) stuffingByte := by
    rw [List.eq_replicate_iff, List.length_drop]
    refine ⟨by lia, h.stuffed⟩
  have hbehind :
      ((Pat.joined (first :: later)).drop start).drop (stop - start) =
      (Pat.joined (first :: later)).drop stop := by
    rw [List.drop_drop]
    congr 1
    lia
  rw [Pat.replaceSection, hlength, ← hstuffing, ← hbehind, List.append_assoc,
    List.take_append_drop, List.take_append_drop]

theorem letGo_of_isReduced (hfirst : first.unitStart = true)
    (h : IsReduced pmtPids (first :: later) start stop) :
    letGo pmtPids (first :: later) = first :: later := by
  rw [letGo_of_complete hfirst h.complete, Pat.reduceSpan]
  dsimp only
  rw [h.fixed, replaceSection_of_isReduced h, Pat.layOver_joined]

theorem isReduced_front {rest : List Packet}
    (h : IsReduced pmtPids (first :: (later ++ rest)) start stop)
    (hspan : Pat.spanOf (first :: later) = .complete start stop) :
    IsReduced pmtPids (first :: later) start stop := by
  rcases stop_le_length hspan with ⟨hstart, hstop⟩
  have hjoined : Pat.joined (first :: (later ++ rest)) =
      Pat.joined (first :: later) ++ Pat.joined rest :=
        Pat.joined_append (first :: later) rest
  have hsection :
      ((Pat.joined (first :: (later ++ rest))).drop start).take (stop - start) =
      ((Pat.joined (first :: later)).drop start).take (stop - start) := by
    rw [hjoined, List.drop_append_of_le_length (Nat.le_trans hstart hstop),
      List.take_append_of_le_length]
    rw [List.length_drop]
    lia
  refine ⟨hspan, ?_, ?_⟩
  · rw [← hsection]
    exact h.fixed
  · intro b hb
    apply h.stuffed b
    rw [hjoined, List.drop_append_of_le_length hstop]
    exact List.mem_append_left _ hb

/-- What is laid over a run with a whole section makes a reduced run of it. -/
theorem exists_isReduced_letGo (hfirst : first.unitStart = true)
    (hspan : Pat.spanOf (first :: later) = .complete start stop)
    (pmtPids : PidSet) :
    exists (data : Bytes) (start' stop' : Nat),
      letGo pmtPids (first :: later) = Pat.layOver (first :: later) data ∧
        IsReduced pmtPids (Pat.layOver (first :: later) data) start' stop' := by
  rcases letGo_of_settled hfirst hspan pmtPids with
    ⟨pointer, tail, old, behind, data, room, hpayload, hpointer, hold, _,
      hletGo, hlength, hhead, hdrop, _, _⟩
  rcases Pat.reduceSection_of_isSection hold pmtPids with ⟨hreduced, _, _⟩
  have hjoined := Pat.joined_layOver hlength
  have hspan' : Pat.spanOf (Pat.layOver (first :: later) data) =
      .complete (1 + pointer.toNat)
        (1 + pointer.toNat + (Pat.reduceSection pmtPids old).length) := by
    rcases List.head?_eq_some_iff.mp hhead with ⟨rest, rfl⟩
    rw [Pat.layOver_cons] at hjoined ⊢
    rw [Pat.spanOf, hjoined, Packet.length_payload_writePayload, hpayload]
    apply Pat.locate_of_isSection _ hreduced hdrop
    rw [List.length_cons]
    lia
  refine ⟨data, _, _, hletGo, hspan', ?_, ?_⟩
  · rw [hjoined, hdrop, Nat.add_sub_cancel_left, List.take_left]
    exact Pat.reduceSection_idem hold pmtPids
  · intro b hb
    rw [hjoined, ← List.drop_drop, hdrop, List.drop_left] at hb
    exact List.eq_of_mem_replicate hb

/-!
## Runs written again
-/

theorem patOutput_append_of_later (pmtPids : PidSet) {rest : List Packet}
    (hrest : forall p, p ∈ rest -> p.unitStart = false)
    (packets : List Packet) :
    patOutput pmtPids [] (rest ++ packets) =
      rest ++ patOutput pmtPids [] packets := by
  induction rest with
  | nil => rfl
  | cons p rest ih =>
      have hp := hrest p List.mem_cons_self
      have hopens : opensRun p = false := by simp [opensRun, hp]
      rw [List.cons_append, patOutput_cons_of_alone (accepts_nil p) hopens,
        letGo_of_later hp, ih (fun q hq => hrest q (List.mem_cons_of_mem p hq))]
      rfl

theorem patOutput_cons_of_error {p : Packet} (herror : p.transportError = true)
    (packets : List Packet) :
    patOutput pmtPids [] (p :: packets) =
      letGo pmtPids [p] ++ patOutput pmtPids [] packets := by
  have hopens : opensRun p = false := by simp [opensRun, herror]
  rw [patOutput_cons_of_alone (accepts_nil p) hopens]
  rfl

theorem exists_letGo_singleton (pmtPids : PidSet) (p : Packet) :
    exists q, letGo pmtPids [p] = [q] ∧ Packet.SameOutsidePayload p q := by
  rcases List.forall₂_cons_left_iff.mp (forall₂_letGo pmtPids [p]) with
    ⟨q, rest, hsame, hrest, hletGo⟩
  rw [List.forall₂_nil_left_iff] at hrest
  rw [hrest] at hletGo
  exact ⟨q, hletGo, hsame⟩

theorem letGo_letGo (pmtPids : PidSet) (run : List Packet) :
    letGo pmtPids (letGo pmtPids run) = letGo pmtPids run := by
  cases run with
  | nil => rfl
  | cons first later =>
      cases hfirst : first.unitStart with
      | false => rw [letGo_of_later hfirst, letGo_of_later hfirst]
      | true =>
          by_cases hcomplete : exists start stop,
              Pat.spanOf (first :: later) = .complete start stop
          · rcases hcomplete with ⟨start, stop, hspan⟩
            rcases exists_isReduced_letGo hfirst hspan pmtPids with
              ⟨data, start', stop', hletGo, hreduced⟩
            rw [hletGo]
            exact letGo_of_isReduced hfirst hreduced
          · have hsame : letGo pmtPids (first :: later) = first :: later := by
              apply letGo_of_not_complete
              intro start stop hspan
              exact hcomplete ⟨start, stop, hspan⟩
            rw [hsame, hsame]

theorem patOutput_append_of_isReduced (hfirst : first.unitStart = true)
    (herror : first.transportError = false)
    (hlater : Consecutive first.counter later)
    (h : IsReduced pmtPids (first :: later) start stop)
    (packets : List Packet) :
    patOutput pmtPids [] (first :: later ++ packets) =
      first :: later ++ patOutput pmtPids [] packets := by
  rcases exists_isRun_of_complete hlater h.complete with
    ⟨run, rest, rfl, hrun, hspan⟩
  have hrest :=
    unitStart_of_consecutive (consecutive_append_iff.mp hlater).right
  have hwhole : outputHolding pmtPids [first] (run ++ (rest ++ packets)) = _ :=
    outputHolding_of_isRun hrun pmtPids (rest ++ packets)
  rw [List.cons_append, patOutput_nil_cons_of_start hfirst herror,
    List.append_assoc, hwhole, List.nil_append,
    patOutput_append_of_later pmtPids hrest,
    letGo_of_isReduced hfirst (isReduced_front h hspan)]
  simp

theorem patOutput_letGo_append (hfirst : first.unitStart = true)
    (herror : first.transportError = false) (hrun : IsRun first later)
    (packets : List Packet) :
    patOutput pmtPids [] (letGo pmtPids (first :: later) ++ packets) =
      letGo pmtPids (first :: later) ++ patOutput pmtPids [] packets := by
  rcases hrun.complete with ⟨start, stop, hspan⟩
  rcases exists_isReduced_letGo hfirst hspan pmtPids with
    ⟨data, start', stop', hletGo, hreduced⟩
  have hconsecutive :=
    consecutive_layOver hrun.consecutive (data.drop first.payload.length)
  rw [← Packet.unitStart_writePayload first (data.take first.payload.length)]
    at hfirst
  rw [← Packet.transportError_writePayload first
    (data.take first.payload.length)] at herror
  rw [← Packet.counter_writePayload first (data.take first.payload.length)]
    at hconsecutive
  rw [hletGo]
  exact patOutput_append_of_isReduced hfirst herror hconsecutive
    hreduced packets

/-!
## Association packets written again
-/

variable {p : Packet} {packets : List Packet}

/-- What is written for association packets is written for itself. -/
def IsStable (pmtPids : PidSet) (packets : List Packet) : Prop :=
  patOutput pmtPids [] (patOutput pmtPids [] packets) =
    patOutput pmtPids [] packets

theorem isStable_cons_of_later (hstart : p.unitStart = false)
    (h : IsStable pmtPids packets) :
    IsStable pmtPids (p :: packets) := by
  have hlater : forall q, q ∈ [p] -> q.unitStart = false := by
    intro q hq
    rw [List.mem_singleton.mp hq]
    exact hstart
  have hout := patOutput_append_of_later pmtPids hlater
  rw [IsStable, ← List.singleton_append, hout, hout, h]

theorem isStable_cons_of_error (herror : p.transportError = true)
    (h : IsStable pmtPids packets) :
    IsStable pmtPids (p :: packets) := by
  rcases exists_letGo_singleton pmtPids p with ⟨q, hletGo, hsame⟩
  have hfixed := letGo_letGo pmtPids [p]
  have herror' : q.transportError = true := by
    rw [Packet.transportError_of_sameOutsidePayload hsame]
    exact herror
  rw [hletGo] at hfixed
  rw [IsStable, patOutput_cons_of_error herror, hletGo, List.singleton_append,
    patOutput_cons_of_error herror', hfixed, h]
  rfl

theorem isStable_of_isRun {rest : List Packet} (hstart : first.unitStart = true)
    (herror : first.transportError = false) (hrun : IsRun first later)
    (h : IsStable pmtPids rest) :
    IsStable pmtPids (first :: (later ++ rest)) := by
  have hout : outputHolding pmtPids [first] (later ++ rest) = _ :=
    outputHolding_of_isRun hrun pmtPids rest
  rw [IsStable, patOutput_nil_cons_of_start hstart herror, hout,
    List.nil_append, patOutput_letGo_append hstart herror hrun, h]

theorem exists_isStable_of_not_settled (hstart : first.unitStart = true)
    (herror : first.transportError = false)
    (hrun : settledRun? [first] packets = none) :
    exists more rest, packets = more ++ rest ∧
      (IsStable pmtPids rest -> IsStable pmtPids (first :: packets)) := by
  rcases outputHolding_of_not_settled hrun pmtPids with ⟨more, rest, rfl, hout⟩
  refine ⟨more, rest, rfl, ?_⟩
  intro h
  have hagain := hout _ (forall₂_patOutput pmtPids [] rest)
  rw [IsStable, patOutput_nil_cons_of_start hstart herror,
    hout rest (forall₂_refl rest), List.append_assoc, List.singleton_append,
    patOutput_nil_cons_of_start hstart herror, hagain, h, List.append_assoc,
    List.singleton_append]

theorem isStable (pmtPids : PidSet) (packets : List Packet) :
    IsStable pmtPids packets := by
  induction hlength : packets.length using Nat.strongRecOn
    generalizing packets with
  | ind length ih =>
      cases packets with
      | nil => rfl
      | cons p packets =>
          rw [List.length_cons] at hlength
          have hbehind : forall more rest, packets = more ++ rest ->
              IsStable pmtPids rest := by
            intro more rest hsplit
            rw [hsplit, List.length_append] at hlength
            exact ih rest.length (by lia) rest rfl
          cases hstart : p.unitStart with
          | false =>
              exact isStable_cons_of_later hstart (hbehind [] packets rfl)
          | true =>
              cases herror : p.transportError with
              | true =>
                  exact isStable_cons_of_error herror (hbehind [] packets rfl)
              | false =>
                  cases hrun : settledRun? [p] packets with
                  | some run =>
                      rcases settledRun?_eq_some_iff.mp hrun with
                        ⟨later, rest, hsplit, _, hisRun⟩
                      rw [hsplit]
                      exact isStable_of_isRun hstart herror hisRun
                        (hbehind later rest hsplit)
                  | none =>
                      rcases exists_isStable_of_not_settled hstart herror
                        hrun with
                        ⟨more, rest, hsplit, hstable⟩
                      exact hstable (hbehind more rest hsplit)

end Filter
end TransportStream
