import Mathlib.Data.Nat.Find
import TransportStream.Proofs.Filter.Conservation
import TransportStream.Proofs.Pat.Consecutive
import TransportStream.Proofs.Section.Splitting

/-!
# The runs of the filter

The filter collects a run from a start packet onwards.  The run goes on while
its section is unfinished and the next packet continues it; it is settled when
the section is complete, and given up otherwise.  What is written for the
packets of a run depends on these packets alone.
-/

namespace TransportStream
namespace Filter

/-!
## Packets that a run goes on with
-/

theorem accepts_nil (p : Packet) : accepts [] p = false := rfl

theorem accepts_of_start {p : Packet} (h : p.unitStart = true)
    (held : List Packet) :
    accepts held p = false := by
  unfold accepts
  cases held.getLast? with
  | none => rfl
  | some last => simp [h]

theorem exists_getLast?_cons (first : Packet) (later : List Packet) :
    exists last, (first :: later).getLast? = some last ∧
      last.counter = lastCounter first.counter later := by
  induction later generalizing first with
  | nil => exact ⟨first, rfl, rfl⟩
  | cons p later ih =>
      rcases ih p with ⟨last, hlast, hcounter⟩
      refine ⟨last, ?_, hcounter⟩
      rw [List.getLast?_cons_cons]
      exact hlast

theorem accepts_cons (first : Packet) (later : List Packet) (p : Packet) :
    accepts (first :: later) p =
      (!p.unitStart && !p.transportError &&
        p.continuityAfter (lastCounter first.counter later) == .next) := by
  rcases exists_getLast?_cons first later with ⟨last, hlast, hcounter⟩
  rw [accepts, hlast, ← hcounter]

theorem accepts_cons_iff {first : Packet} {later : List Packet} {p : Packet} :
    accepts (first :: later) p = true ↔
      Consecutive (lastCounter first.counter later) [p] := by
  have hlt := p.counter_lt
  rw [accepts_cons]
  unfold Consecutive Consecutive Packet.continuityAfter
  by_cases hsame : p.counter = lastCounter first.counter later
  · have hnext : p.counter ≠ (lastCounter first.counter later + 1) % 16 := by
      lia
    rw [if_pos hsame]
    simp [hnext]
  · rw [if_neg hsame]
    by_cases hnext : p.counter = (lastCounter first.counter later + 1) % 16
    · rw [if_pos hnext]
      simp [hnext]
    · rw [if_neg hnext]
      simp [hnext]

/-!
## Where a run ends
-/

/-- The run that is settled with a whole section, from the packets held and
those that follow. -/
def settledRun? (held : List Packet) : List Packet -> Option (List Packet)
  | [] =>
      match Pat.spanOf held with
      | .complete _ _ => some held
      | _ => none
  | p :: packets =>
      match Pat.spanOf held with
      | .complete _ _ => some held
      | .unfinished =>
          if accepts held p then settledRun? (held ++ [p]) packets else none
      | .invalid => none

def outputHolding (pmtPids : PidSet) (held packets : List Packet) :
    List Packet :=
  if Pat.spanOf held = .unfinished then patOutput pmtPids held packets
  else letGo pmtPids held ++ patOutput pmtPids [] packets

variable {pmtPids : PidSet}

theorem patOutput_cons_of_not_accepts {held : List Packet} {p : Packet}
    (h : accepts held p = false) (packets : List Packet) :
    patOutput pmtPids held (p :: packets) =
      held ++ patOutput pmtPids [] (p :: packets) := by
  cases hopens : opensRun p with
  | true =>
      rw [patOutput_cons_of_opensRun h hopens,
        patOutput_cons_of_opensRun (accepts_nil p) hopens, List.nil_append]
  | false =>
      rw [patOutput_cons_of_alone h hopens,
        patOutput_cons_of_alone (accepts_nil p) hopens, List.nil_append]

theorem outputHolding_nil (pmtPids : PidSet) (held : List Packet) :
    outputHolding pmtPids held [] = letGo pmtPids held := by
  unfold outputHolding
  by_cases hspan : Pat.spanOf held = .unfinished
  · rw [if_pos hspan, letGo_of_not_complete]
    · rfl
    · intro start stop h
      rw [hspan] at h
      cases h
  · rw [if_neg hspan, patOutput_nil, List.append_nil]

theorem outputHolding_cons_of_accepts {held : List Packet} {p : Packet}
    (hspan : Pat.spanOf held = .unfinished) (h : accepts held p = true)
    (packets : List Packet) :
    outputHolding pmtPids held (p :: packets) =
      outputHolding pmtPids (held ++ [p]) packets := by
  rw [outputHolding, if_pos hspan, outputHolding]
  by_cases hnext : Pat.spanOf (held ++ [p]) = .unfinished
  · rw [if_pos hnext, patOutput_cons_of_unfinished h hnext]
  · rw [if_neg hnext, patOutput_cons_of_settled h hnext]

theorem patOutput_nil_cons_of_start {p : Packet} (hstart : p.unitStart = true)
    (herror : p.transportError = false) (packets : List Packet) :
    patOutput pmtPids [] (p :: packets) =
      outputHolding pmtPids [p] packets := by
  unfold outputHolding
  by_cases hspan : Pat.spanOf [p] = .unfinished
  · have hopens : opensRun p = true := by
      simp [opensRun, hstart, herror, hspan]
    rw [if_pos hspan, patOutput_cons_of_opensRun (accepts_nil p) hopens,
      List.nil_append]
  · have hopens : opensRun p = false := by
      simp [opensRun, hspan]
    rw [if_neg hspan, patOutput_cons_of_alone (accepts_nil p) hopens,
      List.nil_append]

theorem patOutput_append_of_start {p : Packet} (hstart : p.unitStart = true)
    (held front later : List Packet) :
    patOutput pmtPids held (front ++ p :: later) =
      patOutput pmtPids held front ++ patOutput pmtPids [] (p :: later) := by
  induction front generalizing held with
  | nil =>
      exact patOutput_cons_of_not_accepts (accepts_of_start hstart held) later
  | cons q front ih =>
      have hstep : forall packets, patOutput pmtPids held (q :: packets) =
          written (stepPat pmtPids held q).2.2 ++
            patOutput pmtPids (stepPat pmtPids held q).1 packets := fun _ => rfl
      rw [List.cons_append, hstep, ih, hstep, List.append_assoc]

/-- A start packet and consecutive packets behind it that hold a whole section,
the last of them being needed for it. -/
structure IsRun (first : Packet) (later : List Packet) : Prop where
  consecutive : Consecutive first.counter later
  complete : exists start stop,
    Pat.spanOf (first :: later) = .complete start stop
  unfinished : forall n, n < later.length ->
    Pat.spanOf (first :: later.take n) = .unfinished

theorem spanOf_of_isRun_append {first p : Packet} {later more : List Packet}
    (h : IsRun first (later ++ p :: more)) :
    Pat.spanOf (first :: later) = .unfinished ∧
      accepts (first :: later) p = true := by
  constructor
  · have hshort := h.unfinished later.length
    rw [List.take_left, List.length_append, List.length_cons] at hshort
    exact hshort (by lia)
  · rcases consecutive_append_iff.mp h.consecutive with
      ⟨_, hstart, herror, hcounter, _⟩
    exact accepts_cons_iff.mpr ⟨hstart, herror, hcounter, trivial⟩

theorem settledRun?_of_complete {held : List Packet} {start stop : Nat}
    (hspan : Pat.spanOf held = .complete start stop) (packets : List Packet) :
    settledRun? held packets = some held := by
  cases packets with
  | nil => rw [settledRun?, hspan]
  | cons p packets => rw [settledRun?, hspan]

theorem settledRun?_cons_of_unfinished {held : List Packet}
    (hspan : Pat.spanOf held = .unfinished) (p : Packet)
    (packets : List Packet) :
    settledRun? held (p :: packets) =
      if accepts held p then settledRun? (held ++ [p]) packets else none := by
  rw [settledRun?, hspan]

theorem settledRun?_of_invalid {held : List Packet}
    (hspan : Pat.spanOf held = .invalid) (packets : List Packet) :
    settledRun? held packets = none := by
  cases packets with
  | nil => rw [settledRun?, hspan]
  | cons p packets => rw [settledRun?, hspan]

theorem settledRun?_of_isRun {first : Packet} {later more : List Packet}
    (h : IsRun first (later ++ more)) (rest : List Packet) :
    settledRun? (first :: later) (more ++ rest) =
      some (first :: (later ++ more)) := by
  induction more generalizing later with
  | nil =>
      rcases h.complete with ⟨start, stop, hspan⟩
      rw [List.append_nil] at hspan
      rw [List.nil_append, settledRun?_of_complete hspan, List.append_nil]
  | cons p more ih =>
      rcases spanOf_of_isRun_append h with ⟨hspan, haccepts⟩
      rw [List.append_cons] at h
      rw [List.cons_append, settledRun?_cons_of_unfinished hspan,
        if_pos haccepts, List.append_cons later, ← ih h]
      rfl

theorem isRun_of_settledRun? {first : Packet} {later packets run : List Packet}
    (h : settledRun? (first :: later) packets = some run)
    (hconsecutive : Consecutive first.counter later)
    (hunfinished : forall n, n < later.length ->
      Pat.spanOf (first :: later.take n) = .unfinished) :
    exists more rest, packets = more ++ rest ∧ run = first :: (later ++ more) ∧
      IsRun first (later ++ more) := by
  induction packets generalizing later with
  | nil =>
      cases hspan : Pat.spanOf (first :: later) with
      | complete start stop =>
          rw [settledRun?_of_complete hspan] at h
          cases h
          refine ⟨[], [], rfl, ?_, ?_⟩
          · rw [List.append_nil]
          · rw [List.append_nil]
            exact ⟨hconsecutive, ⟨start, stop, hspan⟩, hunfinished⟩
      | unfinished =>
          rw [settledRun?, hspan] at h
          cases h
      | invalid =>
          rw [settledRun?_of_invalid hspan] at h
          cases h
  | cons p packets ih =>
      cases hspan : Pat.spanOf (first :: later) with
      | complete start stop =>
          rw [settledRun?_of_complete hspan] at h
          cases h
          refine ⟨[], p :: packets, rfl, ?_, ?_⟩
          · rw [List.append_nil]
          · rw [List.append_nil]
            exact ⟨hconsecutive, ⟨start, stop, hspan⟩, hunfinished⟩
      | unfinished =>
          rw [settledRun?_cons_of_unfinished hspan] at h
          cases haccepts : accepts (first :: later) p with
          | false =>
              rw [if_neg (by simp [haccepts])] at h
              cases h
          | true =>
              rw [if_pos haccepts] at h
              -- The packets held are all needed, since without `p` the section
              -- is unfinished.
              have hlonger : forall n, n < (later ++ [p]).length ->
                  Pat.spanOf (first :: (later ++ [p]).take n) =
                    .unfinished := by
                intro n hn
                rw [List.length_append, List.length_singleton] at hn
                rw [List.take_append_of_le_length (by lia)]
                rcases Nat.lt_succ_iff_lt_or_eq.mp hn with hlt | rfl
                · exact hunfinished n hlt
                · rw [List.take_length]
                  exact hspan
              have hfollows := consecutive_append_iff.mpr
                ⟨hconsecutive, accepts_cons_iff.mp haccepts⟩
              have hnext : settledRun? (first :: (later ++ [p])) packets =
                  some run := h
              rcases ih hnext hfollows hlonger with
                ⟨more, rest, hpackets, hrun, hisRun⟩
              rw [List.append_assoc, List.singleton_append] at hrun hisRun
              refine ⟨p :: more, rest, ?_, hrun, hisRun⟩
              rw [hpackets, List.cons_append]
      | invalid =>
          rw [settledRun?_of_invalid hspan] at h
          cases h

/-- The filter settles exactly the runs that start with the first packet
held. -/
theorem settledRun?_eq_some_iff {first : Packet} {packets run : List Packet} :
    settledRun? [first] packets = some run ↔
      exists later rest, packets = later ++ rest ∧ run = first :: later ∧
        IsRun first later := by
  constructor
  · intro h
    exact isRun_of_settledRun? h trivial
      (fun n hn => absurd hn (Nat.not_lt_zero n))
  · intro h
    rcases h with ⟨later, rest, rfl, rfl, hrun⟩
    exact settledRun?_of_isRun hrun rest

/-!
## Why no run is settled

A start packet is let go as it was if its section is malformed, if the packets
behind it end before the section does, or if one of them interrupts the run.  It
is also let go if one of them is repeated, although a reader of sections skips
such a packet and goes on.
-/

inductive Hindrance where
  | malformed
  | ended
  | interrupted
  | repeated
  deriving DecidableEq, Repr

/-- The packets behind a start packet keep its run from being settled. -/
inductive HinderedBy (first : Packet) : List Packet -> Hindrance -> Prop where
  | malformed {front : List Packet} (hfront : Consecutive first.counter front)
      (hspan : Pat.spanOf (first :: front) = .invalid) (rest : List Packet) :
      HinderedBy first (front ++ rest) .malformed
  | ended {later : List Packet} (hlater : Consecutive first.counter later)
      (hspan : Pat.spanOf (first :: later) = .unfinished) :
      HinderedBy first later .ended
  | interrupted {front : List Packet} {p : Packet}
      (hfront : Consecutive first.counter front)
      (hspan : Pat.spanOf (first :: front) = .unfinished)
      (hp : p.unitStart = true ∨ p.transportError = true ∨
        p.continuityAfter (lastCounter first.counter front) = .gap)
      (rest : List Packet) : HinderedBy first (front ++ p :: rest) .interrupted
  | repeated {front : List Packet} {p : Packet}
      (hfront : Consecutive first.counter front)
      (hspan : Pat.spanOf (first :: front) = .unfinished)
      (hstart : p.unitStart = false) (herror : p.transportError = false)
      (hp : p.continuityAfter (lastCounter first.counter front) = .duplicate)
      (rest : List Packet) : HinderedBy first (front ++ p :: rest) .repeated

theorem hinderedBy_of_not_accepts {first p : Packet} {front : List Packet}
    (hfront : Consecutive first.counter front)
    (hspan : Pat.spanOf (first :: front) = .unfinished)
    (haccepts : accepts (first :: front) p = false) (rest : List Packet) :
    exists cause, HinderedBy first (front ++ p :: rest) cause := by
  rw [accepts_cons] at haccepts
  cases hstart : p.unitStart with
  | true => exact ⟨_, .interrupted hfront hspan (.inl hstart) rest⟩
  | false =>
      cases herror : p.transportError with
      | true => exact ⟨_, .interrupted hfront hspan (.inr (.inl herror)) rest⟩
      | false =>
          cases hp : p.continuityAfter (lastCounter first.counter front) with
          | next => simp [hstart, herror, hp] at haccepts
          | gap => exact ⟨_, .interrupted hfront hspan (.inr (.inr hp)) rest⟩
          | duplicate => exact ⟨_, .repeated hfront hspan hstart herror hp rest⟩

theorem hinderedBy_of_not_settled {first : Packet} {front packets : List Packet}
    (hfront : Consecutive first.counter front)
    (h : settledRun? (first :: front) packets = none) :
    exists cause, HinderedBy first (front ++ packets) cause := by
  induction packets generalizing front with
  | nil =>
      cases hspan : Pat.spanOf (first :: front) with
      | complete start stop =>
          rw [settledRun?_of_complete hspan] at h
          cases h
      | unfinished =>
          rw [List.append_nil]
          exact ⟨_, .ended hfront hspan⟩
      | invalid => exact ⟨_, .malformed hfront hspan []⟩
  | cons p packets ih =>
      cases hspan : Pat.spanOf (first :: front) with
      | complete start stop =>
          rw [settledRun?_of_complete hspan] at h
          cases h
      | unfinished =>
          cases haccepts : accepts (first :: front) p with
          | false =>
              exact hinderedBy_of_not_accepts hfront hspan haccepts packets
          | true =>
              rw [settledRun?_cons_of_unfinished hspan, if_pos haccepts] at h
              rw [List.append_cons]
              exact ih (consecutive_append_iff.mpr
                ⟨hfront, accepts_cons_iff.mp haccepts⟩) h
      | invalid => exact ⟨_, .malformed hfront hspan (p :: packets)⟩

theorem IsRun.goes_on {first : Packet} {run rest front behind : List Packet}
    (h : IsRun first run) (hsplit : run ++ rest = front ++ behind)
    (hspan : forall start stop, Pat.spanOf (first :: front) ≠
      .complete start stop) :
    exists p more, run = front ++ p :: more ∧ behind = p :: (more ++ rest) := by
  rcases h.complete with ⟨start, stop, hcomplete⟩
  rcases List.append_eq_append_iff.mp hsplit with
    ⟨more, rfl, rfl⟩ | ⟨more, rfl, rfl⟩
  · -- The run ends within the packets, which then hold its section as well.
    have hne : Pat.spanOf (first :: run) ≠ .unfinished := by
      rw [hcomplete]
      exact nofun
    have hlonger := Pat.spanOf_append hne more
    rw [hcomplete] at hlonger
    exact absurd hlonger (hspan start stop)
  · cases more with
    | nil =>
        rw [List.append_nil] at hcomplete
        exact absurd hcomplete (hspan start stop)
    | cons p more => exact ⟨p, more, rfl, rfl⟩

theorem IsRun.not_hinderedBy {first : Packet} {run rest : List Packet}
    (h : IsRun first run) {cause : Hindrance} :
    ¬ HinderedBy first (run ++ rest) cause := by
  intro hhindered
  generalize hpackets : run ++ rest = packets at hhindered
  cases hhindered with
  | malformed hfront hspan behind =>
      rcases h.goes_on hpackets (by simp [hspan]) with ⟨p, more, rfl, _⟩
      rw [(spanOf_of_isRun_append h).left] at hspan
      cases hspan
  | ended hlater hspan =>
      rw [← List.append_nil packets] at hpackets
      rcases h.goes_on hpackets (by simp [hspan]) with ⟨p, more, _, hnil⟩
      cases hnil
  | interrupted hfront hspan hp behind =>
      rcases h.goes_on hpackets (by simp [hspan]) with ⟨q, more, rfl, hcons⟩
      cases hcons
      have haccepts := (spanOf_of_isRun_append h).right
      rw [accepts_cons] at haccepts
      rcases hp with hstart | herror | hgap
      · simp [hstart] at haccepts
      · simp [herror] at haccepts
      · simp [hgap] at haccepts
  | repeated hfront hspan hstart herror hp behind =>
      rcases h.goes_on hpackets (by simp [hspan]) with ⟨q, more, rfl, hcons⟩
      cases hcons
      have haccepts := (spanOf_of_isRun_append h).right
      simp [accepts_cons, hp] at haccepts

/-- Behind a start packet either a run is settled or something hinders it. -/
theorem settledRun?_eq_none_iff {first : Packet} {packets : List Packet} :
    settledRun? [first] packets = none ↔
      exists cause, HinderedBy first packets cause := by
  constructor
  · intro h
    have hnothing : Consecutive first.counter [] := trivial
    exact hinderedBy_of_not_settled hnothing h
  · rintro ⟨cause, hcause⟩
    rw [Option.eq_none_iff_forall_ne_some]
    intro run hrun
    rcases settledRun?_eq_some_iff.mp hrun with ⟨later, rest, rfl, _, hisRun⟩
    exact hisRun.not_hinderedBy hcause

/-!
## What is written for a run
-/

/-- A run is let go as a whole, and leaves nothing held. -/
theorem outputHolding_of_isRun {first : Packet} {later more : List Packet}
    (h : IsRun first (later ++ more)) (pmtPids : PidSet) (rest : List Packet) :
    outputHolding pmtPids (first :: later) (more ++ rest) =
      letGo pmtPids (first :: (later ++ more)) ++
        patOutput pmtPids [] rest := by
  induction more generalizing later with
  | nil =>
      rcases h.complete with ⟨start, stop, hspan⟩
      rw [List.append_nil] at hspan
      rw [List.nil_append, List.append_nil, outputHolding, if_neg]
      rw [hspan]
      intro hunfinished
      cases hunfinished
  | cons p more ih =>
      rcases spanOf_of_isRun_append h with ⟨hspan, haccepts⟩
      rw [List.append_cons] at h
      rw [List.cons_append, outputHolding_cons_of_accepts hspan haccepts,
        List.append_cons later, ← ih h]
      rfl

theorem accepts_of_sameOutsidePayload {p q : Packet}
    (h : Packet.SameOutsidePayload p q) (held : List Packet) :
    accepts held q = accepts held p := by
  rcases Packet.sameOutsidePayload_iff.mp h with ⟨hsecond, _, hfourth, _⟩
  unfold accepts Packet.unitStart Packet.transportError Packet.continuityAfter
    Packet.counter
  rw [hsecond, hfourth]

theorem outputHolding_of_not_settled {held packets : List Packet}
    (h : settledRun? held packets = none) (pmtPids : PidSet) :
    exists more rest, packets = more ++ rest ∧
      forall rest', List.Forall₂ Packet.SameOutsidePayload rest rest' ->
        outputHolding pmtPids held (more ++ rest') =
          held ++ more ++ patOutput pmtPids [] rest' := by
  induction packets generalizing held with
  | nil =>
      refine ⟨[], [], rfl, ?_⟩
      intro rest' hrest
      cases hrest
      rw [List.append_nil, outputHolding_nil, letGo_of_not_complete]
      · simp
      · intro start stop hspan
        rw [settledRun?, hspan] at h
        cases h
  | cons p packets ih =>
      cases hspan : Pat.spanOf held with
      | complete start stop =>
          rw [settledRun?_of_complete hspan] at h
          cases h
      | unfinished =>
          rw [settledRun?_cons_of_unfinished hspan] at h
          cases haccepts : accepts held p with
          | false =>
              refine ⟨[], p :: packets, rfl, ?_⟩
              intro rest' hrest
              cases hrest with
              | cons hp hlater =>
                  rw [← accepts_of_sameOutsidePayload hp] at haccepts
                  rw [List.nil_append, outputHolding, if_pos hspan,
                    patOutput_cons_of_not_accepts haccepts, List.append_nil]
          | true =>
              rw [if_pos haccepts] at h
              rcases ih h with ⟨more, rest, hpackets, houtput⟩
              refine ⟨p :: more, rest, ?_, ?_⟩
              · rw [hpackets, List.cons_append]
              · intro rest' hrest
                rw [List.cons_append,
                  outputHolding_cons_of_accepts hspan haccepts,
                  houtput rest' hrest]
                simp
      | invalid =>
          refine ⟨[], p :: packets, rfl, ?_⟩
          intro rest' _
          rw [List.nil_append, outputHolding, if_neg, letGo_of_not_complete]
          · simp
          · intro start stop hcomplete
            rw [hspan] at hcomplete
            cases hcomplete
          · rw [hspan]
            intro hunfinished
            cases hunfinished

theorem exists_isRun_of_complete {first : Packet} {later : List Packet}
    {start stop : Nat} (hlater : Consecutive first.counter later)
    (hspan : Pat.spanOf (first :: later) = .complete start stop) :
    exists run rest, later = run ++ rest ∧ IsRun first run ∧
      Pat.spanOf (first :: run) = .complete start stop := by
  have hex : exists n, Pat.spanOf (first :: later.take n) ≠ .unfinished := by
    refine ⟨later.length, ?_⟩
    rw [List.take_length, hspan]
    intro h
    cases h
  have hsplit := List.take_append_drop (Nat.find hex) later
  have hfound :=
    Pat.spanOf_append (Nat.find_spec hex) (later.drop (Nat.find hex))
  rw [hsplit, hspan] at hfound
  rw [← hsplit] at hlater
  refine ⟨later.take (Nat.find hex), later.drop (Nat.find hex), hsplit.symm,
    ⟨(consecutive_append_iff.mp hlater).left, ⟨start, stop, hfound.symm⟩, ?_⟩,
    hfound.symm⟩
  intro n hn
  rw [List.length_take, Nat.lt_min] at hn
  rw [List.take_take, Nat.min_eq_left (Nat.le_of_lt hn.left)]
  exact not_not.mp (Nat.find_min hex hn.left)

end Filter
end TransportStream
