import Mathlib.Data.List.Induction
import Mathlib.Data.List.TakeWhile
import TransportStream.Proofs.Section.Units

/-!
# Splitting a packet sequence at its units

Packets that are not heard may stand anywhere in a unit.  This module keeps them
where they are: units are split off at the start packets that are heard, so that
statements about a packet sequence can be proved unit by unit.
-/

namespace TransportStream

/-- A packet that makes an assembler begin afresh. -/
def Packet.opensUnit (p : Packet) : Bool :=
  p.isHeard && p.unitStart

def PayloadUnit.heard (u : PayloadUnit) : PayloadUnit :=
  ⟨u.start, u.later.filter Packet.isHeard⟩

theorem Packet.unitStart_of_opensUnit {p : Packet} (h : p.opensUnit = true) :
    p.unitStart = true := by
  rw [opensUnit, Bool.and_eq_true] at h
  exact h.right

theorem Packet.isHeard_of_opensUnit {p : Packet} (h : p.opensUnit = true) :
    p.isHeard = true := by
  rw [opensUnit, Bool.and_eq_true] at h
  exact h.left

theorem Packet.transportError_of_opensUnit {p : Packet}
    (h : p.opensUnit = true) :
    p.transportError = false := by
  have hheard := isHeard_of_opensUnit h
  rw [isHeard, Bool.and_eq_true, Bool.not_eq_true'] at hheard
  exact hheard.left

section Split

variable {opens : Packet -> Bool}

theorem units_of_forall {packets : List Packet}
    (h : forall p, p ∈ packets -> opens p = false) :
    units opens packets = [] := by
  induction packets with
  | nil => rfl
  | cons p packets ih =>
      rw [units_cons_of_not_opens (h p List.mem_cons_self)]
      exact ih (fun q hq => h q (List.mem_cons_of_mem p hq))

theorem takeWhile_of_forall {packets : List Packet}
    (h : forall p, p ∈ packets -> opens p = false) :
    packets.takeWhile (!opens ·) = packets := by
  rw [List.takeWhile_eq_self_iff]
  intro p hp
  rw [h p hp]
  rfl

theorem units_of_unit {p : Packet} {later : List Packet} (hp : opens p = true)
    (h : forall q, q ∈ later -> opens q = false) :
    units opens (p :: later) = [⟨p, later⟩] := by
  rw [units_cons_of_opens hp, takeWhile_of_forall h, units_of_forall h]

theorem units_append_of_opens {p : Packet} (hp : opens p = true)
    (front later : List Packet) :
    units opens (front ++ p :: later) =
      units opens front ++ units opens (p :: later) := by
  induction front with
  | nil => rfl
  | cons q front ih =>
      have hwhile : (front ++ p :: later).takeWhile (!opens ·) =
          front.takeWhile (!opens ·) := by
        clear ih
        induction front with
        | nil =>
            rw [List.nil_append, List.takeWhile_cons_of_neg (by simp [hp]),
              List.takeWhile_nil]
        | cons r front ih' =>
            cases hr : opens r with
            | true =>
                rw [List.cons_append, List.takeWhile_cons_of_neg (by simp [hr]),
                  List.takeWhile_cons_of_neg (by simp [hr])]
            | false =>
                rw [List.cons_append, List.takeWhile_cons_of_pos (by simp [hr]),
                  List.takeWhile_cons_of_pos (by simp [hr]), ih']
      cases hq : opens q with
      | true =>
          rw [List.cons_append, units_cons_of_opens hq, hwhile, ih,
            units_cons_of_opens hq, List.cons_append]
      | false =>
          rw [List.cons_append, units_cons_of_not_opens hq, ih,
            units_cons_of_not_opens hq]

theorem unit_induction (opens : Packet -> Bool) {motive : List Packet -> Prop}
    (none : forall packets, (forall p, p ∈ packets -> opens p = false) ->
      motive packets)
    (last : forall front p later, opens p = true ->
      (forall q, q ∈ later -> opens q = false) -> motive front ->
      motive (front ++ p :: later))
    (packets : List Packet) : motive packets := by
  have hlater : forall later, (forall q, q ∈ later -> opens q = false) ->
      motive (packets ++ later) := by
    induction packets using List.reverseRecOn with
    | nil =>
        intro later h
        exact none later h
    | append_singleton front p ih =>
        intro later h
        rw [List.append_assoc, List.singleton_append]
        cases hp : opens p with
        | true =>
            apply last front p later hp h
            have hfront := ih [] (fun q hq => absurd hq List.not_mem_nil)
            rw [List.append_nil] at hfront
            exact hfront
        | false =>
            apply ih
            intro q hq
            rcases List.mem_cons.mp hq with rfl | hmem
            · exact hp
            · exact h q hmem
  have hempty := hlater [] (fun q hq => absurd hq List.not_mem_nil)
  rw [List.append_nil] at hempty
  exact hempty

end Split

/-!
## Units with the packets that are not heard
-/

theorem takeWhile_filter_isHeard (packets : List Packet) :
    (packets.filter Packet.isHeard).takeWhile (!Packet.unitStart ·) =
      (packets.takeWhile (!Packet.opensUnit ·)).filter Packet.isHeard := by
  induction packets with
  | nil => rfl
  | cons p packets ih =>
      cases hheard : p.isHeard with
      | false =>
          rw [List.filter_cons_of_neg (by simp [hheard]),
            List.takeWhile_cons_of_pos (by simp [Packet.opensUnit, hheard]),
            List.filter_cons_of_neg (by simp [hheard]), ih]
      | true =>
          rw [List.filter_cons_of_pos hheard]
          cases hstart : p.unitStart with
          | true =>
              rw [List.takeWhile_cons_of_neg (by simp [hstart]),
                List.takeWhile_cons_of_neg
                  (by simp [Packet.opensUnit, hheard, hstart]),
                List.filter_nil]
          | false =>
              rw [List.takeWhile_cons_of_pos (by simp [hstart]),
                List.takeWhile_cons_of_pos (by simp [Packet.opensUnit, hstart]),
                List.filter_cons_of_pos hheard, ih]

theorem units_filter_isHeard (packets : List Packet) :
    units Packet.unitStart (packets.filter Packet.isHeard) =
      (units Packet.opensUnit packets).map PayloadUnit.heard := by
  induction packets with
  | nil => rfl
  | cons p packets ih =>
      cases hheard : p.isHeard with
      | false =>
          rw [List.filter_cons_of_neg (by simp [hheard]),
            units_cons_of_not_opens (by simp [Packet.opensUnit, hheard]), ih]
      | true =>
          rw [List.filter_cons_of_pos hheard]
          cases hstart : p.unitStart with
          | true =>
              rw [units_cons_of_opens hstart,
                units_cons_of_opens
                  (by simp [Packet.opensUnit, hheard, hstart]), List.map_cons,
                ih, takeWhile_filter_isHeard]
              rfl
          | false =>
              rw [units_cons_of_not_opens hstart,
                units_cons_of_not_opens (by simp [Packet.opensUnit, hstart]),
                ih]

theorem sections_feed_units (packets : List Packet) :
    (SectionAssembler.idle.feed packets).2 =
      (units Packet.opensUnit packets).flatMap (fun u => u.heard.sections) := by
  have hheard :=
    (SectionAssembler.sections_feed_heard (packets.filter Packet.isHeard)
      (fun p hp => (List.mem_filter.mp hp).right)).left
  rw [SectionAssembler.feed_filter_isHeard] at hheard
  rw [hheard, sectionsByUnit, units_filter_isHeard, List.flatMap_map]

end TransportStream
