import TransportStream.Proofs.Filter.Conservation
import TransportStream.Proofs.Filter.Runs

/-!
# The sections of the filter's output

A reader of association packets finds its sections unit by unit, whatever the
filter takes for runs.  This module says what becomes of the sections of every
unit: the first section of a settled run is reduced, sections behind it are
overwritten by stuffing or, if the reduced section fills the run, read as
before, and the sections of any other unit are untouched.
-/

namespace TransportStream

open TransportStream.Filter

/-!
## What becomes of a unit
-/

def Filter.leavesRoom (pmtPids : PidSet) (run : List Packet) : Bool :=
  match Pat.spanOf run with
  | .complete start stop =>
      start + (Pat.reduceSection pmtPids
        (((Pat.joined run).drop start).take (stop - start))).length <
          (Pat.joined run).length
  | _ => false

namespace PayloadUnit

def run? (u : PayloadUnit) : Option (List Packet) :=
  settledRun? [u.start] u.later

def reduced (pmtPids : PidSet) (u : PayloadUnit) : List Bytes :=
  match u.run? with
  | none => []
  | some _ => (u.heard.sections.take 1).map (Pat.reduceSection pmtPids)

/-- The sections of a unit that a reader still finds as they were. -/
def untouched (pmtPids : PidSet) (u : PayloadUnit) : List Bytes :=
  match u.run? with
  | none => u.heard.sections
  | some run => if leavesRoom pmtPids run then [] else u.heard.sections.tail

/-- The sections of a unit that a reader finds no more. -/
def erased (pmtPids : PidSet) (u : PayloadUnit) : List Bytes :=
  match u.run? with
  | none => []
  | some run => if leavesRoom pmtPids run then u.heard.sections.tail else []

end PayloadUnit

/-!
## Sections and stuffing at the front
-/

theorem front_of_isSection {old : Bytes} (h : Pat.IsSection old)
    (hstuff : old.head? ≠ some stuffingByte) :
    front old = .complete old.length := by
  cases old with
  | nil => cases h.left
  | cons tableId rest =>
      have htable : tableId ≠ stuffingByte := fun heq =>
        hstuff (congrArg some heq)
      simp only [front, if_neg htable, h.left, if_neg (Nat.lt_irrefl _)]

theorem wholeSections_append_of_isSection {old : Bytes} (h : Pat.IsSection old)
    (hstuff : old.head? ≠ some stuffingByte) (more : Bytes) :
    wholeSections (old ++ more) = old :: wholeSections more := by
  rw [wholeSections_of_complete
    (front_append_of_complete (front_of_isSection h hstuff) more),
    List.take_left, List.drop_left]

/-!
## Packets that open no unit
-/

theorem isHeard_of_sameOutsidePayload {p q : Packet}
    (h : Packet.SameOutsidePayload p q) :
    q.isHeard = p.isHeard := by
  rcases Packet.sameOutsidePayload_iff.mp h with ⟨hsecond, _, _, _⟩
  have hlength : q.payload.length = p.payload.length := by
    rw [Packet.length_payload, Packet.length_payload,
      Packet.payloadOffset_of_sameOutsidePayload h]
  have hempty : q.payload.isEmpty = p.payload.isEmpty := by
    rw [Bool.eq_iff_iff, List.isEmpty_iff_length_eq_zero,
      List.isEmpty_iff_length_eq_zero, hlength]
  rw [Packet.isHeard, Packet.isHeard, hempty, Packet.transportError,
    Packet.transportError, Packet.unitStart, Packet.unitStart, hsecond]

theorem opensUnit_of_sameOutsidePayload {p q : Packet}
    (h : Packet.SameOutsidePayload p q) :
    q.opensUnit = p.opensUnit := by
  rcases Packet.sameOutsidePayload_iff.mp h with ⟨hsecond, _, _, _⟩
  rw [Packet.opensUnit, Packet.opensUnit, isHeard_of_sameOutsidePayload h,
    Packet.unitStart, Packet.unitStart, hsecond]

theorem filter_isHeard_letGo {p : Packet} (hp : p.opensUnit = false)
    (pmtPids : PidSet) :
    (letGo pmtPids [p]).filter Packet.isHeard = [p].filter Packet.isHeard := by
  cases hstart : p.unitStart with
  | false => rw [letGo_of_later hstart]
  | true =>
      have hheard : p.isHeard = false := by
        rw [Packet.opensUnit, hstart, Bool.and_true] at hp
        exact hp
      have hsame := forall₂_letGo pmtPids [p]
      cases hlet : letGo pmtPids [p] with
      | nil =>
          rw [hlet] at hsame
          cases hsame
      | cons q later =>
          rw [hlet] at hsame
          cases hsame with
          | cons hq hlater =>
              cases hlater
              rw [List.filter_cons_of_neg, List.filter_cons_of_neg]
              · simp [hheard]
              · simp [isHeard_of_sameOutsidePayload hq, hheard]

theorem opensRun_of_not_opensUnit {p : Packet} (hp : p.opensUnit = false) :
    opensRun p = false := by
  cases hopens : opensRun p with
  | false => rfl
  | true =>
      simp only [opensRun, Bool.and_eq_true, Bool.not_eq_true', beq_iff_eq]
        at hopens
      rcases hopens with ⟨⟨hstart, herror⟩, hspan⟩
      have hpayload : p.payload = [] := by
        simpa [Packet.opensUnit, Packet.isHeard, hstart, herror] using hp
      simp only [Pat.spanOf, Pat.joined, List.flatMap_cons, List.flatMap_nil,
        hpayload] at hspan
      cases hspan

theorem filter_isHeard_patOutput {packets : List Packet}
    (h : forall p, p ∈ packets -> p.opensUnit = false) (pmtPids : PidSet) :
    (patOutput pmtPids [] packets).filter Packet.isHeard =
      packets.filter Packet.isHeard := by
  induction packets with
  | nil => rfl
  | cons p packets ih =>
      have hp := h p List.mem_cons_self
      rw [patOutput_cons_of_alone (accepts_nil p)
        (opensRun_of_not_opensUnit hp), List.nil_append,
        List.filter_append, filter_isHeard_letGo hp,
        ih (fun q hq => h q (List.mem_cons_of_mem p hq)), ← List.filter_append]
      rfl

theorem forall_not_opensUnit {packets later : List Packet}
    (h : forall p, p ∈ packets -> p.opensUnit = false)
    (hlater : later.filter Packet.isHeard = packets.filter Packet.isHeard) :
    forall p, p ∈ later -> p.opensUnit = false := by
  intro p hp
  cases hopens : p.opensUnit with
  | false => rfl
  | true =>
      have hmem : p ∈ packets.filter Packet.isHeard := by
        rw [← hlater]
        exact List.mem_filter.mpr ⟨hp, Packet.isHeard_of_opensUnit hopens⟩
      have hno := h p (List.mem_filter.mp hmem).left
      rw [hopens] at hno
      exact hno

/-!
## Units with a settled run
-/

theorem sections_heard_of_consecutive {first : Packet} {later : List Packet}
    {pointer : UInt8} {tail : Bytes}
    (hpayload : first.payload = pointer :: tail)
    (hpointer : pointer.toNat ≤ tail.length)
    (hlater : Consecutive first.counter later) (rest : List Packet) :
    (PayloadUnit.mk first (later ++ rest)).heard.sections =
      wholeSections ((Pat.joined (first :: later)).drop (1 + pointer.toNat) ++
        continuation (lastCounter first.counter later)
          (rest.filter Packet.isHeard)) := by
  have hheard : later.filter Packet.isHeard = later :=
    List.filter_eq_self.mpr (isHeard_of_consecutive hlater)
  have hjoined : (Pat.joined (first :: later)).drop (1 + pointer.toNat) =
      tail.drop pointer.toNat ++ Pat.joined later := by
    rw [Pat.joined_cons, hpayload, List.cons_append, Nat.add_comm,
      List.drop_succ_cons, List.drop_append_of_le_length hpointer]
  rw [PayloadUnit.heard, List.filter_append, hheard, PayloadUnit.sections,
    PayloadUnit.bytes?]
  dsimp only
  rw [hpayload]
  dsimp only
  rw [if_neg (Nat.not_lt.mpr hpointer),
    continuation_append hlater first.counter_lt, hjoined, List.append_assoc]

theorem exists_payload_writePayload {p : Packet} {pointer : UInt8}
    {tail data : Bytes} (hpayload : p.payload = pointer :: tail)
    (hhead : data.head? = some pointer)
    (hlength : p.payload.length ≤ data.length) :
    exists tail' : Bytes,
      (p.writePayload (data.take p.payload.length)).payload = pointer :: tail' ∧
        tail'.length = tail.length := by
  have htake : (data.take p.payload.length).length = p.payload.length := by
    rw [List.length_take, Nat.min_eq_left hlength]
  rcases List.head?_eq_some_iff.mp hhead with ⟨rest, rfl⟩
  rw [Packet.payload_writePayload_of_length htake]
  rw [hpayload, List.length_cons] at hlength ⊢
  refine ⟨rest.take tail.length, List.take_succ_cons, ?_⟩
  rw [List.length_take, Nat.min_eq_left (Nat.le_of_succ_le_succ hlength)]

theorem sections_heard_layOver {first : Packet} {later : List Packet}
    {pointer : UInt8} {tail data : Bytes}
    (hpayload : first.payload = pointer :: tail)
    (hpointer : pointer.toNat ≤ tail.length)
    (hlater : Consecutive first.counter later)
    (hhead : data.head? = some pointer)
    (hlength : data.length = (Pat.joined (first :: later)).length)
    (rest : List Packet) :
    (PayloadUnit.mk (first.writePayload (data.take first.payload.length))
        (Pat.layOver later (data.drop first.payload.length) ++
          rest)).heard.sections =
      wholeSections (data.drop (1 + pointer.toNat) ++
        continuation (lastCounter first.counter later)
          (rest.filter Packet.isHeard)) := by
  have hfits : first.payload.length ≤ data.length := by
    rw [hlength, Pat.joined_cons, List.length_append]
    exact Nat.le_add_right _ _
  rcases exists_payload_writePayload hpayload hhead hfits with
    ⟨tail', hpayload', htail'⟩
  rw [← htail'] at hpointer
  rw [sections_heard_of_consecutive hpayload' hpointer
      (consecutive_layOver hlater (data.drop first.payload.length)) rest,
    ← Pat.layOver_cons, Pat.joined_layOver hlength, lastCounter_layOver]
  rfl

/-- A run with a whole section before and after it is let go.  The same pointer
leads to the section and to the reduced one; `room` bytes of stuffing are behind
that. -/
theorem letGo_of_settled {first : Packet} {later : List Packet}
    {start stop : Nat} (hfirst : first.unitStart = true)
    (hspan : Pat.spanOf (first :: later) = .complete start stop)
    (pmtPids : PidSet) :
    exists (pointer : UInt8) (tail old behind data : Bytes) (room : Nat),
      first.payload = pointer :: tail ∧ pointer.toNat < tail.length ∧
      Pat.IsSection old ∧
        (Pat.joined (first :: later)).drop (1 + pointer.toNat) = old ++ behind ∧
        letGo pmtPids (first :: later) = Pat.layOver (first :: later) data ∧
        data.length = (Pat.joined (first :: later)).length ∧
        data.head? = some pointer ∧
        data.drop (1 + pointer.toNat) =
          Pat.reduceSection pmtPids old ++ List.replicate room stuffingByte ∧
        leavesRoom pmtPids (first :: later) = decide (room ≠ 0) ∧
          (room = 0 -> behind = []) := by
  rcases Pat.spanOf_eq_complete hspan with
    ⟨pointer, tail, old, behind, hpayload, hstart, hpointer, hold, hstop, hdrop⟩
  rcases Pat.reduceSection_of_isSection hold pmtPids with ⟨_, hshorter, _⟩
  have hold' : ((Pat.joined (first :: later)).drop start).take (stop - start) =
      old := by
    rw [hdrop, hstop, Nat.add_sub_cancel_left, List.take_left]
  have hinside : start ≤ (Pat.joined (first :: later)).length := by
    rw [Pat.joined_cons, hpayload, hstart, List.length_append, List.length_cons]
    lia
  have hlength := congrArg List.length hdrop
  rw [List.length_drop, List.length_append] at hlength
  subst hstart
  refine ⟨pointer, tail, old, behind,
    Pat.replaceSection (Pat.joined (first :: later)) (1 + pointer.toNat)
    (Pat.reduceSection pmtPids old), _, hpayload, hpointer, hold, hdrop, ?_,
    Pat.length_replaceSection (by lia), ?_, Pat.drop_replaceSection hinside _,
    ?_, ?_⟩
  · rw [letGo_of_complete hfirst hspan, Pat.reduceSpan]
    dsimp only
    rw [hold']
  · rw [Pat.head?_replaceSection (by lia) hinside, Pat.joined_cons, hpayload]
    rfl
  · unfold leavesRoom
    rw [hspan]
    dsimp only
    rw [hold', decide_eq_decide]
    lia
  · intro hroom
    apply List.eq_nil_of_length_eq_zero
    lia

theorem wholeSections_reduceSection {old behind : Bytes} {room : Nat}
    (hold : Pat.IsSection old) (hroom : room = 0 -> behind = [])
    (pmtPids : PidSet) (more : Bytes) :
    wholeSections (Pat.reduceSection pmtPids old ++
      (List.replicate room stuffingByte ++ more)) =
      ((wholeSections (old ++ (behind ++ more))).take 1).map
        (Pat.reduceSection pmtPids) ++
        if room = 0 then (wholeSections (old ++ (behind ++ more))).tail
        else [] := by
  rcases Pat.reduceSection_of_isSection hold pmtPids with ⟨hreduced, _, hhead⟩
  -- A section of stuffing is reduced like any other, but it is never read.
  by_cases hstuff : old.head? = some stuffingByte
  · have hnone : forall bytes later : Bytes, bytes.head? = some stuffingByte ->
        wholeSections (bytes ++ later) = [] := by
      intro bytes later h
      apply wholeSections_of_head
      rw [List.head?_append, h]
      rfl
    rw [hnone _ _ (hhead.trans hstuff), hnone _ _ hstuff]
    simp
  · have hstuff' :
        (Pat.reduceSection pmtPids old).head? ≠ some stuffingByte := by
      rw [hhead]
      exact hstuff
    rw [wholeSections_append_of_isSection hreduced hstuff',
      wholeSections_append_of_isSection hold hstuff,
      wholeSections_replicate_append]
    by_cases hnone : room = 0
    · rw [if_pos hnone, if_pos hnone, hroom hnone]
      rfl
    · rw [if_neg hnone, if_neg hnone]
      rfl

/-!
## Unit by unit
-/

/-- What the filter writes for a unit is another unit, with the sections that
are left of it. -/
structure PayloadUnit.Becomes (pmtPids : PidSet) (u v : PayloadUnit) :
    Prop where
  packets : patOutput pmtPids [] (u.start :: u.later) = v.start :: v.later
  opens : v.start.opensUnit = true
  later : forall q, q ∈ v.later -> q.opensUnit = false
  sections : v.heard.sections = u.reduced pmtPids ++ u.untouched pmtPids

theorem exists_becomes_of_settled {u : PayloadUnit} {run : List Packet}
    (hrun : u.run? = some run) (hopens : u.start.opensUnit = true)
    (hlater : forall q, q ∈ u.later -> q.opensUnit = false) (pmtPids : PidSet) :
    exists v, PayloadUnit.Becomes pmtPids u v := by
  have hstart := Packet.unitStart_of_opensUnit hopens
  rcases settledRun?_eq_some_iff.mp hrun with
    ⟨later, rest, hpackets, rfl, hisRun⟩
  rcases hisRun.complete with ⟨start, stop, hspan⟩
  have hconsecutive := hisRun.consecutive
  rcases letGo_of_settled hstart hspan pmtPids with
    ⟨pointer, tail, old, behind, data, room, hpayload, hpointer, hold, hdrop,
      hlet, hlength, hhead, hback, hroom, hfull⟩
  have hrest : forall q, q ∈ rest -> q.opensUnit = false := by
    intro q hq
    apply hlater
    rw [hpackets]
    exact List.mem_append_right _ hq
  have hheard := filter_isHeard_patOutput hrest pmtPids
  -- The run under other bytes, and what is written behind it, are the packets
  -- of the new unit.
  refine ⟨⟨u.start.writePayload (data.take u.start.payload.length),
    Pat.layOver later (data.drop u.start.payload.length) ++
      patOutput pmtPids [] rest⟩,
    ?_, ?_, ?_, ?_⟩
  · have houtput : outputHolding pmtPids [u.start] (later ++ rest) = _ :=
      outputHolding_of_isRun hisRun pmtPids rest
    rw [patOutput_nil_cons_of_start hstart
      (Packet.transportError_of_opensUnit hopens), hpackets,
      houtput, List.nil_append, hlet, Pat.layOver_cons, List.cons_append]
  · rw [opensUnit_of_sameOutsidePayload
      (Packet.sameOutsidePayload_writePayload u.start _)]
    exact hopens
  · intro q hq
    rcases List.mem_append.mp hq with hmem | hmem
    · rw [Packet.opensUnit,
        unitStart_of_consecutive (consecutive_layOver hconsecutive _) q hmem,
        Bool.and_false]
    · exact forall_not_opensUnit hrest hheard q hmem
  · have hunit : u = ⟨u.start, later ++ rest⟩ := by rw [← hpackets]
    have hinside := Nat.le_of_lt hpointer
    have hsections :=
      sections_heard_of_consecutive hpayload hinside hconsecutive rest
    rw [← hunit, hdrop, List.append_assoc] at hsections
    rw [sections_heard_layOver hpayload hinside hconsecutive hhead hlength,
      hheard, hback, List.append_assoc, wholeSections_reduceSection hold hfull,
      ← hsections, PayloadUnit.reduced, PayloadUnit.untouched, hrun]
    dsimp only
    rw [hroom]
    by_cases hnone : room = 0
    · simp [hnone]
    · simp [hnone]

theorem exists_becomes_of_not_settled {u : PayloadUnit} (hrun : u.run? = none)
    (hopens : u.start.opensUnit = true)
    (hlater : forall q, q ∈ u.later -> q.opensUnit = false) (pmtPids : PidSet) :
    exists v, PayloadUnit.Becomes pmtPids u v := by
  rcases outputHolding_of_not_settled hrun pmtPids with
    ⟨more, rest, hpackets, houtput⟩
  have houtput := houtput rest (forall₂_refl rest)
  rw [← hpackets] at houtput
  have hrest : forall q, q ∈ rest -> q.opensUnit = false := by
    intro q hq
    apply hlater
    rw [hpackets]
    exact List.mem_append_right _ hq
  have hheard : (more ++ patOutput pmtPids [] rest).filter Packet.isHeard =
      u.later.filter Packet.isHeard := by
    rw [hpackets, List.filter_append, List.filter_append,
      filter_isHeard_patOutput hrest]
  refine ⟨⟨u.start, more ++ patOutput pmtPids [] rest⟩, ?_, hopens,
    forall_not_opensUnit hlater hheard, ?_⟩
  · rw [patOutput_nil_cons_of_start (Packet.unitStart_of_opensUnit hopens)
      (Packet.transportError_of_opensUnit hopens), houtput, List.append_assoc]
    rfl
  · rw [PayloadUnit.reduced, PayloadUnit.untouched, hrun, PayloadUnit.heard,
      hheard]
    rfl

/-- The sections that a fresh assembler finds in what the filter writes. -/
theorem sections_feed_patOutput (pmtPids : PidSet) (packets : List Packet) :
    (SectionAssembler.idle.feed (patOutput pmtPids [] packets)).2 =
      (units Packet.opensUnit packets).flatMap
        (fun u => u.reduced pmtPids ++ u.untouched pmtPids) := by
  rw [sections_feed_units]
  induction packets using unit_induction Packet.opensUnit with
  | none packets hnone =>
      rw [units_of_forall hnone, units_of_forall
        (forall_not_opensUnit hnone (filter_isHeard_patOutput hnone pmtPids))]
      rfl
  | last front p later hopens hlater ih =>
      have hunit : exists v, PayloadUnit.Becomes pmtPids ⟨p, later⟩ v := by
        cases hrun : (PayloadUnit.mk p later).run? with
        | none => exact exists_becomes_of_not_settled hrun hopens hlater pmtPids
        | some run => exact exists_becomes_of_settled hrun hopens hlater pmtPids
      rcases hunit with ⟨v, hv⟩
      rw [patOutput_append_of_start (Packet.unitStart_of_opensUnit hopens),
        hv.packets, units_append_of_opens hv.opens,
        units_append_of_opens hopens, units_of_unit hv.opens hv.later,
        units_of_unit hopens hlater, List.flatMap_append, List.flatMap_append,
        ih, List.flatMap_singleton, List.flatMap_singleton, hv.sections]

end TransportStream
