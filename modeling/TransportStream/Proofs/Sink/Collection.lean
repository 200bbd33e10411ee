import TransportStream.Proofs.Sink.Acceptance

/-!
# Sinks that may fail

Whatever a sink does with its offers, it holds a front of what is written to it.
It holds all of that unless writing fails, and into a sink that accepts
everything writing does not fail.  A sink with little room holds as many bytes
as it has room for, and writing more fails the way it fails once it is full.
-/

namespace TransportStream
namespace Sink

variable {κ : Type}

/-- An answer to an offer that was not empty, by a sink with room for so many
bytes that goes on in a given way. -/
def TakesWithin (R : Nat -> κ -> Prop) (failure : IoFailure) :
    Nat -> Acceptance × κ -> Prop
  | 0, (.failed failure', _) => failure' = failure
  | room + 1, (.taken (size + 1), k) => size ≤ room ∧ R (room - size) k
  | _, _ => False

theorem TakesWithin.mono {R S : Nat -> κ -> Prop} {failure : IoFailure}
    (hRS : forall room k, R room k -> S room k) {room : Nat}
    {answer : Acceptance × κ} (h : TakesWithin R failure room answer) :
    TakesWithin S failure room answer := by
  rcases answer with ⟨size | failure', k⟩
  · cases room with
    | zero => exact h
    | succ room =>
        cases size with
        | zero => exact h
        | succ size => exact ⟨h.left, hRS _ k h.right⟩
  · cases room with
    | zero => exact h
    | succ room => exact h

variable [Sink κ]

/-- A sink that takes so many bytes, however they are offered, and fails
then. -/
def FillsUp (failure : IoFailure) (room : Nat) (k : κ) : Prop :=
  failure ≠ .interrupted ∧ exists R : Nat -> κ -> Prop,
    (forall room k, R room k -> forall b offer,
      TakesWithin R failure room (Sink.write k (b :: offer))) ∧ R room k

theorem FillsUp.takesWithin {failure : IoFailure} {room : Nat} {k : κ}
    (h : FillsUp failure room k) (b : UInt8) (offer : Bytes) :
    TakesWithin (FillsUp failure) failure room (Sink.write k (b :: offer)) := by
  rcases h with ⟨hfailure, R, hstep, hR⟩
  apply TakesWithin.mono _ (hstep room k hR b offer)
  intro room' k' hR'
  exact ⟨hfailure, R, hstep, hR'⟩

structure Fills (failure : IoFailure) (room : Nat) (k : κ) (data : Bytes)
    (failure? : Option IoFailure) (k' : κ) : Prop where
  within : data.length ≤ room ->
    failure? = none ∧ FillsUp failure (room - data.length) k'
  beyond : room < data.length ->
    failure? = some failure ∧ contents k' = contents k ++ data.take room

theorem fills_writeAll {failure : IoFailure} {room : Nat} {k : κ}
    (h : FillsUp failure room k) (data : Bytes) :
    Fills failure room k data (writeAll k data).1 (writeAll k data).2 := by
  fun_induction writeAll k data generalizing room with
  | case1 k =>
      exact ⟨fun _ => ⟨rfl, h⟩, fun hroom => absurd hroom (Nat.not_lt_zero _)⟩
  | case2 k b rest k' hwrite =>
      have hanswer := h.takesWithin b rest
      rw [hwrite] at hanswer
      cases room with
      | zero => exact absurd hanswer id
      | succ room => exact absurd hanswer id
  | case3 k b rest size k' hwrite ih =>
      have hanswer := h.takesWithin b rest
      rw [hwrite] at hanswer
      cases room with
      | zero => exact absurd hanswer id
      | succ room =>
          rcases hanswer with ⟨hsize, hlater⟩
          have hlength : ((b :: rest).drop (size + 1)).length =
              (b :: rest).length - (size + 1) := List.length_drop
          have htaken : size + 1 ≤ (b :: rest).length :=
            Sink.size_le_of_write hwrite
          rcases ih hlater with ⟨hwithin, hbeyond⟩
          constructor
          · intro hroom
            rcases hwithin (by lia) with ⟨hnone, hfills⟩
            rw [hlength, show room - size - ((b :: rest).length - (size + 1)) =
              room + 1 - (b :: rest).length by lia] at hfills
            exact ⟨hnone, hfills⟩
          · intro hroom
            rcases hbeyond (by lia) with ⟨hsome, hcontents⟩
            refine ⟨hsome, ?_⟩
            rw [hcontents, Sink.contents_of_taken hwrite, List.append_assoc,
              show room + 1 = size + 1 + (room - size) by lia, List.take_add]
  | case4 k b rest k' hwrite hpatience ih =>
      have hanswer := h.takesWithin b rest
      rw [hwrite] at hanswer
      cases room with
      | zero => exact absurd hanswer.symm h.left
      | succ room => exact absurd hanswer id
  | case5 k b rest failure' k' hnot hwrite =>
      have hanswer := h.takesWithin b rest
      rw [hwrite] at hanswer
      cases room with
      | zero =>
          refine ⟨fun hroom => absurd hroom (Nat.not_succ_le_zero _), ?_⟩
          refine fun _ => ⟨congrArg some hanswer, ?_⟩
          rw [Sink.contents_of_failed hwrite, List.take_zero, List.append_nil]
      | succ room => exact absurd hanswer id

/-- What a sink holds behind an attempt to write some bytes. -/
structure Collects (k : κ) (data : Bytes) (failure? : Option IoFailure)
    (k' : κ) : Prop where
  front : exists taken, contents k' = contents k ++ taken ∧ taken <+: data ∧
    (failure? = none -> taken = data)
  willing : AcceptsAll k -> failure? = none ∧ AcceptsAll k'
  filling : forall {failure : IoFailure} {room : Nat}, FillsUp failure room k ->
    Fills failure room k data failure? k'

namespace Collects

theorem nothing (k : κ) : Collects k [] none k where
  front := ⟨[], (List.append_nil _).symm, List.prefix_rfl, fun _ => rfl⟩
  willing := fun h => ⟨rfl, h⟩
  filling := fun h =>
    ⟨fun _ => ⟨rfl, h⟩, fun hroom => absurd hroom (Nat.not_lt_zero _)⟩

theorem failed {k k' : κ} {data : Bytes} {failure : IoFailure}
    (h : Collects k data (some failure) k') (later : Bytes) :
    Collects k (data ++ later) (some failure) k' where
  front := by
    rcases h.front with ⟨taken, hcontents, hfront, _⟩
    refine ⟨taken, hcontents, hfront.trans (List.prefix_append data later), ?_⟩
    intro hnone
    cases hnone
  willing := h.willing
  filling := by
    intro failure' room hfills
    rcases h.filling hfills with ⟨hwithin, hbeyond⟩
    have hshort : room < data.length := by
      apply Nat.lt_of_not_le
      intro hroom
      cases (hwithin hroom).left
    rcases hbeyond hshort with ⟨hsame, hcontents⟩
    constructor
    · intro hroom
      rw [List.length_append] at hroom
      lia
    · intro _
      rw [List.take_append_of_le_length (Nat.le_of_lt hshort)]
      exact ⟨hsame, hcontents⟩

theorem append {k k1 k' : κ} {data later : Bytes} {failure? : Option IoFailure}
    (h : Collects k data none k1) (hlater : Collects k1 later failure? k') :
    Collects k (data ++ later) failure? k' where
  front := by
    rcases h.front with ⟨taken, hcontents, _, hall⟩
    rcases hlater.front with ⟨taken', hcontents', hfront', hall'⟩
    have htaken := hall rfl
    subst htaken
    refine ⟨taken ++
      taken', ?_, (List.prefix_append_right_inj taken).mpr hfront', ?_⟩
    · rw [hcontents', hcontents, List.append_assoc]
    · intro hnone
      rw [hall' hnone]
  willing := fun haccepts => hlater.willing (h.willing haccepts).right
  filling := by
    intro failure room hfills
    rcases h.filling hfills with ⟨hwithin, hbeyond⟩
    have hroom : data.length ≤ room := by
      apply Nat.le_of_not_lt
      intro hshort
      cases (hbeyond hshort).left
    rcases h.front with ⟨taken, hcontents, _, hall⟩
    have htaken := hall rfl
    subst htaken
    rcases hlater.filling (hwithin hroom).right with ⟨hwithin', hbeyond'⟩
    rw [Nat.sub_sub, ← List.length_append] at hwithin'
    constructor
    · intro hfits
      rw [List.length_append] at hfits
      exact hwithin' (by lia)
    · intro hshort
      rw [List.length_append] at hshort
      rcases hbeyond' (by lia) with ⟨hsome, hcontents'⟩
      refine ⟨hsome, ?_⟩
      rw [hcontents', hcontents, List.append_assoc, List.take_append,
        List.take_of_length_le hroom]

end Collects

theorem contents_writeAll (k : κ) (data : Bytes) :
    exists taken, contents (writeAll k data).2 = contents k ++ taken ∧
      taken <+: data ∧
      ((writeAll k data).1 = none -> taken = data) := by
  fun_induction writeAll k data with
  | case1 k =>
      exact ⟨[], (List.append_nil _).symm, List.prefix_rfl, fun _ => rfl⟩
  | case2 k b rest k' hwrite =>
      refine ⟨[], Sink.contents_of_taken hwrite, List.nil_prefix, ?_⟩
      intro hnone
      cases hnone
  | case3 k b rest size k' hwrite ih =>
      rcases ih with ⟨taken, hcontents, hfront, hall⟩
      refine ⟨(b :: rest).take (size + 1) ++ taken, ?_, ?_, ?_⟩
      · rw [hcontents, Sink.contents_of_taken hwrite, List.append_assoc]
      · have hwhole :=
          (List.prefix_append_right_inj ((b :: rest).take (size + 1))).mpr
            hfront
        rw [List.take_append_drop] at hwhole
        exact hwhole
      · intro hnone
        rw [hall hnone, List.take_append_drop]
  | case4 k b rest k' hwrite hpatience ih =>
      rw [← Sink.contents_of_failed hwrite]
      exact ih
  | case5 k b rest failure k' hnot hwrite =>
      refine ⟨[], ?_, List.nil_prefix, ?_⟩
      · rw [Sink.contents_of_failed hwrite, List.append_nil]
      · intro hnone
        cases hnone

theorem collects_writeAll (k : κ) (data : Bytes) :
    Collects k data (writeAll k data).1 (writeAll k data).2 where
  front := contents_writeAll k data
  willing := by
    intro haccepts
    rcases writeAll_of_acceptsAll haccepts data with ⟨k', hwrite, haccepts', _⟩
    rw [hwrite]
    exact ⟨rfl, haccepts'⟩
  filling := fun hfills => fills_writeAll hfills data

end Sink

theorem Tray.fillsUp {t : Tray} {room : Nat} {text : String}
    (hroom : t.room = some room) (hfull : t.whenFull = .fail text) :
    Sink.FillsUp (.other text) room t := by
  refine ⟨nofun, fun room t => t.room = some room ∧ t.whenFull = .fail text, ?_,
    hroom, hfull⟩
  rintro room t ⟨hroom, hfull⟩ b offer
  show Sink.TakesWithin _ _ room (t.write (b :: offer))
  cases room with
  | zero =>
      rw [write, hroom, hfull]
      rfl
  | succ room =>
      have hshare : 0 < t.share (b :: offer).length ∧
          t.share (b :: offer).length ≤ room + 1 := by
        simp only [share, hroom, List.length_cons]
        split
        · lia
        · lia
      rcases Nat.exists_eq_succ_of_ne_zero (Nat.ne_of_gt hshare.left) with
        ⟨size, hsize⟩
      rw [hsize] at hshare
      have hwrite : t.write (b :: offer) = t.take (b :: offer) := by
        rw [write, hroom]
        rfl
      simp only [hwrite, take, hsize, hroom, Option.map_some]
      refine ⟨Nat.le_of_succ_le_succ hshare.right, ?_, hfull⟩
      rw [Nat.add_sub_add_right]

end TransportStream
