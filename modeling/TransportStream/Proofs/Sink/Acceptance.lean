import TransportStream.Sink.Tray

/-!
# Sinks that accept everything

A sink accepts everything when it takes some bytes of every offer, interruptions
aside, and can be flushed.  Whatever is written to it in full then stands behind
what it held.
-/

namespace TransportStream

namespace Sink

variable {κ : Type}

/-- An answer to an offer that was not empty, by a sink that goes on in a given
way. -/
def TakesSome (R : κ -> Prop) : Acceptance × κ -> Prop
  | (.taken (_ + 1), k) => R k
  | (.failed .interrupted, k) => R k
  | _ => False

theorem TakesSome.mono {R S : κ -> Prop} (hRS : forall k, R k -> S k)
    {answer : Acceptance × κ} (h : TakesSome R answer) :
    TakesSome S answer := by
  rcases answer with ⟨size | failure, k⟩
  · cases size with
    | zero => exact h
    | succ size => exact hRS k h
  · cases failure
    case interrupted => exact hRS k h
    all_goals exact h

variable [Sink κ]

/-- A sink that takes some of every offer, and is flushed without failure. -/
def AcceptsAll (k : κ) : Prop :=
  exists R : κ -> Prop,
    (forall k, R k ->
      (forall b offer, TakesSome R (Sink.write k (b :: offer))) ∧
      (Sink.flush k).1 = none) ∧ R k

namespace AcceptsAll

theorem takesSome {k : κ} (h : AcceptsAll k) (b : UInt8) (offer : Bytes) :
    TakesSome AcceptsAll (Sink.write k (b :: offer)) := by
  rcases h with ⟨R, hstep, hR⟩
  apply TakesSome.mono _ ((hstep k hR).left b offer)
  intro k' hR'
  exact ⟨R, hstep, hR'⟩

theorem flush_eq_none {k : κ} (h : AcceptsAll k) : (Sink.flush k).1 = none := by
  rcases h with ⟨R, hstep, hR⟩
  exact (hstep k hR).right

end AcceptsAll

theorem writeAll_of_acceptsAll {k : κ} (h : AcceptsAll k) (data : Bytes) :
    exists k', writeAll k data = (none, k') ∧ AcceptsAll k' ∧
      Sink.contents k' = Sink.contents k ++ data := by
  fun_induction writeAll k data with
  | case1 k => exact ⟨k, rfl, h, (List.append_nil _).symm⟩
  | case2 k b rest k' hwrite =>
      have hsome := h.takesSome b rest
      rw [hwrite] at hsome
      exact absurd hsome id
  | case3 k b rest size k' hwrite ih =>
      have hsome := h.takesSome b rest
      rw [hwrite] at hsome
      rcases ih hsome with ⟨k'', hall, haccepts, hcontents⟩
      refine ⟨k'', hall, haccepts, ?_⟩
      rw [hcontents, Sink.contents_of_taken hwrite, List.append_assoc,
        List.take_append_drop]
  | case4 k b rest k' hwrite hpatience ih =>
      have hsome := h.takesSome b rest
      rw [hwrite] at hsome
      rcases ih hsome with ⟨k'', hall, haccepts, hcontents⟩
      refine ⟨k'', hall, haccepts, ?_⟩
      rw [hcontents, Sink.contents_of_failed hwrite]
  | case5 k b rest failure k' hnot hwrite =>
      have hsome := h.takesSome b rest
      rw [hwrite] at hsome
      cases failure
      case interrupted => exact absurd rfl hnot
      all_goals exact absurd hsome id

end Sink

/-!
## Trays
-/

namespace Tray

theorem take_takesSome {R : Tray -> Prop} {t : Tray} (hroom : t.room = none)
    (b : UInt8) (offer : Bytes)
    (hR : forall portions, R ⟨portions, none, t.portion, t.whenFull,
      t.flushFailure⟩) :
    Sink.TakesSome R (t.take (b :: offer)) := by
  have hshare : 0 < t.share (b :: offer).length := by
    simp only [share, hroom, List.length_cons]
    split
    · lia
    · lia
  simp only [take, hroom, Option.map_none]
  rcases Nat.exists_eq_succ_of_ne_zero (Nat.ne_of_gt hshare) with ⟨size, hsize⟩
  rw [hsize]
  exact hR _

theorem acceptsAll {t : Tray} (hroom : t.room = none)
    (hflush : t.flushFailure = none) :
    Sink.AcceptsAll t := by
  refine ⟨fun t => t.room = none ∧ t.flushFailure = none, ?_, hroom, hflush⟩
  intro t hR
  rcases hR with ⟨hroom, hflush⟩
  constructor
  · intro b offer
    show Sink.TakesSome _ (t.write (b :: offer))
    have hwrite : t.write (b :: offer) = t.take (b :: offer) := by
      rw [write, hroom]
    rw [hwrite]
    apply take_takesSome hroom b offer
    intro portions
    exact ⟨rfl, hflush⟩
  · exact hflush

end Tray
end TransportStream
