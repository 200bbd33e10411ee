import Mathlib.Algebra.GroupWithZero.Nat
import TransportStream.Proofs.Source.Replay

/-!
# Requests one after the other

A recorder is asked for any numbers of bytes, and its replay for any others.
The replay first answers with the recording, and from the first request for at
least one byte that finds it used up the live source answers.  What the replay
delivers is therefore what the source delivers from its first byte on, whatever
the source is: it may fail or pretend to have ended in between.
-/

namespace TransportStream

def Delivery.data : Delivery -> Bytes
  | .bytes data => data
  | .failed _ => []

namespace Source

variable {ρ : Type} [Source ρ]

def answers (r : ρ) : List Nat -> List Delivery
  | [] => []
  | n :: ns => (read r n).1 :: answers (read r n).2 ns

def behind (r : ρ) : List Nat -> ρ
  | [] => r
  | n :: ns => behind (read r n).2 ns

def delivered (r : ρ) (ns : List Nat) : Bytes :=
  (answers r ns).flatMap Delivery.data

theorem answers_append (r : ρ) (ns later : List Nat) :
    answers r (ns ++ later) = answers r ns ++ answers (behind r ns) later := by
  induction ns generalizing r with
  | nil => rfl
  | cons n ns ih =>
      rw [List.cons_append, answers, ih]
      rfl

theorem behind_append (r : ρ) (ns later : List Nat) :
    behind r (ns ++ later) = behind (behind r ns) later := by
  induction ns generalizing r with
  | nil => rfl
  | cons n ns ih => exact ih (read r n).2

theorem delivered_cons (r : ρ) (n : Nat) (ns : List Nat) :
    delivered r (n :: ns) = (read r n).1.data ++ delivered (read r n).2 ns := by
  rw [delivered, answers, List.flatMap_cons]
  rfl

theorem delivered_append (r : ρ) (ns later : List Nat) :
    delivered r (ns ++ later) =
      delivered r ns ++ delivered (behind r ns) later := by
  rw [delivered, answers_append, List.flatMap_append]
  rfl

/-!
## Contents
-/

/-- A source delivers a byte string also if it is asked for nothing now and
then. -/
def HasContent (r : ρ) (content : Bytes) : Prop :=
  exists R : ρ -> Bytes -> Prop,
    (forall r content, R r content -> R (read r 0).2 content ∧
      forall n, 0 < n -> AnswersFor R content (read r n)) ∧ R r content

/-- That many requests for at least one byte deliver a byte string. -/
def YieldsWithin (enough : Nat) (r : ρ) (content : Bytes) : Prop :=
  forall ns, (forall n, n ∈ ns -> 0 < n) -> enough ≤ ns.length ->
    delivered r ns = content

theorem length_data_le (r : ρ) (n : Nat) : (read r n).1.data.length ≤ n := by
  cases h : read r n with
  | mk answer r' =>
      cases answer with
      | bytes data => exact length_le_of_read h
      | failed failure => exact Nat.zero_le n

namespace HasContent

variable {r : ρ} {content : Bytes} {n : Nat}

theorem zero (h : HasContent r content) : HasContent (read r 0).2 content := by
  rcases h with ⟨R, hstep, hR⟩
  exact ⟨R, hstep, (hstep r content hR).left⟩

theorem answers (h : HasContent r content) (hn : 0 < n) :
    AnswersFor HasContent content (read r n) := by
  rcases h with ⟨R, hstep, hR⟩
  apply AnswersFor.map rfl _ ((hstep r content hR).right n hn)
  intro rest hrest
  exact ⟨R, hstep, hrest⟩

theorem exists_read (h : HasContent r content) (n : Nat) :
    exists rest, content = (read r n).1.data ++ rest ∧
      HasContent (read r n).2 rest := by
  cases n with
  | zero =>
      have hnothing :=
        List.eq_nil_of_length_eq_zero (Nat.le_zero.mp (length_data_le r 0))
      refine ⟨content, ?_, h.zero⟩
      rw [hnothing]
      rfl
  | succ n =>
      have hanswer := h.answers (Nat.succ_pos n)
      rcases hread : read r (n + 1) with ⟨answer, r'⟩
      rw [hread] at hanswer
      cases answer with
      | bytes data =>
          rcases hanswer with ⟨rest, hbytes, _, hrest⟩
          exact ⟨rest, hbytes, hrest⟩
      | failed failure =>
          cases failure
          case interrupted => exact ⟨content, rfl, hanswer⟩
          all_goals exact absurd hanswer id

theorem exists_behind (h : HasContent r content) (ns : List Nat) :
    exists rest, content = delivered r ns ++ rest ∧
      HasContent (behind r ns) rest := by
  induction ns generalizing r content with
  | nil => exact ⟨content, rfl, h⟩
  | cons n ns ih =>
      rcases h.exists_read n with ⟨later, rfl, hlater⟩
      rcases ih hlater with ⟨rest, rfl, hrest⟩
      refine ⟨rest, ?_, hrest⟩
      rw [delivered_cons, List.append_assoc]

variable {remaining : ρ -> Nat}

theorem remaining_lt (h : HasContent r content) (hbound : IsBound remaining)
    (hn : 0 < n) (hleft : content ≠ []) :
    remaining (read r n).2 < remaining r := by
  have hanswer := h.answers hn
  rcases hread : read r n with ⟨answer, r'⟩
  rw [hread] at hanswer
  cases answer with
  | bytes data =>
      rcases hanswer with ⟨rest, _, hend, _⟩
      cases data with
      | nil => exact absurd (hend rfl) hleft
      | cons b data => exact hbound.lt_of_bytes hread
  | failed failure =>
      cases failure
      case interrupted => exact hbound.lt_of_interrupted hread
      all_goals exact absurd hanswer id

theorem yieldsWithin (h : HasContent r content) (hbound : IsBound remaining) :
    YieldsWithin (remaining r) r content := by
  intro ns hns henough
  induction ns generalizing r content with
  | nil =>
      by_cases hleft : content = []
      · exact hleft.symm
      · have hlt := h.remaining_lt hbound Nat.one_pos hleft
        exact absurd (Nat.lt_of_lt_of_le hlt henough) (Nat.not_lt_zero _)
  | cons n ns ih =>
      rcases h.exists_read n with ⟨rest, hcontent, hrest⟩
      rw [delivered_cons, hcontent]
      congr 1
      by_cases hleft : content = []
      · -- The source may go on asking for patience, but it delivers nothing.
        rw [hleft] at hcontent
        rcases hrest.exists_behind ns with ⟨later, hlater, _⟩
        rw [(List.append_eq_nil_iff.mp hcontent.symm).right] at hlater ⊢
        exact (List.append_eq_nil_iff.mp hlater.symm).left
      · have hlt := h.remaining_lt hbound (hns n List.mem_cons_self) hleft
        apply ih hrest fun m hm => hns m (List.mem_cons_of_mem n hm)
        exact Nat.le_of_lt_succ (Nat.lt_of_lt_of_le hlt henough)

end HasContent
end Source

variable {ρ : Type} [Source ρ]

open Source

/-!
## Recording
-/

namespace Recorder

def after (r : ρ) (requests : List Nat) : Recorder ρ :=
  behind (ofSource r) requests

theorem answers_eq (r : Recorder ρ) (ns : List Nat) :
    answers r ns = answers r.source ns := by
  induction ns generalizing r with
  | nil => rfl
  | cons n ns ih =>
      have hsource := source_read r n
      rw [answers, answers, ih, hsource]
      rfl

theorem source_behind (r : Recorder ρ) (ns : List Nat) :
    (behind r ns).source = behind r.source ns := by
  induction ns generalizing r with
  | nil => rfl
  | cons n ns ih =>
      have hsource := source_read r n
      rw [behind, behind, ih, hsource]
      rfl

theorem recorded_read (r : Recorder ρ) (n : Nat) :
    (r.read n).2.recorded = r.recorded ++ (Source.read r.source n).1.data := by
  cases hanswer : (Source.read r.source n).1 with
  | bytes data => exact recorded_read_of_bytes hanswer
  | failed failure =>
      rw [recorded_read_of_failed hanswer, Delivery.data, List.append_nil]

theorem recorded_behind (r : Recorder ρ) (ns : List Nat) :
    (behind r ns).recorded = r.recorded ++ delivered r.source ns := by
  induction ns generalizing r with
  | nil => exact (List.append_nil _).symm
  | cons n ns ih =>
      have hsource := source_read r n
      rw [behind, ih, delivered_cons, hsource, ← List.append_assoc]
      congr 1
      rw [← congrArg Prod.fst hsource]
      exact recorded_read r n

theorem source_after (r : ρ) (requests : List Nat) :
    (after r requests).source = behind r requests :=
  source_behind (ofSource r) requests

theorem recorded_after (r : ρ) (requests : List Nat) :
    (after r requests).recorded = delivered r requests :=
  recorded_behind (ofSource r) requests

end Recorder

/-!
## Replay
-/

def slices (bytes : Bytes) : List Nat -> List Bytes
  | [] => []
  | n :: ns => bytes.take n :: slices (bytes.drop n) ns

theorem flatten_slices (bytes : Bytes) (ns : List Nat) :
    (slices bytes ns).flatten = bytes.take ns.sum := by
  induction ns generalizing bytes with
  | nil => rfl
  | cons n ns ih =>
      rw [slices, List.flatten_cons, ih, List.sum_cons, List.take_add]

theorem flatMap_data_slices (bytes : Bytes) (ns : List Nat) :
    ((slices bytes ns).map Delivery.bytes).flatMap Delivery.data =
      bytes.take ns.sum := by
  rw [List.flatMap_map, ← flatten_slices]
  exact List.flatMap_id

/-- Requests are divided where the first one for at least one byte finds a
recording used up. -/
structure Seam (size : Nat) (early late : List Nat) : Prop where
  unused : forall front n back, early = front ++ n :: back -> 0 < n ->
    front.sum < size
  used : forall n back, late = n :: back -> 0 < n ∧ size ≤ early.sum

theorem seam_nil (size : Nat) : Seam size [] [] := by
  constructor
  · intro front n back h
    cases front with
    | nil => cases h
    | cons m front => cases h
  · intro n back h
    cases h

theorem seam_used_up {n : Nat} (hn : 0 < n) (ns : List Nat) :
    Seam 0 [] (n :: ns) := by
  constructor
  · intro front m back h
    cases front with
    | nil => cases h
    | cons k front => cases h
  · rintro m back ⟨⟩
    exact ⟨hn, Nat.le_refl 0⟩

theorem seam_cons {size n : Nat} {early late : List Nat}
    (h : Seam (size - n) early late) (hn : 0 < n -> 0 < size) :
    Seam size (n :: early) late := by
  constructor
  · intro front m back heq hm
    cases front with
    | nil =>
        cases heq
        exact hn hm
    | cons k front =>
        cases heq
        have hlt := h.unused front m back rfl hm
        rw [List.sum_cons]
        lia
  · intro m back hlate
    have hused := h.used m back hlate
    rw [List.sum_cons]
    lia

namespace Replay

theorem answers_of_none (live : ρ) (ns : List Nat) :
    answers (⟨none, live⟩ : Replay ρ) ns = answers live ns := by
  induction ns generalizing live with
  | nil => rfl
  | cons n ns ih =>
      rw [answers, answers]
      congr 1
      exact ih (Source.read live n).2

theorem read_of_unused {recording : Bytes} {n : Nat}
    (h : 0 < n -> recording ≠ []) (live : ρ) :
    Source.read (⟨some recording, live⟩ : Replay ρ) n =
      (.bytes (recording.take n), ⟨some (recording.drop n), live⟩) := by
  show Replay.read _ n = _
  cases recording with
  | nil =>
      have hn : n = 0 := Nat.eq_zero_of_not_pos fun hn => h hn rfl
      subst hn
      rfl
  | cons b recording => rfl

/-- A replay answers with its recording, and from the seam on with the answers
of its live source. -/
theorem exists_seam (recording : Bytes) (live : ρ) (ns : List Nat) :
    exists early late, ns = early ++ late ∧ Seam recording.length early late ∧
      answers (⟨some recording, live⟩ : Replay ρ) ns =
        (slices recording early).map .bytes ++ answers live late := by
  induction ns generalizing recording with
  | nil => exact ⟨[], [], rfl, seam_nil _, rfl⟩
  | cons n ns ih =>
      -- The recording is given up by the first request that could get something
      -- and does not.
      by_cases hused : 0 < n ∧ recording = []
      · rcases hused with ⟨hn, rfl⟩
        refine ⟨[], n :: ns, rfl, seam_used_up hn ns, ?_⟩
        have hread : Source.read (⟨some [], live⟩ : Replay ρ) n =
            readLive live n :=
          if_neg (Nat.ne_of_gt hn)
        rw [answers, hread]
        exact congrArg _ (answers_of_none _ ns)
      · have hunused : 0 < n -> recording ≠ [] := fun hn hnil =>
          hused ⟨hn, hnil⟩
        rcases ih (recording.drop n) with ⟨early, late, rfl, hseam, hanswers⟩
        rw [List.length_drop] at hseam
        refine ⟨n :: early, late, rfl, seam_cons hseam ?_, ?_⟩
        · intro hn
          exact List.length_pos_iff.mpr (hunused hn)
        · rw [answers, read_of_unused hunused, hanswers]
          rfl

theorem hasContent {r : Replay ρ} {rest : Bytes} (h : HasContent r.live rest) :
    HasContent r (r.recording.getD [] ++ rest) := by
  refine ⟨fun r content => exists rest, content = r.recording.getD [] ++ rest ∧
    HasContent r.live rest, ?_, rest, rfl, h⟩
  rintro r _ ⟨rest, rfl, hrest⟩
  constructor
  · rcases r with ⟨recording, live⟩
    cases recording with
    | none => exact ⟨rest, rfl, hrest.zero⟩
    | some recording =>
        rw [read_of_unused (fun hn => absurd hn (Nat.lt_irrefl 0))]
        exact ⟨rest, rfl, hrest⟩
  · intro n hn
    exact answersFor_of_live (fun _ _ rest hlive => ⟨rest, rfl, hlive⟩) hn hrest
      (hrest.answers hn)

end Replay
theorem Recorder.exists_seam (r : ρ) (requests ns : List Nat) :
    exists early late,
      ns = early ++ late ∧ Seam (after r requests).recordedLength early late ∧
      answers (after r requests).replay ns =
        (slices (after r requests).recorded early).map .bytes ++
          answers (behind r requests) late := by
  rw [← source_after]
  exact Replay.exists_seam (after r requests).recorded
    (after r requests).source ns

theorem Seam.delivered_append {r : ρ} {requests early late : List Nat}
    (h : Seam (Recorder.after r requests).recordedLength early late)
    (hlate : late ≠ []) :
    (Recorder.after r requests).recorded.take early.sum ++
      delivered (behind r requests) late =
      delivered r (requests ++ late) := by
  rcases List.exists_cons_of_ne_nil hlate with ⟨n, back, heq⟩
  have hused : (Recorder.after r requests).recorded.length ≤ early.sum :=
    (h.used n back heq).right
  rw [List.take_of_length_le hused, Recorder.recorded_after,
    Source.delivered_append]

theorem Recorder.hasContent_replay {r : ρ} {requests : List Nat} {rest : Bytes}
    (h : HasContent (behind r requests) rest) :
    HasContent (after r requests).replay
      ((after r requests).recorded ++ rest) := by
  rw [← source_after] at h
  exact Replay.hasContent h

theorem Recorder.exists_rest {r : ρ} {content : Bytes}
    (h : HasContent r content) (requests : List Nat) :
    exists rest, content = (after r requests).recorded ++ rest ∧
      HasContent (behind r requests) rest := by
  rw [recorded_after]
  exact h.exists_behind requests

/-- Whatever a source does and whatever numbers of bytes a recorder is asked
for, the recording is what the answers contained.  The replay repeats it in
order and goes on with the answers that the source would have given next, so
that nothing is lost or repeated between them.  If the source has a content, be
it only behind the requests recorded, the replay has all of it, and if the
answers of the source are bounded, enough requests for at least one byte deliver
it. -/
theorem replay_repeats_and_goes_on (r : ρ) (requests : List Nat) :
    answers (Recorder.ofSource r) requests = answers r requests ∧
      (Recorder.after r requests).recorded =
        delivered (Recorder.ofSource r) requests ∧
      (Recorder.after r requests).recordedLength =
        ((answers (Recorder.ofSource r) requests).map (·.data.length)).sum ∧
      (forall n failure, (Source.read (Recorder.after r requests) n).1 =
        .failed failure ->
        (Recorder.after r (requests ++ [n])).recorded =
          (Recorder.after r requests).recorded) ∧
      (forall ns, exists early late, ns = early ++ late ∧
        Seam (Recorder.after r requests).recordedLength early late ∧
        answers (Recorder.after r requests).replay ns =
          (slices (Recorder.after r requests).recorded early).map .bytes ++
            answers (behind r requests) late ∧
        delivered (Recorder.after r requests).replay ns =
          (Recorder.after r requests).recorded.take early.sum ++
            delivered (behind r requests) late ∧
        (late ≠ [] -> delivered (Recorder.after r requests).replay ns =
          delivered r (requests ++ late))) ∧
      (forall content, HasContent r content ->
        HasContent (Recorder.after r requests).replay content ∧
          forall remaining : ρ -> Nat, IsBound remaining ->
            YieldsWithin ((Recorder.after r requests).replay.bound remaining)
              (Recorder.after r requests).replay content) ∧
      (forall rest, HasContent (behind r requests) rest ->
        HasContent (Recorder.after r requests).replay
            ((Recorder.after r requests).recorded ++ rest) ∧
          forall remaining : ρ -> Nat, IsBound remaining ->
            YieldsWithin ((Recorder.after r requests).replay.bound remaining)
              (Recorder.after r requests).replay
              ((Recorder.after r requests).recorded ++ rest)) := by
  have hanswers := Recorder.answers_eq (Recorder.ofSource r) requests
  have hrecorded : (Recorder.after r requests).recorded =
      delivered (Recorder.ofSource r) requests := by
    rw [Recorder.recorded_after, delivered, delivered, hanswers]
    rfl
  refine ⟨hanswers, hrecorded, ?_, ?_, ?_, ?_, ?_⟩
  · rw [Recorder.recordedLength, hrecorded, delivered, List.length_flatMap]
  · intro n failure hfailed
    rw [Recorder.after, behind_append]
    have hsource :=
      congrArg Prod.fst (Recorder.source_read (Recorder.after r requests) n)
    exact Recorder.recorded_read_of_failed (hsource.trans hfailed)
  · intro ns
    rcases Recorder.exists_seam r requests ns with
      ⟨early, late, rfl, hseam, hreplay⟩
    have hdelivered :
        delivered (Recorder.after r requests).replay (early ++ late) =
        (Recorder.after r requests).recorded.take early.sum ++
          delivered (behind r requests) late := by
      rw [delivered, hreplay, List.flatMap_append, flatMap_data_slices]
      rfl
    exact ⟨early, late, rfl, hseam, hreplay, hdelivered,
      fun hlate => hdelivered.trans (hseam.delivered_append hlate)⟩
  · intro content hcontent
    rcases Recorder.exists_rest hcontent requests with ⟨rest, rfl, hrest⟩
    have hreplay := Recorder.hasContent_replay hrest
    exact ⟨hreplay, fun _ hbound =>
      hreplay.yieldsWithin (Replay.isBound_bound hbound)⟩
  · intro rest hrest
    have hreplay := Recorder.hasContent_replay hrest
    exact ⟨hreplay, fun _ hbound =>
      hreplay.yieldsWithin (Replay.isBound_bound hbound)⟩

/-!
## Two feeds in small portions
-/

theorem Feed.gives_read_zero {f : Feed} {bytes : Bytes} (h : f.Gives bytes) :
    (f.read 0).2.Gives bytes := by
  have hdeliver : (f.deliver 0).2.Gives bytes := by
    have hsize : (if f.portion = 0 then 0 else min 0 f.portion) = 0 := by simp
    refine ⟨?_, h.right⟩
    simp only [deliver, hsize, List.drop_zero]
    exact h.left
  unfold read
  split
  · exact hdeliver
  · rename_i fault later hcons
    rcases h.calm hcons with ⟨hfault, hcalm⟩
    by_cases hdue : fault.position ≤ f.position
    · rw [if_pos hdue]
      simp only [hfault]
      exact hcalm
    · rw [if_neg hdue, Nat.zero_min]
      exact hdeliver

theorem Feed.hasContent {f : Feed}
    (h : forall fault, fault ∈ f.faults -> fault.failure = some .interrupted) :
    HasContent f f.bytes :=
  ⟨Gives, fun _ _ hf => ⟨gives_read_zero hf, fun _ hn => answersFor_read hf hn⟩,
    rfl, h⟩

def haltingFeed : Feed :=
  ⟨[1, 2, 3, 4, 5], 0, 2, [⟨3, some .interrupted⟩]⟩

def pausingFeed : Feed :=
  ⟨[1, 2, 3, 4, 5], 0, 2, [⟨2, none⟩]⟩

theorem replays_of_halting_and_pausing_feeds :
    (Source.read (Recorder.after haltingFeed [2, 0, 4]) 1).1 =
      .failed .interrupted ∧
      (Recorder.after haltingFeed [2, 0, 4, 1]).recorded = [1, 2, 3] ∧
      HasContent haltingFeed [1, 2, 3, 4, 5] ∧
      delivered (Recorder.after haltingFeed [2, 0, 4]).replay
        [2, 3, 7, 1, 2, 2] =
        [1, 2, 3, 4, 5] ∧
      answers pausingFeed [2, 1, 2] =
        [.bytes [1, 2], .bytes [], .bytes [3, 4]] ∧
      HasContent (behind pausingFeed [2, 1, 2]) [5] ∧
      delivered (Recorder.after pausingFeed [2, 1, 2]).replay [3, 3, 1, 1, 1] =
        [1, 2, 3, 4, 5] := by
  have hfailed : (Source.read (Recorder.after haltingFeed [2, 0, 4]) 1).1 =
      .failed .interrupted := by decide
  have hcontent : HasContent haltingFeed [1, 2, 3, 4, 5] := by
    apply Feed.hasContent (f := haltingFeed)
    intro fault hfault
    rw [List.mem_singleton.mp hfault]
  have hrest : HasContent (behind pausingFeed [2, 1, 2]) [5] := by
    apply Feed.hasContent (f := behind pausingFeed [2, 1, 2])
    intro fault hfault
    cases hfault
  rcases replay_repeats_and_goes_on haltingFeed [2, 0, 4] with
    ⟨_, _, _, hkept, _, hall, _⟩
  rcases replay_repeats_and_goes_on pausingFeed [2, 1, 2] with
    ⟨_, _, _, _, _, _, hlater⟩
  refine ⟨hfailed, (hkept 1 .interrupted hfailed).trans (by decide), hcontent,
    ?_, by decide, hrest, ?_⟩
  · exact (hall [1, 2, 3, 4, 5] hcontent).right Feed.remaining
      Feed.isBound_remaining [2, 3, 7, 1, 2, 2] (by decide) (by decide)
  · exact (hlater [5] hrest).right Feed.remaining Feed.isBound_remaining
      [3, 3, 1, 1, 1] (by decide) (by decide)

end TransportStream
