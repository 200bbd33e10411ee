import Mathlib.Data.List.Forall2
import TransportStream.Proofs.Packet.Payload
import TransportStream.Proofs.Pat.Reduction
import TransportStream.Proofs.Section.Cutting

/-!
# The section of a run and its replacement

Where a run holds a whole section, its joined payloads are some bytes ahead of
the section, the section, and bytes behind it.  Laying the reduced section over
the run keeps what is ahead, and turns everything behind into stuffing.
-/

namespace TransportStream

theorem announcedSize?_take {bytes : Bytes} {size n : Nat}
    (h : announcedSize? bytes = some size) (hn : 3 ≤ n) :
    announcedSize? (bytes.take n) = some size := by
  rcases Nat.exists_eq_add_of_le' hn with ⟨n, rfl⟩
  rcases bytes with _ | ⟨_, _ | ⟨_, _ | ⟨_, rest⟩⟩⟩
  · cases h
  · cases h
  · cases h
  · exact h

namespace Pat

/-!
## Locating the section
-/

theorem locate_eq_complete {data : Bytes} {firstLength start stop : Nat}
    (h : Span.locate data firstLength = .complete start stop) :
    exists (pointer : UInt8) (rest old behind : Bytes),
      data = pointer :: rest ∧ start = 1 + pointer.toNat ∧ start < firstLength ∧
        IsSection old ∧ stop = start + old.length ∧
          data.drop start = old ++ behind := by
  cases data with
  | nil => cases h
  | cons pointer rest =>
      simp only [Span.locate] at h
      by_cases hpast : firstLength ≤ 1 + pointer.toNat
      · rw [if_pos hpast] at h
        cases h
      · rw [if_neg hpast] at h
        cases hsize : announcedSize?
          ((pointer :: rest).drop (1 + pointer.toNat)) with
        | none =>
            rw [hsize] at h
            cases h
        | some size =>
            simp only [hsize] at h
            by_cases hshort : size < sectionHeaderSize + trailerSize
            · rw [if_pos hshort] at h
              cases h
            · rw [if_neg hshort] at h
              by_cases hmissing : (pointer :: rest).length <
                1 + pointer.toNat + size
              · rw [if_pos hmissing] at h
                cases h
              · rw [if_neg hmissing] at h
                cases h
                have hlength :
                    (((pointer :: rest).drop (1 + pointer.toNat)).take
                    size).length =
                    size := by
                  rw [List.length_take, List.length_drop]
                  lia
                have hlong := Nat.le_of_not_lt hshort
                refine ⟨pointer, rest,
                  ((pointer :: rest).drop (1 + pointer.toNat)).take size,
                  ((pointer :: rest).drop (1 + pointer.toNat)).drop size, rfl,
                  rfl, Nat.lt_of_not_le hpast, ⟨?_, ?_⟩, ?_,
                  (List.take_append_drop size _).symm⟩
                · rw [hlength]
                  exact announcedSize?_take hsize
                    (Nat.le_trans (by decide) hlong)
                · rw [hlength]
                  exact hlong
                · rw [hlength]

theorem spanOf_eq_complete {first : Packet} {later : List Packet}
    {start stop : Nat} (h : spanOf (first :: later) = .complete start stop) :
    exists (pointer : UInt8) (rest old behind : Bytes),
      first.payload = pointer :: rest ∧ start = 1 + pointer.toNat ∧
      pointer.toNat < rest.length ∧
        IsSection old ∧ stop = start + old.length ∧
        (joined (first :: later)).drop start = old ++ behind := by
  rcases locate_eq_complete h with
    ⟨pointer, rest, old, behind, hdata, hstart, hfirst, hold, hstop, hdrop⟩
  cases hpayload : first.payload with
  | nil =>
      rw [hpayload] at hfirst
      cases hfirst
  | cons pointer' rest' =>
      rw [joined, List.flatMap_cons, hpayload, List.cons_append,
        List.cons.injEq] at hdata
      rcases hdata with ⟨rfl, _⟩
      refine ⟨pointer', rest', old, behind, rfl, hstart, ?_, hold, hstop, hdrop⟩
      rw [hpayload, List.length_cons] at hfirst
      lia

theorem locate_of_isSection {pointer : UInt8} {rest old behind : Bytes}
    {firstLength : Nat} (hfirst : 1 + pointer.toNat < firstLength)
    (hold : IsSection old)
    (hdrop : (pointer :: rest).drop (1 + pointer.toNat) = old ++ behind) :
    Span.locate (pointer :: rest) firstLength =
      .complete (1 + pointer.toNat) (1 + pointer.toNat + old.length) := by
  have hlength := congrArg List.length hdrop
  rw [List.length_drop, List.length_append] at hlength
  have hlong := hold.right
  simp only [sectionHeaderSize] at hlong
  unfold Span.locate
  dsimp only
  rw [if_neg (Nat.not_le.mpr hfirst), hdrop,
    announcedSize?_append hold.left behind]
  dsimp only
  rw [if_neg (Nat.not_lt.mpr hold.right), if_neg]
  lia

/-- Once a section is located, or known to be none, further bytes change
nothing. -/
theorem locate_append {data : Bytes} (hdata : data ≠ []) {firstLength : Nat}
    (h : Span.locate data firstLength ≠ .unfinished) (more : Bytes) :
    Span.locate (data ++ more) firstLength = Span.locate data firstLength := by
  cases data with
  | nil => exact absurd rfl hdata
  | cons pointer rest =>
      unfold Span.locate at h ⊢
      dsimp only [List.cons_append] at h ⊢
      by_cases hpast : firstLength ≤ 1 + pointer.toNat
      · rw [if_pos hpast, if_pos hpast]
      · rw [if_neg hpast] at h
        rw [if_neg hpast, if_neg hpast]
        cases hsize : announcedSize?
          ((pointer :: rest).drop (1 + pointer.toNat)) with
        | none =>
            rw [hsize] at h
            exact absurd rfl h
        | some size =>
            have hinside : 1 + pointer.toNat ≤ (pointer :: rest).length := by
              apply Nat.le_of_not_lt
              intro hpast
              rw [List.drop_eq_nil_of_le (Nat.le_of_lt hpast)] at hsize
              cases hsize
            have hdrop : (pointer :: (rest ++ more)).drop (1 + pointer.toNat) =
                (pointer :: rest).drop (1 + pointer.toNat) ++ more :=
              List.drop_append_of_le_length hinside
            rw [hsize] at h
            rw [hdrop, announcedSize?_append hsize more]
            dsimp only at h ⊢
            by_cases hshort : size < sectionHeaderSize + trailerSize
            · rw [if_pos hshort, if_pos hshort]
            · rw [if_neg hshort] at h
              rw [if_neg hshort, if_neg hshort]
              by_cases hmissing : (pointer :: rest).length <
                1 + pointer.toNat + size
              · rw [if_pos hmissing] at h
                exact absurd rfl h
              · rw [if_neg hmissing, if_neg]
                rw [← List.cons_append, List.length_append]
                lia

theorem joined_cons (p : Packet) (run : List Packet) :
    joined (p :: run) = p.payload ++ joined run := rfl

theorem joined_append (run more : List Packet) :
    joined (run ++ more) = joined run ++ joined more :=
  List.flatMap_append

theorem spanOf_append {first : Packet} {later : List Packet}
    (h : spanOf (first :: later) ≠ .unfinished) (more : List Packet) :
    spanOf (first :: (later ++ more)) = spanOf (first :: later) := by
  have hjoined : joined (first :: (later ++ more)) =
      joined (first :: later) ++ joined more :=
    joined_append (first :: later) more
  unfold spanOf at h ⊢
  dsimp only at h ⊢
  rw [hjoined]
  cases hdata : joined (first :: later) with
  | cons pointer rest =>
      rw [hdata] at h
      exact locate_append (List.cons_ne_nil pointer rest) h (joined more)
  | nil =>
      -- Without any payload in the first packet there is no place for a
      -- section.
      have hempty : first.payload = [] := by
        rw [joined_cons, List.append_eq_nil_iff] at hdata
        exact hdata.left
      rw [hempty]
      cases joined more with
      | nil => rfl
      | cons pointer rest => rfl

theorem spanOf_take_of_unfinished {first : Packet} {later : List Packet}
    (h : spanOf (first :: later) = .unfinished) (n : Nat) :
    spanOf (first :: later.take n) = .unfinished := by
  by_cases hsettled : spanOf (first :: later.take n) = .unfinished
  · exact hsettled
  · have hwhole := spanOf_append hsettled (later.drop n)
    rw [List.take_append_drop, h] at hwhole
    exact hwhole.symm

/-!
## Replacing the section
-/

theorem take_replaceSection {data : Bytes} {start : Nat}
    (h : start ≤ data.length) (replacement : Bytes) :
    (replaceSection data start replacement).take start = data.take start := by
  have hlength : (data.take start).length = start := by
    rw [List.length_take, Nat.min_eq_left h]
  rw [replaceSection, List.append_assoc, List.take_left' hlength]

theorem head?_replaceSection {data : Bytes} {start : Nat} (hstart : 0 < start)
    (h : start ≤ data.length) (replacement : Bytes) :
    (replaceSection data start replacement).head? = data.head? := by
  have htake := congrArg List.head? (take_replaceSection h replacement)
  rw [List.head?_take, List.head?_take, if_neg (Nat.ne_of_gt hstart),
    if_neg (Nat.ne_of_gt hstart)] at htake
  exact htake

theorem drop_replaceSection {data : Bytes} {start : Nat}
    (h : start ≤ data.length) (replacement : Bytes) :
    (replaceSection data start replacement).drop start =
      replacement ++
        List.replicate (data.length - start - replacement.length)
          stuffingByte := by
  have hlength : (data.take start).length = start := by
    rw [List.length_take, Nat.min_eq_left h]
  rw [replaceSection, List.append_assoc, List.drop_left' hlength]

theorem length_replaceSection {data replacement : Bytes} {start : Nat}
    (h : start + replacement.length ≤ data.length) :
    (replaceSection data start replacement).length = data.length := by
  rw [replaceSection, List.length_append, List.length_append, List.length_take,
    List.length_replicate]
  lia

/-!
## Laying bytes over a run
-/

theorem layOver_cons (p : Packet) (run : List Packet) (data : Bytes) :
    layOver (p :: run) data =
      p.writePayload (data.take p.payload.length) ::
        layOver run (data.drop p.payload.length) := rfl

theorem joined_layOver {run : List Packet} {data : Bytes}
    (h : data.length = (joined run).length) :
    joined (layOver run data) = data := by
  induction run generalizing data with
  | nil => exact (List.eq_nil_of_length_eq_zero h).symm
  | cons p run ih =>
      rw [joined_cons, List.length_append] at h
      have htake : (data.take p.payload.length).length = p.payload.length := by
        rw [List.length_take]
        lia
      have hdrop : (data.drop p.payload.length).length =
          (joined run).length := by
        rw [List.length_drop]
        lia
      rw [layOver_cons, joined_cons,
        Packet.payload_writePayload_of_length htake, ih hdrop,
        List.take_append_drop]

theorem layOver_layOver {run : List Packet} {first second : Bytes}
    (h : second.length = (joined run).length) :
    layOver (layOver run first) second = layOver run second := by
  induction run generalizing first second with
  | nil => rfl
  | cons p run ih =>
      rw [joined_cons, List.length_append] at h
      have htake : (second.take p.payload.length).length =
          p.payload.length := by
        rw [List.length_take]
        lia
      have hdrop : (second.drop p.payload.length).length =
          (joined run).length := by
        rw [List.length_drop]
        lia
      rw [layOver_cons, layOver_cons, layOver_cons,
        Packet.length_payload_writePayload,
        Packet.writePayload_writePayload htake, ih hdrop]

theorem layOver_joined (run : List Packet) :
    layOver run (joined run) = run := by
  induction run with
  | nil => rfl
  | cons p run ih =>
      rw [joined_cons, layOver_cons, List.take_left, List.drop_left, ih,
        Packet.writePayload_payload]

theorem forall₂_layOver (run : List Packet) (data : Bytes) :
    List.Forall₂ Packet.SameOutsidePayload run (layOver run data) := by
  induction run generalizing data with
  | nil => exact List.Forall₂.nil
  | cons p run ih =>
      constructor
      · exact Packet.sameOutsidePayload_writePayload p
          (data.take p.payload.length)
      · exact ih (data.drop p.payload.length)

end Pat
end TransportStream
