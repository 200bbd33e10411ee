import TransportStream.Reader
import TransportStream.Source.Feed

/-!
# Sources that deliver a byte string

A source delivers a byte string when its answers, put one behind the other, are
that string.  The portions may have any size, and interruptions may come in
between; only at the end of the string is an answer empty.  A reader sees
nothing of this: it finds one frame behind the other, and then the end.
-/

namespace TransportStream

variable {ρ : Type}

/-- One answer of a source that still has to deliver a byte string, if its
further answers are given by a relation. -/
def AnswersFor (R : ρ -> Bytes -> Prop) (bytes : Bytes) : Delivery × ρ -> Prop
  | (.bytes data, r) =>
      exists rest, bytes = data ++ rest ∧ (data = [] -> bytes = []) ∧ R r rest
  | (.failed .interrupted, r) => R r bytes
  | (.failed _, _) => False

theorem AnswersFor.map {τ : Type} {R : ρ -> Bytes -> Prop}
    {S : τ -> Bytes -> Prop} {bytes : Bytes} {answer : Delivery × ρ}
    {answer' : Delivery × τ} (hsame : answer'.1 = answer.1)
    (hRS : forall rest, R answer.2 rest -> S answer'.2 rest)
    (h : AnswersFor R bytes answer) : AnswersFor S bytes answer' := by
  rcases answer with ⟨delivery, r⟩
  rcases answer' with ⟨delivery', t⟩
  cases hsame
  cases delivery with
  | bytes data =>
      rcases h with ⟨rest, hbytes, hend, hrest⟩
      exact ⟨rest, hbytes, hend, hRS rest hrest⟩
  | failed failure =>
      cases failure
      case interrupted => exact hRS bytes h
      all_goals exact h

section

variable [Source ρ]

/-- A source delivers a byte string, in portions of any sizes and with any
interruptions. -/
def Delivers (r : ρ) (bytes : Bytes) : Prop :=
  exists R : ρ -> Bytes -> Prop,
    (forall r bytes n, R r bytes -> 0 < n ->
      AnswersFor R bytes (Source.read r n)) ∧ R r bytes

namespace Delivers

theorem answers {r : ρ} {bytes : Bytes} (h : Delivers r bytes) {n : Nat}
    (hn : 0 < n) :
    AnswersFor Delivers bytes (Source.read r n) := by
  rcases h with ⟨R, hstep, hR⟩
  apply AnswersFor.map rfl _ (hstep r bytes n hR hn)
  intro rest hrest
  exact ⟨R, hstep, hrest⟩

theorem of_bytes {r r' : ρ} {bytes data : Bytes} {n : Nat}
    (h : Delivers r bytes) (hn : 0 < n)
    (hread : Source.read r n = (.bytes data, r')) :
    exists rest, bytes = data ++ rest ∧ (data = [] -> bytes = []) ∧
      Delivers r' rest := by
  have hanswer := h.answers hn
  rw [hread] at hanswer
  exact hanswer

theorem of_interrupted {r r' : ρ} {bytes : Bytes} {n : Nat}
    (h : Delivers r bytes) (hn : 0 < n)
    (hread : Source.read r n = (.failed .interrupted, r')) :
    Delivers r' bytes := by
  have hanswer := h.answers hn
  rw [hread] at hanswer
  exact hanswer

theorem interrupted_of_failed {r r' : ρ} {bytes : Bytes} {n : Nat}
    {failure : IoFailure} (h : Delivers r bytes) (hn : 0 < n)
    (hread : Source.read r n = (.failed failure, r')) :
    failure = .interrupted := by
  have hanswer := h.answers hn
  rw [hread] at hanswer
  cases failure
  case interrupted => rfl
  all_goals exact absurd hanswer id

end Delivers

end

/-!
## Reading frames
-/

namespace Reader

variable [FiniteSource ρ]

theorem fill_of_delivers {r : ρ} {bytes : Bytes} (h : Delivers r bytes)
    {collected : Bytes} (hlength : collected.length ≤ frameSize) {rest : Bytes}
    {f : Frame} (hframe : collected ++ bytes = f.bytes ++ rest) :
    exists r', fill r collected hlength = (.complete f, r') ∧
      Delivers r' rest := by
  fun_induction fill r collected hlength generalizing bytes with
  | case1 r collected hlength hfull =>
      rcases List.append_inj hframe (hfull.trans f.length_bytes.symm) with
        ⟨hcollected, hrest⟩
      subst hrest
      exact ⟨r, by simp only [hcollected], h⟩
  | case2 r collected hlength hfull r' hread =>
      obtain ⟨rest', hbytes, hend, _⟩ := h.of_bytes (by lia) hread
      have hshort := congrArg List.length hframe
      rw [hend rfl, List.append_nil, List.length_append, f.length_bytes]
        at hshort
      lia
  | case3 r collected hlength hfull b data r' hread hlt hdata ih =>
      obtain ⟨rest', hbytes, _, hdelivers⟩ := h.of_bytes (by lia) hread
      apply ih hdelivers
      rw [← hframe, hbytes, List.append_assoc]
  | case4 r collected hlength hfull r' hread hlt ih =>
      exact ih (h.of_interrupted (by lia) hread) hframe
  | case5 r collected hlength hfull failure r' hnot hread =>
      exact absurd (h.interrupted_of_failed (by lia) hread) hnot

theorem fill_of_delivers_short {r : ρ} {bytes : Bytes} (h : Delivers r bytes)
    {collected : Bytes} (hlength : collected.length ≤ frameSize)
    (hshort : (collected ++ bytes).length < frameSize) :
    exists r', fill r collected hlength =
      (.ended (collected ++ bytes).length, r') ∧
      Delivers r' [] := by
  fun_induction fill r collected hlength generalizing bytes with
  | case1 r collected hlength hfull =>
      rw [List.length_append] at hshort
      lia
  | case2 r collected hlength hfull r' hread =>
      obtain ⟨rest', hbytes, hend, hdelivers⟩ := h.of_bytes (by lia) hread
      have hempty := hend rfl
      subst hempty
      rw [List.nil_append] at hbytes
      subst hbytes
      exact ⟨r', by rw [List.append_nil], hdelivers⟩
  | case3 r collected hlength hfull b data r' hread hlt hdata ih =>
      obtain ⟨rest', hbytes, _, hdelivers⟩ := h.of_bytes (by lia) hread
      subst hbytes
      rw [← List.append_assoc] at hshort ⊢
      exact ih hdelivers hshort
  | case4 r collected hlength hfull r' hread hlt ih =>
      exact ih (h.of_interrupted (by lia) hread) hshort
  | case5 r collected hlength hfull failure r' hnot hread =>
      exact absurd (h.interrupted_of_failed (by lia) hread) hnot

def packetAhead (bytes : Bytes) : Except Error Packet :=
  if h : frameSize ≤ bytes.length then
    Packet.parse ⟨bytes.take frameSize,
      by rw [List.length_take, Nat.min_eq_left h]⟩
  else .error .endOfStream

theorem packetAhead_of_short {bytes : Bytes} (h : bytes.length < frameSize) :
    packetAhead bytes = .error .endOfStream :=
  dif_neg (Nat.not_le.mpr h)

theorem length_of_packetAhead {bytes : Bytes} {p : Packet}
    (h : packetAhead bytes = .ok p) :
    frameSize ≤ bytes.length := by
  by_cases hlength : frameSize ≤ bytes.length
  · exact hlength
  · rw [packetAhead_of_short (Nat.lt_of_not_le hlength)] at h
    cases h

theorem packetAhead_append (p : Packet) (rest : Bytes) :
    packetAhead (p.bytes ++ rest) = .ok p := by
  have hlength : p.bytes.length = frameSize := p.frame.length_bytes
  have hle : frameSize ≤ (p.bytes ++ rest).length := by
    rw [List.length_append, hlength]
    exact Nat.le_add_right _ _
  rw [packetAhead, dif_pos hle, ← Packet.parse_frame]
  congr
  exact List.take_left' hlength

/-- Whatever the portions and interruptions, a reader takes one frame from the
front. -/
theorem readPacket_ahead {r : ρ} {bytes : Bytes} (h : Delivers r bytes) :
    exists r', (readPacket r).value = (packetAhead bytes, r') ∧
      Delivers r' (bytes.drop frameSize) := by
  have hnothing : ([] : Bytes).length ≤ frameSize := Nat.zero_le frameSize
  by_cases hlength : frameSize ≤ bytes.length
  · have htake : (bytes.take frameSize).length = frameSize := by
      rw [List.length_take, Nat.min_eq_left hlength]
    have hfront : [] ++ bytes = (Frame.mk (bytes.take frameSize) htake).bytes ++
        bytes.drop frameSize := (List.take_append_drop frameSize bytes).symm
    rcases fill_of_delivers h hnothing hfront with ⟨r', hfill, hrest⟩
    refine ⟨r', ?_, hrest⟩
    have hread :
        readFrame r = (.complete ⟨bytes.take frameSize, htake⟩, r') := hfill
    rw [packetAhead, dif_pos hlength]
    simp only [readPacket, hread, packetOf, parsePacket, Logged.value_bind,
      Logged.value_pure]
  · have hshort := Nat.lt_of_not_le hlength
    rcases fill_of_delivers_short h hnothing hshort with ⟨r', hfill, hrest⟩
    refine ⟨r', ?_, ?_⟩
    · have hread : readFrame r = (.ended bytes.length, r') := hfill
      rw [packetAhead_of_short hshort]
      simp only [readPacket, hread, packetOf, Logged.value_bind,
        Logged.value_pure]
    · rw [List.drop_eq_nil_of_le (Nat.le_of_lt hshort)]
      exact hrest

theorem readPacket_of_delivers {r : ρ} {p : Packet} {rest : Bytes}
    (h : Delivers r (p.bytes ++ rest)) :
    exists r', (readPacket r).value = (.ok p, r') ∧ Delivers r' rest := by
  rcases readPacket_ahead h with ⟨r', hread, hrest⟩
  have hlength : p.bytes.length = frameSize := p.frame.length_bytes
  rw [packetAhead_append] at hread
  rw [List.drop_left' hlength] at hrest
  exact ⟨r', hread, hrest⟩

theorem readPacket_of_delivers_short {r : ρ} {bytes : Bytes}
    (h : Delivers r bytes) (hshort : bytes.length < frameSize) :
    exists r', (readPacket r).value = (.error .endOfStream, r') ∧
      Delivers r' [] := by
  rcases readPacket_ahead h with ⟨r', hread, hrest⟩
  rw [packetAhead_of_short hshort] at hread
  rw [List.drop_eq_nil_of_le (Nat.le_of_lt hshort)] at hrest
  exact ⟨r', hread, hrest⟩

end Reader

/-!
## Feeds
-/

namespace Feed

theorem answersFor_deliver {R : Feed -> Bytes -> Prop} {f : Feed} {limit : Nat}
    (hlimit : 0 < limit)
    (hR : forall size position, R ⟨f.bytes.drop size, position, f.portion,
      f.faults⟩ (f.bytes.drop size)) :
    AnswersFor R f.bytes (f.deliver limit) := by
  unfold deliver
  refine ⟨f.bytes.drop (if f.portion = 0 then limit else min limit f.portion),
    (List.take_append_drop _ f.bytes).symm, ?_, hR _ _⟩
  intro hempty
  rcases List.take_eq_nil_iff.mp hempty with hzero | hnil
  · split at hzero
    · lia
    · lia
  · exact hnil

def Gives (f : Feed) (bytes : Bytes) : Prop :=
  f.bytes = bytes ∧ forall fault, fault ∈ f.faults ->
    fault.failure = some .interrupted

theorem Gives.calm {f : Feed} {bytes : Bytes} (h : f.Gives bytes)
    {fault : Fault} {later : List Fault} (hfaults : f.faults = fault :: later) :
    fault.failure = some .interrupted ∧
      Gives ⟨f.bytes, f.position, f.portion, later⟩ bytes := by
  refine ⟨h.right fault (by rw [hfaults]; exact List.mem_cons_self), h.left, ?_⟩
  intro other hother
  exact h.right other (by rw [hfaults]; exact List.mem_cons_of_mem fault hother)

theorem answersFor_read {f : Feed} {bytes : Bytes} (h : f.Gives bytes) {n : Nat}
    (hn : 0 < n) :
    AnswersFor Gives bytes (f.read n) := by
  have hdeliver : forall limit, 0 < limit ->
      AnswersFor Gives bytes (f.deliver limit) := by
    intro limit hlimit
    rw [← h.left]
    exact answersFor_deliver hlimit (fun size position => ⟨rfl, h.right⟩)
  unfold read
  split
  · exact hdeliver n hn
  · rename_i fault later hcons
    rcases h.calm hcons with ⟨hfault, hcalm⟩
    by_cases hdue : fault.position ≤ f.position
    · rw [if_pos hdue]
      simp only [hfault]
      exact hcalm
    · rw [if_neg hdue]
      exact hdeliver _ (by lia)

theorem delivers {f : Feed}
    (h : forall fault, fault ∈ f.faults -> fault.failure = some .interrupted) :
    Delivers f f.bytes :=
  ⟨Gives, fun _ _ _ hf hn => answersFor_read hf hn, rfl, h⟩

theorem delivers_ofBytes (bytes : Bytes) : Delivers (ofBytes bytes) bytes := by
  apply delivers (f := ofBytes bytes)
  intro fault hfault
  cases hfault

end Feed
end TransportStream
