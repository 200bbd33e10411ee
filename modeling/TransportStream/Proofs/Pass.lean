import TransportStream.Proofs.Pass.Turns
import TransportStream.Proofs.Source.Delivery

/-!
# Passes over a source that delivers packets

A pass over a source that delivers packets, and less than a frame behind them,
is a fold over these packets.
-/

namespace TransportStream

def packetBytes (packets : List Packet) : Bytes :=
  packets.flatMap Packet.bytes

@[simp] theorem packetBytes_nil : packetBytes [] = [] := rfl

theorem packetBytes_cons (p : Packet) (packets : List Packet) :
    packetBytes (p :: packets) = p.bytes ++ packetBytes packets := rfl

theorem packetBytes_append (packets later : List Packet) :
    packetBytes (packets ++ later) = packetBytes packets ++ packetBytes later :=
  List.flatMap_append

theorem length_packetBytes (packets : List Packet) :
    (packetBytes packets).length = frameSize * packets.length := by
  induction packets with
  | nil => rfl
  | cons p packets ih =>
      have hp : p.bytes.length = frameSize := p.frame.length_bytes
      rw [packetBytes_cons, List.length_append, hp, ih, List.length_cons,
        Nat.mul_succ, Nat.add_comm]

theorem Packet.eq_of_bytes {p q : Packet} (h : p.bytes = q.bytes) : p = q := by
  have hframe : p.frame = q.frame := by
    cases hp : p.frame
    cases hq : q.frame
    rw [bytes, bytes, hp, hq] at h
    cases h
    rfl
  have hparse := p.parse_frame
  rw [hframe, q.parse_frame] at hparse
  cases hparse
  rfl

theorem eq_of_packetBytes {packets later : List Packet}
    (h : packetBytes packets = packetBytes later) : packets = later := by
  induction packets generalizing later with
  | nil =>
      have hlength := congrArg List.length h
      rw [length_packetBytes, length_packetBytes, List.length_nil, Nat.mul_zero]
        at hlength
      cases later with
      | nil => rfl
      | cons q later => cases hlength
  | cons p packets ih =>
      cases later with
      | nil =>
          have hlength := congrArg List.length h
          rw [length_packetBytes, length_packetBytes, List.length_nil,
            Nat.mul_zero] at hlength
          cases hlength
      | cons q later =>
          have hsize : p.bytes.length = q.bytes.length :=
            p.frame.length_bytes.trans q.frame.length_bytes.symm
          rw [packetBytes_cons, packetBytes_cons] at h
          rcases List.append_inj h hsize with ⟨hfirst, hrest⟩
          rw [Packet.eq_of_bytes hfirst, ih hrest]

theorem Feed.delivers_packetBytes (packets : List Packet) :
    Delivers (Feed.ofBytes (packetBytes packets))
      (packetBytes packets ++ []) := by
  rw [List.append_nil]
  exact Feed.delivers_ofBytes (packetBytes packets)

namespace Pass

variable {ρ σ : Type} [FiniteSource ρ] {step : σ -> Packet -> Logged (Flow σ)}

/-- What holds where a pass ends and is kept by every turn holds of a pass over
packets that are delivered. -/
theorem delivers_induction {motive : List Packet -> σ -> Pass ρ σ -> Prop}
    (ended : forall {s : σ} {r : ρ}, motive [] s ⟨.exhausted, s, r⟩)
    (more : forall {p : Packet} {packets : List Packet} {s s' : σ}
      {pass : Pass ρ σ}, (step s p).value = .more s' ->
      motive packets s' pass -> motive (p :: packets) s pass)
    (done : forall {p : Packet} {packets : List Packet} {s s' : σ} {r : ρ},
      (step s p).value = .done s' ->
      motive (p :: packets) s ⟨.satisfied, s', r⟩)
    (fail : forall {p : Packet} {packets : List Packet} {s s' : σ} {e : Error}
      {r : ρ}, (step s p).value = .fail s' e ->
      motive (p :: packets) s ⟨.failed e, s', r⟩)
    {packets : List Packet} {tail : Bytes} (htail : tail.length < frameSize)
    {r : ρ} (hr : Delivers r (packetBytes packets ++ tail)) (s : σ)
    (log : Log) :
    motive packets s (run step r s log).value := by
  induction packets generalizing r s log with
  | nil =>
      rcases Reader.readPacket_of_delivers_short hr htail with ⟨r', hread, _⟩
      rw [value_run_of_end hread]
      exact ended
  | cons p packets ih =>
      rw [packetBytes_cons, List.append_assoc] at hr
      rcases Reader.readPacket_of_delivers hr with ⟨r', hread, hrest⟩
      have hturn := goesOn_run step hread s log
      cases hstep : (step s p).value with
      | more s' =>
          rw [hstep] at hturn
          rcases hturn with ⟨log', hrun⟩
          rw [hrun]
          exact more hstep (ih hrest s' log')
      | done s' =>
          rw [hstep] at hturn
          rw [hturn]
          exact done hstep
      | fail s' e =>
          rw [hstep] at hturn
          rw [hturn]
          exact fail hstep

theorem Seeks.delivers_induction {next : σ -> Packet -> σ} {found : σ -> Bool}
    (h : Seeks step next found) {motive : List Packet -> σ -> Pass ρ σ -> Prop}
    (ended : forall {s : σ} {r : ρ}, motive [] s ⟨.exhausted, s, r⟩)
    (more : forall {p : Packet} {packets : List Packet} {s : σ}
      {pass : Pass ρ σ}, found (next s p) = false ->
      motive packets (next s p) pass -> motive (p :: packets) s pass)
    (done : forall {p : Packet} {packets : List Packet} {s : σ} {r : ρ},
      found (next s p) = true ->
      motive (p :: packets) s ⟨.satisfied, next s p, r⟩)
    {packets : List Packet} {tail : Bytes} (htail : tail.length < frameSize)
    {r : ρ} (hr : Delivers r (packetBytes packets ++ tail)) (s : σ)
    (log : Log) :
    motive packets s (run step r s log).value := by
  refine Pass.delivers_induction ended ?_ ?_ ?_ htail hr s log
  · intro p packets s s' pass hstep ih
    rcases h.of_more hstep with ⟨hopen, rfl⟩
    exact more hopen ih
  · intro p packets s s' r hstep
    rcases h.of_done hstep with ⟨hfound, rfl⟩
    exact done hfound
  · intro p packets s s' e r hstep
    exact absurd hstep (h.ne_fail e)

theorem value_run_of_delivers (Good : σ -> Prop) (next : σ -> Packet -> σ)
    (hnext : forall s p, Good s -> (step s p).value = .more (next s p) ∧
      Good (next s p))
    {packets : List Packet} {tail : Bytes} (htail : tail.length < frameSize)
    {r : ρ} (hr : Delivers r (packetBytes packets ++ tail)) (s : σ)
    (hs : Good s) (log : Log) :
    exists r', (run step r s log).value =
      ⟨.exhausted, packets.foldl next s, r'⟩ := by
  refine delivers_induction (motive := fun packets s pass => Good s ->
    exists r', pass = ⟨.exhausted, packets.foldl next s, r'⟩) ?_ ?_ ?_ ?_ htail
      hr s log hs
  · intro s r _
    exact ⟨r, rfl⟩
  · intro p packets s s' pass hstep ih hs
    rcases hnext s p hs with ⟨hmore, hgood⟩
    rw [hmore] at hstep
    cases hstep
    exact ih hgood
  · intro p packets s s' r hstep hs
    rw [(hnext s p hs).left] at hstep
    cases hstep
  · intro p packets s s' e r hstep hs
    rw [(hnext s p hs).left] at hstep
    cases hstep

end Pass
end TransportStream
