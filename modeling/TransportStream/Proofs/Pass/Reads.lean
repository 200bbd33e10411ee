import TransportStream.Proofs.Pass

/-!
# Passes over packets that are read

Behind some packets a reader may find the end of its source, a frame that is no
packet or a failure.  A pass that has not enough before takes the packets one
after the other and ends with what the reader found.
-/

namespace TransportStream

variable {ρ σ : Type} [FiniteSource ρ]

def Ending.ofError : Error -> Ending
  | .endOfStream => .exhausted
  | e => .failed e

theorem Ending.ofError_of_ne {e : Error} (he : e ≠ .endOfStream) :
    ofError e = .failed e := by
  cases e
  case endOfStream => exact absurd rfl he
  all_goals rfl

inductive Reader.Reads : ρ -> List Packet -> ρ -> Prop where
  | nothing (r : ρ) : Reads r [] r
  | packet {r r' r'' : ρ} {p : Packet} {packets : List Packet}
      (hread : (readPacket r).value = (.ok p, r'))
        (hlater : Reads r' packets r'') :
      Reads r (p :: packets) r''

theorem Reader.reads_of_delivers {r : ρ} {packets : List Packet} {bytes : Bytes}
    (h : Delivers r (packetBytes packets ++ bytes)) :
    exists r', Reads r packets r' ∧ Delivers r' bytes := by
  induction packets generalizing r with
  | nil => exact ⟨r, .nothing r, h⟩
  | cons p packets ih =>
      rw [packetBytes_cons, List.append_assoc] at h
      rcases readPacket_of_delivers h with ⟨r1, hread, hrest⟩
      rcases ih hrest with ⟨r', hreads, hlater⟩
      exact ⟨r', .packet hread hreads, hlater⟩

namespace Pass

variable {step : σ -> Packet -> Logged (Flow σ)}

theorem value_run_of_no_packet {r r' : ρ} {e : Error}
    (h : (Reader.readPacket r).value = (.error e, r')) (s : σ) (log : Log) :
    (run step r s log).value = ⟨.ofError e, s, r'⟩ := by
  by_cases he : e = .endOfStream
  · subst he
    exact value_run_of_end h s log
  · rw [value_run_of_error h he, Ending.ofError_of_ne he]

/-- What holds where a pass ends and is kept by every turn holds of a pass over
packets that are read, whatever the reader finds behind them. -/
theorem reads_induction {motive : List Packet -> σ -> Pass ρ σ -> Prop}
    {e : Error} (ended : forall {s : σ} {r : ρ}, motive [] s ⟨.ofError e, s, r⟩)
    (more : forall {p : Packet} {packets : List Packet} {s s' : σ}
      {pass : Pass ρ σ}, (step s p).value = .more s' ->
      motive packets s' pass -> motive (p :: packets) s pass)
    (done : forall {p : Packet} {packets : List Packet} {s s' : σ} {r : ρ},
      (step s p).value = .done s' ->
      motive (p :: packets) s ⟨.satisfied, s', r⟩)
    (fail : forall {p : Packet} {packets : List Packet} {s s' : σ} {e : Error}
      {r : ρ}, (step s p).value = .fail s' e ->
      motive (p :: packets) s ⟨.failed e, s', r⟩)
    {r r1 r2 : ρ} {packets : List Packet} (hreads : Reader.Reads r packets r1)
    (hend : (Reader.readPacket r1).value = (.error e, r2)) (s : σ) (log : Log) :
    motive packets s (run step r s log).value := by
  induction hreads generalizing s log with
  | nothing r =>
      rw [value_run_of_no_packet hend]
      exact ended
  | packet hread hlater ih =>
      rename_i r r' r'' p packets
      have hturn := goesOn_run step hread s log
      cases hstep : (step s p).value with
      | more s' =>
          rw [hstep] at hturn
          rcases hturn with ⟨log', hrun⟩
          rw [hrun]
          exact more hstep (ih hend s' log')
      | done s' =>
          rw [hstep] at hturn
          rw [hturn]
          exact done hstep
      | fail s' e' =>
          rw [hstep] at hturn
          rw [hturn]
          exact fail hstep

/-!
## The points of a pass
-/

/-- A pass that has taken some packets and is about to read on. -/
inductive Reaches (step : σ -> Packet -> Logged (Flow σ)) :
    ρ -> σ -> List Packet -> ρ -> σ -> Prop where
  | start (r : ρ) (s : σ) : Reaches step r s [] r s
  | turn {r r' r'' : ρ} {s s' s'' : σ} {p : Packet} {packets : List Packet}
      (hread : (Reader.readPacket r).value =
        (.ok p, r')) (hmore : (step s p).value = .more s')
      (hlater : Reaches step r' s' packets r'' s'') :
        Reaches step r s (p :: packets) r'' s''

namespace Reaches

variable {r r' : ρ} {s s' : σ} {packets : List Packet}

theorem reads (h : Reaches step r s packets r' s') :
    Reader.Reads r packets r' := by
  induction h with
  | start r s => exact .nothing r
  | turn hread _ _ ih => exact .packet hread ih

end Reaches

def OpenBefore (next : σ -> Packet -> σ) (found : σ -> Bool) (s : σ)
    (packets : List Packet) :
    Prop :=
  forall front, front <+: packets -> front ≠ packets ->
    found (front.foldl next s) = false

section Searches

variable {next : σ -> Packet -> σ} {found : σ -> Bool} {s : σ}

theorem openBefore_nil : OpenBefore next found s [] :=
  fun _ hfront hne => absurd (List.prefix_nil.mp hfront) hne

theorem openBefore_cons (hs : found s = false) {p : Packet}
    {packets : List Packet} (h : OpenBefore next found (next s p) packets) :
    OpenBefore next found s (p :: packets) := by
  intro front hfront hne
  cases front with
  | nil => exact hs
  | cons q front =>
      rcases List.cons_prefix_cons.mp hfront with ⟨rfl, hrest⟩
      apply h front hrest
      rintro rfl
      exact hne rfl

theorem Seeks.exists_reads_run (h : Seeks step next found)
    (hs : found s = false) (r : ρ) (log : Log) :
    exists packets r', Reader.Reads r packets r' ∧
      (run step r s log).value.state = packets.foldl next s ∧
      ((run step r s log).value.ending = .satisfied ↔
        found (packets.foldl next s) = true) ∧
      OpenBefore next found s packets := by
  refine h.run_induction (motive := fun r s pass => found s = false ->
    exists packets r',
      Reader.Reads r packets r' ∧ pass.state = packets.foldl next s ∧
      (pass.ending = .satisfied ↔ found (packets.foldl next s) = true) ∧
      OpenBefore next found s packets) ?_ ?_ ?_ ?_ r s log hs
  · intro r r' s _ hs
    exact ⟨[], r, .nothing r, rfl, iff_of_false nofun (Bool.eq_false_iff.mp hs),
      openBefore_nil⟩
  · intro r r' s e _ _ hs
    exact ⟨[], r, .nothing r, rfl, iff_of_false nofun (Bool.eq_false_iff.mp hs),
      openBefore_nil⟩
  · intro r r' s p pass hread hopen ih hs
    rcases ih hopen with ⟨packets, r1, hreads, hstate, hending, hfronts⟩
    exact ⟨p :: packets, r1, .packet hread hreads, hstate, hending,
      openBefore_cons hs hfronts⟩
  · intro r r' s p hread hfound hs
    exact ⟨[p], r', .packet hread (.nothing r'), rfl, iff_of_true rfl hfound,
      openBefore_cons hs openBefore_nil⟩

end Searches

theorem ending_ne_satisfied (hstep : forall s p s', (step s p).value ≠ .done s')
    (r : ρ) (s : σ) (log : Log) :
    (run step r s log).value.ending ≠ .satisfied := by
  refine run_induction (motive := fun _ _ pass => pass.ending ≠ .satisfied)
    ?_ ?_ ?_ ?_ ?_ r s log
  · intro r r' s _
    exact nofun
  · intro r r' s e _ _
    exact nofun
  · intro r r' s s' p pass _ _ ih
    exact ih
  · intro r r' s s' p _ hdone
    exact absurd hdone (hstep s p s')
  · intro r r' s s' p e _ _
    exact nofun

theorem exists_reaches_of_exhausted {r : ρ} {s : σ} {log : Log}
    (h : (run step r s log).value.ending = .exhausted) :
    exists packets r',
      Reaches step r s packets r' (run step r s log).value.state ∧
      (Reader.readPacket r').value =
        (.error .endOfStream, (run step r s log).value.source) := by
  refine run_induction (motive := fun r s pass => pass.ending = .exhausted ->
    exists packets r', Reaches step r s packets r' pass.state ∧
      (Reader.readPacket r').value = (.error .endOfStream, pass.source))
    ?_ ?_ ?_ ?_ ?_ r s log h
  · intro r r' s hread _
    exact ⟨[], r, .start r s, hread⟩
  · intro r r' s e _ _ hending
    cases hending
  · intro r r' s s' p pass hread hmore ih hending
    rcases ih hending with ⟨packets, r1, hreaches, hend⟩
    exact ⟨p :: packets, r1, .turn hread hmore hreaches, hend⟩
  · intro r r' s s' p _ _ hending
    cases hending
  · intro r r' s s' p e _ _ hending
    cases hending

theorem reaches_of_delivers (Good : σ -> Prop) (next : σ -> Packet -> σ)
    (hnext : forall s p, Good s -> (step s p).value = .more (next s p) ∧
      Good (next s p))
    {packets : List Packet} {tail : Bytes} {r : ρ}
    (hr : Delivers r (packetBytes packets ++ tail)) {s : σ} (hs : Good s) :
    exists r', Reaches step r s packets r' (packets.foldl next s) ∧
      Delivers r' tail := by
  induction packets generalizing r s with
  | nil => exact ⟨r, .start r s, hr⟩
  | cons p packets ih =>
      rw [packetBytes_cons, List.append_assoc] at hr
      rcases Reader.readPacket_of_delivers hr with ⟨r1, hread, hrest⟩
      rcases hnext s p hs with ⟨hmore, hgood⟩
      rcases ih hrest hgood with ⟨r', hreaches, htail⟩
      exact ⟨r', .turn hread hmore hreaches, htail⟩

end Pass
end TransportStream
