import TransportStream.Pass

/-!
# The turns of a pass

A pass takes one turn for each packet that it reads, until the step function has
enough or fails, or no packet is left.  What holds at every ending and is kept
by every turn holds of the whole pass.
-/

namespace TransportStream

theorem Reader.fill_keeps {ρ : Type} [FiniteSource ρ] {I : ρ -> Prop}
    (hI : forall r n, 0 < n -> I r -> I (Source.read r n).2) {r : ρ} (h : I r)
    {collected : Bytes} (hlength : collected.length ≤ frameSize) :
    I (fill r collected hlength).2 := by
  fun_induction fill r collected hlength with
  | case1 r collected hlength hfull => exact h
  | case2 r collected hlength hfull r' hread =>
      have hkept := hI r (frameSize - collected.length) (by lia) h
      rw [hread] at hkept
      exact hkept
  | case3 r collected hlength hfull b data r' hread hlt hdata ih =>
      have hkept := hI r (frameSize - collected.length) (by lia) h
      rw [hread] at hkept
      exact ih hkept
  | case4 r collected hlength hfull r' hread hlt ih =>
      have hkept := hI r (frameSize - collected.length) (by lia) h
      rw [hread] at hkept
      exact ih hkept
  | case5 r collected hlength hfull failure r' hnot hread =>
      have hkept := hI r (frameSize - collected.length) (by lia) h
      rw [hread] at hkept
      exact hkept

namespace Pass

variable {ρ σ : Type} [FiniteSource ρ] {step : σ -> Packet -> Logged (Flow σ)}

theorem run_induction {motive : ρ -> σ -> Pass ρ σ -> Prop}
    (ended : forall {r r' : ρ} {s : σ}, (Reader.readPacket r).value =
      (.error .endOfStream, r') -> motive r s ⟨.exhausted, s, r'⟩)
    (broken : forall {r r' : ρ} {s : σ} {e : Error}, e ≠ .endOfStream ->
      (Reader.readPacket r).value = (.error e, r') ->
      motive r s ⟨.failed e, s, r'⟩)
    (more : forall {r r' : ρ} {s s' : σ} {p : Packet} {pass : Pass ρ σ},
      (Reader.readPacket r).value = (.ok p, r') ->
      (step s p).value = .more s' -> motive r' s' pass -> motive r s pass)
    (done : forall {r r' : ρ} {s s' : σ} {p : Packet},
      (Reader.readPacket r).value = (.ok p, r') ->
      (step s p).value = .done s' -> motive r s ⟨.satisfied, s', r'⟩)
    (fail : forall {r r' : ρ} {s s' : σ} {p : Packet} {e : Error},
      (Reader.readPacket r).value = (.ok p, r') ->
      (step s p).value = .fail s' e -> motive r s ⟨.failed e, s', r'⟩)
    (r : ρ) (s : σ) (log : Log) : motive r s (run step r s log).value := by
  fun_induction run step r s log with
  | case1 r s log r' remarks hread => exact ended (congrArg Logged.value hread)
  | case2 r s log e r' remarks hnot hread =>
      exact broken hnot (congrArg Logged.value hread)
  | case3 r s log p r' remarks hread hlt s' turn hstep ih =>
      exact more (congrArg Logged.value hread) (congrArg Logged.value hstep) ih
  | case4 r s log p r' remarks hread hlt s' turn hstep =>
      exact done (congrArg Logged.value hread) (congrArg Logged.value hstep)
  | case5 r s log p r' remarks hread hlt s' e turn hstep =>
      exact fail (congrArg Logged.value hread) (congrArg Logged.value hstep)

/-!
## One turn
-/

theorem value_run_of_end {r r' : ρ}
    (h : (Reader.readPacket r).value = (.error .endOfStream, r')) (s : σ)
    (log : Log) : (run step r s log).value = ⟨.exhausted, s, r'⟩ := by
  unfold run
  split
  · rename_i r'' remarks hread
    rw [hread] at h
    cases h
    rfl
  · rename_i e r'' remarks hnot hread
    rw [hread] at h
    cases h
    exact absurd rfl hnot
  · rename_i p r'' remarks hread
    rw [hread] at h
    cases h

theorem value_run_of_error {r r' : ρ} {e : Error}
    (h : (Reader.readPacket r).value = (.error e, r')) (he : e ≠ .endOfStream)
    (s : σ) (log : Log) : (run step r s log).value = ⟨.failed e, s, r'⟩ := by
  unfold run
  split
  · rename_i r'' remarks hread
    rw [hread] at h
    cases h
    exact absurd rfl he
  · rename_i e' r'' remarks hnot hread
    rw [hread] at h
    cases h
    rfl
  · rename_i p r'' remarks hread
    rw [hread] at h
    cases h

/-- How a pass goes on behind a packet; a log does not matter. -/
def GoesOn (step : σ -> Packet -> Logged (Flow σ)) (r : ρ) :
    Flow σ -> Pass ρ σ -> Prop
  | .more s, pass => exists log, pass = (run step r s log).value
  | .done s, pass => pass = ⟨.satisfied, s, r⟩
  | .fail s e, pass => pass = ⟨.failed e, s, r⟩

theorem goesOn_run (step : σ -> Packet -> Logged (Flow σ)) {r r' : ρ}
    {p : Packet} (h : (Reader.readPacket r).value = (.ok p, r')) (s : σ)
    (log : Log) :
    GoesOn step r' (step s p).value (run step r s log).value := by
  rw [run.eq_def]
  split
  · rename_i r'' remarks hread
    rw [hread] at h
    cases h
  · rename_i e r'' remarks hnot hread
    rw [hread] at h
    cases h
  · rename_i p' r'' remarks hread
    rw [hread] at h
    cases h
    cases hturn : step s p with
    | mk flow turn =>
        cases flow with
        | more s' => exact ⟨_, rfl⟩
        | done s' => rfl
        | fail s' e => rfl

/-!
## Passes that look for something
-/

/-- Every step goes on to another state, and is satisfied if something is found
there. -/
def Seeks (step : σ -> Packet -> Logged (Flow σ)) (next : σ -> Packet -> σ)
    (found : σ -> Bool) :
    Prop :=
  forall s p, (step s p).value =
    if found (next s p) then .done (next s p) else .more (next s p)

namespace Seeks

variable {next : σ -> Packet -> σ} {found : σ -> Bool} {s s' : σ} {p : Packet}

theorem of_more (h : Seeks step next found)
    (hstep : (step s p).value = .more s') :
    found (next s p) = false ∧ s' = next s p := by
  rw [h] at hstep
  split at hstep
  · cases hstep
  · rename_i hopen
    cases hstep
    exact ⟨Bool.eq_false_iff.mpr hopen, rfl⟩

theorem of_done (h : Seeks step next found)
    (hstep : (step s p).value = .done s') :
    found (next s p) = true ∧ s' = next s p := by
  rw [h] at hstep
  split at hstep
  · rename_i hfound
    cases hstep
    exact ⟨hfound, rfl⟩
  · cases hstep

theorem ne_fail (h : Seeks step next found) (e : Error) :
    (step s p).value ≠ .fail s' e := by
  intro hstep
  rw [h] at hstep
  split at hstep
  · cases hstep
  · cases hstep

theorem value_run_of_found (h : Seeks step next found) {r r' : ρ}
    (hread : (Reader.readPacket r).value = (.ok p, r'))
    (hfound : found (next s p) = true) (log : Log) :
    (run step r s log).value = ⟨.satisfied, next s p, r'⟩ := by
  have hturn := goesOn_run step hread s log
  rw [h, if_pos hfound] at hturn
  exact hturn

theorem value_run_of_open (h : Seeks step next found) {r r' : ρ}
    (hread : (Reader.readPacket r).value = (.ok p, r'))
    (hopen : found (next s p) = false) (log : Log) :
    exists log', (run step r s log).value =
      (run step r' (next s p) log').value := by
  have hturn := goesOn_run step hread s log
  rw [h, if_neg (Bool.eq_false_iff.mp hopen)] at hturn
  exact hturn

theorem run_induction (h : Seeks step next found)
    {motive : ρ -> σ -> Pass ρ σ -> Prop}
    (ended : forall {r r' : ρ} {s : σ}, (Reader.readPacket r).value =
      (.error .endOfStream, r') -> motive r s ⟨.exhausted, s, r'⟩)
    (broken : forall {r r' : ρ} {s : σ} {e : Error}, e ≠ .endOfStream ->
      (Reader.readPacket r).value = (.error e, r') ->
      motive r s ⟨.failed e, s, r'⟩)
    (more : forall {r r' : ρ} {s : σ} {p : Packet} {pass : Pass ρ σ},
      (Reader.readPacket r).value = (.ok p, r') -> found (next s p) = false ->
      motive r' (next s p) pass -> motive r s pass)
    (done : forall {r r' : ρ} {s : σ} {p : Packet},
      (Reader.readPacket r).value = (.ok p, r') -> found (next s p) = true ->
      motive r s ⟨.satisfied, next s p, r'⟩)
    (r : ρ) (s : σ) (log : Log) : motive r s (run step r s log).value := by
  refine Pass.run_induction ended broken ?_ ?_ ?_ r s log
  · intro r r' s s' p pass hread hstep ih
    rcases h.of_more hstep with ⟨hopen, rfl⟩
    exact more hread hopen ih
  · intro r r' s s' p hread hstep
    rcases h.of_done hstep with ⟨hfound, rfl⟩
    exact done hread hfound
  · intro r r' s s' p e _ hstep
    exact absurd hstep (h.ne_fail e)

theorem found_run (h : Seeks step next found) (hs : found s = false) (r : ρ)
    (log : Log) :
    ((run step r s log).value.ending = .satisfied ->
        found (run step r s log).value.state = true) ∧
      ((run step r s log).value.ending = .exhausted ->
        found (run step r s log).value.state = false) := by
  refine h.run_induction (motive := fun _ s pass => found s = false ->
    (pass.ending = .satisfied -> found pass.state = true) ∧
      (pass.ending = .exhausted -> found pass.state = false)) ?_ ?_ ?_ ?_
        r s log hs
  · intro r r' s _ hs
    exact ⟨nofun, fun _ => hs⟩
  · intro r r' s e _ _ _
    exact ⟨nofun, nofun⟩
  · intro r r' s p pass _ hopen ih _
    exact ih hopen
  · intro r r' s p _ hfound _
    exact ⟨fun _ => hfound, nofun⟩

end Seeks

/-!
## What a pass keeps of its source
-/

theorem source_run {I : ρ -> Prop}
    (hI : forall r n, 0 < n -> I r -> I (Source.read r n).2) {r : ρ} (h : I r)
    (s : σ) (log : Log) : I (run step r s log).value.source := by
  have hread : forall {r r' : ρ} {answer : Except Error Packet},
      (Reader.readPacket r).value = (answer, r') -> I r -> I r' := by
    intro r r' answer hanswer hr
    have hnothing : ([] : Bytes).length ≤ frameSize := Nat.zero_le frameSize
    have hkept := Reader.fill_keeps hI hr hnothing
    have hsource : (Reader.readPacket r).value.2 = r' :=
      congrArg Prod.snd hanswer
    rw [← hsource]
    exact hkept
  refine run_induction (motive := fun r _ pass => I r -> I pass.source)
    ?_ ?_ ?_ ?_ ?_ r s log h
  · intro r r' s hend hr
    exact hread hend hr
  · intro r r' s e _ hbroken hr
    exact hread hbroken hr
  · intro r r' s s' p pass hpacket _ ih hr
    exact ih (hread hpacket hr)
  · intro r r' s s' p hpacket _ hr
    exact hread hpacket hr
  · intro r r' s s' p e hpacket _ hr
    exact hread hpacket hr

end Pass
end TransportStream
