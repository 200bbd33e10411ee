import TransportStream.Proofs.Pass.Turns
import TransportStream.Proofs.Source.Delivery

/-!
# Passes over the same bytes

Two sources that deliver the same bytes may cut them into different portions, be
interrupted at different places and be of different kinds.  A pass ends over
both of them in the same way and in the same state.
-/

namespace TransportStream
namespace Pass

variable {ρ ρ' σ : Type} [FiniteSource ρ] [FiniteSource ρ']

theorem run_agrees (step : σ -> Packet -> Logged (Flow σ)) {r : ρ} {r' : ρ'}
    {bytes : Bytes} (h : Delivers r bytes) (h' : Delivers r' bytes) (s : σ)
    (log log' : Log) :
    (run step r s log).value.ending = (run step r' s log').value.ending ∧
      (run step r s log).value.state = (run step r' s log').value.state := by
  induction hlength : bytes.length using Nat.strongRecOn
    generalizing bytes r r' s log log' with
  | ind length ih =>
      rcases Reader.readPacket_ahead h with ⟨r1, hread, hrest⟩
      rcases Reader.readPacket_ahead h' with ⟨r1', hread', hrest'⟩
      cases hahead : Reader.packetAhead bytes with
      | error e =>
          rw [hahead] at hread hread'
          by_cases hend : e = .endOfStream
          · subst hend
            rw [value_run_of_end hread, value_run_of_end hread']
            exact ⟨rfl, rfl⟩
          · rw [value_run_of_error hread hend, value_run_of_error hread' hend]
            exact ⟨rfl, rfl⟩
      | ok p =>
          rw [hahead] at hread hread'
          have hturn := goesOn_run step hread s log
          have hturn' := goesOn_run step hread' s log'
          cases hflow : (step s p).value with
          | more s' =>
              rw [hflow] at hturn hturn'
              rcases hturn with ⟨log1, hrun⟩
              rcases hturn' with ⟨log1', hrun'⟩
              rw [hrun, hrun']
              apply ih (bytes.drop frameSize).length _ hrest hrest' s' log1
                log1' rfl
              have hlong := Reader.length_of_packetAhead hahead
              rw [List.length_drop, ← hlength]
              exact Nat.sub_lt (Nat.lt_of_lt_of_le (by decide) hlong)
                (by decide)
          | done s' =>
              rw [hflow] at hturn hturn'
              rw [hturn, hturn']
              exact ⟨rfl, rfl⟩
          | fail s' e =>
              rw [hflow] at hturn hturn'
              rw [hturn, hturn']
              exact ⟨rfl, rfl⟩

end Pass
end TransportStream
