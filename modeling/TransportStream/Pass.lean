import TransportStream.Reader

/-!
# Passes over the packets of a source

A pass feeds the packets of a source, one after the other, to a step function
until that is satisfied or fails, or until the source has no further packet.
-/

namespace TransportStream

/-- What a step makes of a packet. -/
inductive Flow (σ : Type) where
  | more (state : σ)
  | done (state : σ)
  | fail (state : σ) (error : Error)

inductive Ending where
  | satisfied
  | exhausted
  | failed (error : Error)
  deriving DecidableEq

structure Pass (ρ σ : Type) where
  ending : Ending
  state : σ
  source : ρ

namespace Pass

variable {ρ σ : Type} [FiniteSource ρ]

def run (step : σ -> Packet -> Logged (Flow σ)) (r : ρ) (s : σ) (log : Log) :
    Logged (Pass ρ σ) :=
  match hread : Reader.readPacket r with
  | ⟨(.error .endOfStream, r'), remarks⟩ =>
      ⟨⟨.exhausted, s, r'⟩, log ++ remarks⟩
  | ⟨(.error e, r'), remarks⟩ => ⟨⟨.failed e, s, r'⟩, log ++ remarks⟩
  | ⟨(.ok p, r'), remarks⟩ =>
      have := Reader.remaining_lt_of_readPacket (congrArg Logged.value hread)
      match step s p with
      | ⟨.more s', turn⟩ => run step r' s' (log ++ remarks ++ turn)
      | ⟨.done s', turn⟩ => ⟨⟨.satisfied, s', r'⟩, log ++ remarks ++ turn⟩
      | ⟨.fail s' e, turn⟩ => ⟨⟨.failed e, s', r'⟩, log ++ remarks ++ turn⟩
termination_by FiniteSource.remaining r

def start (step : σ -> Packet -> Logged (Flow σ)) (r : ρ) (s : σ) :
    Logged (Pass ρ σ) :=
  run step r s #[]

end Pass
end TransportStream
