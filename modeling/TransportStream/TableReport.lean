import TransportStream.Crc
import TransportStream.Pass
import TransportStream.Pat
import TransportStream.PidMap
import TransportStream.Pmt

/-!
# Reporting the tables of a stream

A report lists every distinct association table and program map of a stream in
the order of their first appearance, and tells which of them are damaged.
-/

namespace TransportStream

structure TableEntry (τ : Type) where
  pid : Nat
  bytes : Bytes
  isIntact : Bool
  table : τ
  deriving DecidableEq

structure TableReport where
  packets : Nat
  pats : List (TableEntry Pat)
  pmts : List (TableEntry Pmt)
  deriving DecidableEq

namespace TableReport

def empty : TableReport :=
  ⟨0, [], []⟩

/-- Add an entry, unless the same section was already listed for the same
identifier. -/
def addDistinct {τ : Type} (entries : List (TableEntry τ)) (e : TableEntry τ) :
    List (TableEntry τ) :=
  if entries.any fun known => known.pid = e.pid ∧ known.bytes = e.bytes then
    entries
  else entries ++ [e]

structure Survey where
  report : TableReport
  patDecoder : TableDecoder Pat
  pmtDecoders : PidMap (TableDecoder Pmt)

namespace Survey

def fresh : Survey :=
  ⟨empty, .fresh, ∅⟩

/-- A program map is followed from its first announcement on. -/
def follow (decoders : PidMap (TableDecoder Pmt)) (a : Pat.Association) :
    Logged (PidMap (TableDecoder Pmt)) :=
  if decoders.contains a.pid then pure decoders
  else do
    Logged.note (.debug .report s!"tables: tracking PMT pid {Text.hex4 a.pid}")
    pure (decoders.put a.pid .fresh)

def addPat (k : TableReport × PidMap (TableDecoder Pmt)) (t : Pat)
    (bytes : Bytes) :
    Logged (TableReport × PidMap (TableDecoder Pmt)) := do
  let decoders ← t.programs.foldlM follow k.2
  pure
    (⟨k.1.packets,
      addDistinct k.1.pats ⟨patPid, bytes, Crc.isIntact bytes, t⟩, k.1.pmts⟩,
      decoders)

def addPmt (pid : Nat) (report : TableReport) (t : Pmt) (bytes : Bytes) :
    TableReport :=
  ⟨report.packets, report.pats,
    addDistinct report.pmts ⟨pid, bytes, Crc.isIntact bytes, t⟩⟩

def advance (s : Survey) (p : Packet) : Logged Survey :=
  if p.pid = patPid then do
    let (decoder, known) ←
      s.patDecoder.submit p addPat (s.report, s.pmtDecoders)
    pure ⟨known.1, decoder, known.2⟩
  else
    match s.pmtDecoders.get? p.pid with
    | none => pure s
    | some decoder => do
        let (decoder', report) ←
          decoder.submit p (fun report t bytes =>
            pure (addPmt p.pid report t bytes)) s.report
        pure ⟨report, s.patDecoder, s.pmtDecoders.put p.pid decoder'⟩

def count (s : Survey) : Survey :=
  ⟨⟨s.report.packets + 1, s.report.pats, s.report.pmts⟩, s.patDecoder,
    s.pmtDecoders⟩

def step (s : Survey) (p : Packet) : Logged (Flow Survey) := do
  let s' ← advance s.count p
  pure (.more s')

end Survey

def sumRemark (t : TableReport) : Record :=
  .debug .report
    s!"tables: {t.packets} packets, {t.pats.length} PAT and {t.pmts.length} PMT sections"

def collect {ρ : Type} [FiniteSource ρ] (r : ρ) :
    Logged (Except Error TableReport) := do
  let pass ← Pass.start Survey.step r Survey.fresh
  match pass.ending with
  | .failed e => pure (.error e)
  | _ => do
      Logged.note (sumRemark pass.state.report)
      pure (.ok pass.state.report)

end TableReport
end TransportStream
