import TransportStream.Section.Assembler

/-!
# Tables

A table is decoded from one whole section.  A table decoder assembles the
sections of one packet identifier and decodes each of them; sections that cannot
be decoded are passed over.
-/

namespace TransportStream

class Table (τ : Type) where
  name : String
  /-- Decode a section, from its table identifier through its checksum, which is
  not examined. -/
  decode : Bytes -> Except Error τ
  remark? : Bytes -> Option Record

def Table.read (τ : Type) [Table τ] (bytes : Bytes) :
    Logged (Except Error τ) := do
  let table := (Table.decode bytes : Except Error τ)
  Logged.note? (table.toOption.bind fun _ => Table.remark? τ bytes)
  pure table

structure TableDecoder (τ : Type) where
  assembler : SectionAssembler

namespace TableDecoder

variable {τ σ : Type} [Table τ]

def fresh : TableDecoder τ :=
  ⟨.idle⟩

def visitSection (pid : Nat) (visit : σ -> τ -> Bytes -> Logged σ) (s : σ)
    (bytes : Bytes) :
    Logged σ := do
  match ← Table.read τ bytes with
  | .ok table => visit s table bytes
  | .error e =>
      Logged.note (.debug .decoder
        s!"pid {Text.hex4 pid}: skipping {Table.name τ}: {e.message}")
      pure s

def submit (d : TableDecoder τ) (p : Packet)
    (visit : σ -> τ -> Bytes -> Logged σ) (s : σ) :
    Logged (TableDecoder τ × σ) := do
  let (assembler, sections) ← d.assembler.submit p
  let s' ← sections.foldlM (visitSection p.pid visit) s
  pure (⟨assembler⟩, s')

end TableDecoder
end TransportStream
