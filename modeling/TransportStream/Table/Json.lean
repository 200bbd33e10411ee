import TransportStream.Pat
import TransportStream.Pmt
import TransportStream.Text.Json

/-!
# Tables as JSON

Descriptors are represented by their tags alone.
-/

namespace TransportStream

def StreamKind.toJson : StreamKind -> Json
  | .mpeg2Video => .text "Mpeg2Video"
  | .aacAdts => .text "AacAdts"
  | .other code => .object [("Other", .number code.toNat)]

def DescriptorLoop.toJson (loop : DescriptorLoop) : Json :=
  .array (loop.descriptors.map fun d => .number d.tag.toNat)

def SectionHeader.toJson (h : SectionHeader) : Json :=
  .object
    [("table_id", .number h.tableId),
      ("transport_stream_id", .number h.extension),
      ("version", .number h.version),
      ("current_next", .bool h.current),
      ("section_number", .number h.number),
      ("last_section_number", .number h.lastNumber)]

def Pat.Association.toJson (a : Pat.Association) : Json :=
  .object [("program_number", .number a.program), ("pid", .number a.pid)]

def Pat.toJson (t : Pat) : Json :=
  .object
    [("header", t.header.toJson),
      ("associations", .array (t.associations.map Pat.Association.toJson))]

def ElementaryStream.toJson (s : ElementaryStream) : Json :=
  .object
    [("stream_type", .number s.code.toNat),
      ("elementary_pid", .number s.pid),
      ("es_info", s.info.toJson)]

def Pmt.toJson (t : Pmt) : Json :=
  .object
    [("header", t.header.toJson),
      ("pcr_pid", .number t.clockPid),
      ("program_info", t.info.toJson),
      ("streams", .array (t.streams.map ElementaryStream.toJson))]

end TransportStream
