import TransportStream.Table.Json
import TransportStream.TableReport

/-!
# The text of a report

A report is shown either as lines of text, a blank line behind each table, or as
JSON.
-/

namespace TransportStream

def unlines (lines : List String) : String :=
  String.join (lines.map (· ++ "\n"))

def SectionHeader.lines (h : SectionHeader) : List String :=
  [s!"table id: {h.tableId}",
    s!"transport stream id: {h.extension}",
    s!"version number: {h.version}",
    s!"current next: {Json.ofBool h.current}",
    s!"section number: {h.number}",
    s!"last section number: {h.lastNumber}"]

def DescriptorLoop.lines (loop : DescriptorLoop) : List String :=
  "descriptors:" :: loop.descriptors.map fun d =>
    s!"  tag {Text.hex2 d.tag.toNat} ({d.body.length} bytes)"

def Pat.Association.line (a : Pat.Association) : String :=
  s!"[pn] {a.program} => [pid] {a.pid}"

def ElementaryStream.lines (s : ElementaryStream) : List String :=
  s!"stream type: {s.code.toNat} ({s.kind.name})" ::
    s!"elementary PID: {s.pid}" :: s.info.lines

namespace TableEntry

def title {τ : Type} (kind : String) (e : TableEntry τ) : String :=
  let verdict := if e.isIntact then "ok" else "BAD"
  s!"{kind} [pid] {e.pid} crc {verdict}"

def patLines (e : TableEntry Pat) : List String :=
  e.title "PAT" :: e.table.header.lines ++
    "associations:" :: e.table.associations.map Pat.Association.line

def pmtLines (e : TableEntry Pmt) : List String :=
  e.title "PMT" :: e.table.header.lines ++
    s!"PCR PID: {e.table.clockPid}" :: e.table.info.lines ++
    "stream info:" :: e.table.streams.flatMap ElementaryStream.lines

def toJson {τ : Type} (tableJson : τ -> Json) (e : TableEntry τ) : Json :=
  .object [("pid", .number e.pid), ("crc_ok", .bool e.isIntact),
    ("section", tableJson e.table)]

end TableEntry

namespace TableReport

def text (t : TableReport) : String :=
  unlines (t.pats.flatMap (·.patLines ++ [""]) ++
    t.pmts.flatMap (·.pmtLines ++ [""]))

def toJson (t : TableReport) : Json :=
  .object
    [("packets", .number t.packets),
      ("pats", .array (t.pats.map (TableEntry.toJson Pat.toJson))),
      ("pmts", .array (t.pmts.map (TableEntry.toJson Pmt.toJson)))]

def jsonText (t : TableReport) : String :=
  t.toJson.pretty 0

end TableReport
end TransportStream
