import TransportStream.Proofs.Pat.Layout
import TransportStream.Proofs.PidSet

/-!
# The reduced association section

Reducing a section reduces the list of its entries, drops the stray bytes and
mends length and checksum, and leaves every other field as it was.  What it
makes is another such section, which is not longer, and which is decoded to the
same table without the entries that are not kept.
-/

namespace TransportStream
namespace Pat
namespace Layout

/-!
## Reducing a layout
-/

theorem length_kept_lt (pmtPids : PidSet) (l : Layout) :
    9 + 4 * (l.entries.filter (Entry.isKept pmtPids)).length < 0x1000 := by
  have hkept := List.length_filter_le (Entry.isKept pmtPids) l.entries
  have hfield := lengthField_lt l.lengthHigh l.lengthLow
  have hlength := l.lengthField_eq
  lia

def reduce (pmtPids : PidSet) (l : Layout) : Layout where
  toContent := l.toContent.withEntries (l.entries.filter (Entry.isKept pmtPids))
  stray := []
  trailer := Crc.trailer
    (crc (l.toContent.withEntries
      (l.entries.filter (Entry.isKept pmtPids))).bytes)
  length_stray := by decide
  length_trailer := rfl
  lengthField_eq :=
    Content.lengthField_withEntries l.toContent (length_kept_lt pmtPids l)

theorem trailer_reduce (pmtPids : PidSet) (l : Layout) :
    (l.reduce pmtPids).trailer =
      Crc.trailer (crc (l.reduce pmtPids).toContent.bytes) := rfl

theorem reduceSection_bytes (pmtPids : PidSet) (l : Layout) :
    reduceSection pmtPids l.bytes = (l.reduce pmtPids).bytes := by
  rw [reduceSection, entries_entryBytes, bytes, Content.withEntries_bytes]
  rfl

theorem length_entries_reduce_le (pmtPids : PidSet) (l : Layout) :
    (l.reduce pmtPids).entries.length ≤ l.entries.length :=
  List.length_filter_le (Entry.isKept pmtPids) l.entries

theorem length_reduce_le (pmtPids : PidSet) (l : Layout) :
    (l.reduce pmtPids).bytes.length ≤ l.bytes.length := by
  have hkept := l.length_entries_reduce_le pmtPids
  have hstray : (l.reduce pmtPids).stray.length = 0 := rfl
  rw [length_bytes, length_bytes]
  lia

/-- What reducing makes of a section, field by field. -/
structure IsReduction (pmtPids : PidSet) (l reduced : Layout) : Prop where
  tableId : reduced.tableId = l.tableId
  flags : field reduced.lengthHigh 4 4 = field l.lengthHigh 4 4
  length : lengthField reduced.lengthHigh reduced.lengthLow =
    9 + 4 * reduced.entries.length
  header : reduced.header = l.header
  entries : reduced.entries =
    l.entries.filter (fun e => e.program = 0 ∨ pmtPids.contains e.pid = true)
  stray : reduced.stray = []
  trailer : reduced.trailer = Crc.trailer (crc reduced.toContent.bytes)

theorem isReduction_reduce (pmtPids : PidSet) (l : Layout) :
    IsReduction pmtPids l (l.reduce pmtPids) where
  tableId := rfl
  flags := Content.field_withEntries l.toContent (length_kept_lt pmtPids l)
  length := (l.reduce pmtPids).lengthField_eq
  header := rfl
  entries := by
    show l.entries.filter (Entry.isKept pmtPids) = _
    congr 1
    funext e
    rw [Bool.eq_iff_iff, decide_eq_true_iff, Entry.isKept, Bool.or_eq_true,
      beq_iff_eq]
  stray := rfl
  trailer := trailer_reduce pmtPids l

theorem isIntact_reduce (pmtPids : PidSet) (l : Layout) :
    Crc.isIntact (l.reduce pmtPids).bytes = true :=
  Crc.isIntact_append_trailer (l.reduce pmtPids).toContent.bytes

theorem isKept_inter (first second : PidSet) (e : Entry) :
    e.isKept (first.inter second) = (e.isKept first && e.isKept second) := by
  rw [Entry.isKept, PidSet.contains_inter, Bool.or_and_distrib_left]
  rfl

theorem reduce_reduce (first second : PidSet) (l : Layout) :
    (l.reduce first).reduce second = l.reduce (first.inter second) := by
  have hkept :
      (l.entries.filter (Entry.isKept first)).filter (Entry.isKept second) =
      l.entries.filter (Entry.isKept (first.inter second)) := by
    rw [List.filter_filter]
    congr 1
    funext e
    rw [isKept_inter, Bool.and_comm]
  have hcontent : ((l.reduce first).reduce second).toContent =
      (l.reduce (first.inter second)).toContent := by
    show ((l.toContent.withEntries _).withEntries
      (List.filter _ (List.filter _ _))) = _
    rw [Content.withEntries_withEntries l.toContent (length_kept_lt first l),
      hkept]
    rfl
  apply eq_of_content hcontent rfl
  rw [trailer_reduce, trailer_reduce, hcontent]

theorem reduce_eq_self {pmtPids : PidSet} {l : Layout}
    (hintact : Crc.isIntact l.bytes = true) (hstray : l.stray = [])
    (hkept : forall e, e ∈ l.entries -> e.isKept pmtPids = true) :
    l.reduce pmtPids = l := by
  have hlength := l.lengthField_eq
  rw [hstray, List.length_nil, Nat.add_zero] at hlength
  have hcontent : (l.reduce pmtPids).toContent = l.toContent := by
    show l.toContent.withEntries _ = _
    rw [List.filter_eq_self.mpr hkept, Content.withEntries_self hlength]
  have htrailer := isIntact_bytes_iff.mp hintact
  rw [hstray, List.append_nil, ← hcontent] at htrailer
  exact eq_of_content hcontent hstray.symm htrailer.symm

end Layout

/-!
## Decoding what is left
-/

def Association.isKept (pmtPids : PidSet) (a : Association) : Bool :=
  a.isNetwork || pmtPids.contains a.pid

def restrict (pmtPids : PidSet) (t : Pat) : Pat :=
  ⟨t.header, t.associations.filter (Association.isKept pmtPids)⟩

namespace Layout

theorem decode_reduce (pmtPids : PidSet) (l : Layout) :
    decode (l.reduce pmtPids).bytes =
      (decode l.bytes).map (restrict pmtPids) := by
  have htableId : (l.reduce pmtPids).tableId = l.tableId := rfl
  rw [decode_bytes, decode_bytes, htableId]
  by_cases hpat : l.tableId = Pat.tableId
  · rw [if_pos hpat, if_pos hpat]
    simp only [Except.map, restrict, List.filter_map]
    rfl
  · rw [if_neg hpat, if_neg hpat]
    rfl

end Layout

/-!
## Sections as byte strings
-/

variable {old : Bytes}

theorem reduceSection_of_isSection (h : IsSection old) (pmtPids : PidSet) :
    IsSection (reduceSection pmtPids old) ∧
    (reduceSection pmtPids old).length ≤ old.length ∧
      (reduceSection pmtPids old).head? = old.head? := by
  rcases Layout.exists_of_isSection h with ⟨l, rfl⟩
  rw [Layout.reduceSection_bytes]
  exact ⟨(l.reduce pmtPids).isSection_bytes, l.length_reduce_le pmtPids, rfl⟩

theorem reduceSection_idem (h : IsSection old) (pmtPids : PidSet) :
    reduceSection pmtPids (reduceSection pmtPids old) =
      reduceSection pmtPids old := by
  rcases Layout.exists_of_isSection h with ⟨l, rfl⟩
  rw [Layout.reduceSection_bytes, Layout.reduceSection_bytes,
    Layout.reduce_reduce, PidSet.inter_self]

theorem decode_reduceSection (h : IsSection old) (pmtPids : PidSet) :
    decode (reduceSection pmtPids old) =
      (decode old).map (restrict pmtPids) := by
  rcases Layout.exists_of_isSection h with ⟨l, rfl⟩
  rw [Layout.reduceSection_bytes, Layout.decode_reduce]

end Pat
end TransportStream
