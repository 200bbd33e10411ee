import TransportStream.Table
import TransportStream.Proofs.Section.Units

/-!
# The tables that a decoder shows

A table decoder shows the tables of the sections that its assembler hands out,
in the same order, and passes over sections that cannot be decoded.
-/

namespace TransportStream
namespace TableDecoder

variable {τ σ : Type} [Table τ]

theorem value_visitSection (pid : Nat) (visit : σ -> τ -> Bytes -> Logged σ)
    (s : σ) (bytes : Bytes) :
    (visitSection pid visit s bytes).value =
      match (Table.decode bytes : Except Error τ) with
      | .ok table => (visit s table bytes).value
      | .error _ => s := by
  unfold visitSection Table.read
  simp only [Logged.value_bind, Logged.value_pure]
  cases (Table.decode bytes : Except Error τ) with
  | ok table => rfl
  | error e => rfl

theorem value_submit (d : TableDecoder τ) (p : Packet)
    (visit : σ -> τ -> Bytes -> Logged σ) (s : σ) :
    (d.submit p visit s).value =
      (⟨(d.assembler.submit p).value.1⟩,
        (d.assembler.submit p).value.2.foldl
          (fun s bytes => (visitSection p.pid visit s bytes).value) s) := by
  unfold submit
  simp only [Logged.value_bind, Logged.value_pure, Logged.value_foldlM]

/-- The sections that can be decoded, each behind its table. -/
def readable (τ : Type) [Table τ] (sections : List Bytes) : List (τ × Bytes) :=
  sections.filterMap fun bytes => (Table.decode bytes).toOption.map (·, bytes)

theorem readable_cons_of_ok {bytes : Bytes} {table : τ}
    (h : Table.decode bytes = .ok table) (sections : List Bytes) :
    readable τ (bytes :: sections) = (table, bytes) :: readable τ sections :=
  List.filterMap_cons_some (by rw [h]; rfl)

theorem readable_cons_of_error {bytes : Bytes} {e : Error}
    (h : (Table.decode bytes : Except Error τ) = .error e)
    (sections : List Bytes) :
    readable τ (bytes :: sections) = readable τ sections :=
  List.filterMap_cons_none (by rw [h]; rfl)

theorem readable_append (sections later : List Bytes) :
    readable τ (sections ++ later) = readable τ sections ++ readable τ later :=
  List.filterMap_append

theorem map_fst_readable (sections : List Bytes) :
    (readable τ sections).map Prod.fst =
      sections.filterMap (fun bytes =>
        (Table.decode bytes : Except Error τ).toOption) := by
  rw [readable, List.map_filterMap]
  congr 1
  funext bytes
  cases (Table.decode bytes : Except Error τ) with
  | ok table => rfl
  | error e => rfl

theorem decode_of_mem_readable {sections : List Bytes} {table : τ}
    {bytes : Bytes} (h : (table, bytes) ∈ readable τ sections) :
    Table.decode bytes = .ok table := by
  rcases List.mem_filterMap.mp h with ⟨bytes', _, hdecode⟩
  cases hfound : (Table.decode bytes' : Except Error τ) with
  | ok found =>
      rw [hfound] at hdecode
      cases hdecode
      exact hfound
  | error e =>
      rw [hfound] at hdecode
      cases hdecode

theorem foldl_visitSection (pid : Nat) (visit : σ -> τ -> Bytes -> Logged σ)
    (s : σ) (sections : List Bytes) :
    sections.foldl (fun s bytes => (visitSection pid visit s bytes).value) s =
      (readable τ sections).foldl (fun s found =>
        (visit s found.1 found.2).value) s := by
  induction sections generalizing s with
  | nil => rfl
  | cons bytes sections ih =>
      rw [List.foldl_cons, ih, value_visitSection]
      cases hdecode : (Table.decode bytes : Except Error τ) with
      | ok table => rw [readable_cons_of_ok hdecode, List.foldl_cons]
      | error e => rw [readable_cons_of_error hdecode]

/-!
## Over a packet sequence
-/

def collect (seen : List τ) (table : τ) (_ : Bytes) : Logged (List τ) :=
  pure (seen ++ [table])

def tables (d : TableDecoder τ) : List Packet -> List τ
  | [] => []
  | p :: packets =>
      let (d', seen) := (d.submit p collect []).value
      seen ++ tables d' packets

omit [Table τ] in
theorem foldl_collect (found : List (τ × Bytes)) (seen : List τ) :
    found.foldl (fun seen found => (collect seen found.1 found.2).value) seen =
      seen ++ found.map Prod.fst := by
  rw [List.map_eq_flatMap, List.flatMap_def]
  exact List.foldl_append_eq_append

theorem tables_eq_filterMap (d : TableDecoder τ) (packets : List Packet) :
    d.tables packets =
      (d.assembler.feed packets).2.filterMap
        (fun bytes => (Table.decode bytes : Except Error τ).toOption) := by
  induction packets generalizing d with
  | nil => rfl
  | cons p packets ih =>
      rw [tables, value_submit, SectionAssembler.feed_cons,
        List.filterMap_append, foldl_visitSection, foldl_collect,
        List.nil_append, map_fst_readable]
      dsimp only
      rw [ih]

def after (d : TableDecoder τ) (packets : List Packet) : TableDecoder τ :=
  ⟨(d.assembler.feed packets).1⟩

omit [Table τ] in
theorem after_append (d : TableDecoder τ) (packets later : List Packet) :
    d.after (packets ++ later) = (d.after packets).after later := by
  rw [after, SectionAssembler.feed_append]
  rfl

theorem tables_append (d : TableDecoder τ) (packets later : List Packet) :
    d.tables (packets ++ later) =
      d.tables packets ++ (d.after packets).tables later := by
  rw [tables_eq_filterMap, SectionAssembler.feed_append, List.filterMap_append,
    ← tables_eq_filterMap, tables_eq_filterMap (d.after packets)]
  rfl

theorem exists_of_mem_tables {d : TableDecoder τ} {packets : List Packet}
    {table : τ} (h : table ∈ d.tables packets) :
    exists bytes, Table.decode bytes = .ok table := by
  rw [tables_eq_filterMap, ← map_fst_readable] at h
  rcases List.mem_map.mp h with ⟨⟨found, bytes⟩, hfound, rfl⟩
  exact ⟨bytes, decode_of_mem_readable hfound⟩

theorem submit_of_visit (d : TableDecoder τ) (p : Packet)
    (visit : σ -> τ -> Logged σ) (s : σ) :
    (d.submit p (fun s table _ => visit s table) s).value =
      (d.after [p], (d.tables [p]).foldl
        (fun s table => (visit s table).value) s) := by
  rw [value_submit, foldl_visitSection, tables_eq_filterMap, ← map_fst_readable,
    List.foldl_map, SectionAssembler.feed_cons, SectionAssembler.feed_nil,
    List.append_nil]
  rfl

end TableDecoder
end TransportStream
