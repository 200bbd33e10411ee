import Mathlib.Data.List.Nodup
import TransportStream.TableReport
import TransportStream.Proofs.Table.Decoding

/-!
# Tables with their sections

A report lists tables together with the sections they were decoded from.  The
entries that a decoder reads are gathered here over a packet sequence, and of
the entries with the same section only the first stays.
-/

namespace TransportStream
namespace TableDecoder

variable {τ σ : Type} [Table τ]

def collectEntry (pid : Nat) (seen : List (TableEntry τ)) (table : τ)
    (bytes : Bytes) :
    Logged (List (TableEntry τ)) :=
  pure (seen ++ [⟨pid, bytes, Crc.isIntact bytes, table⟩])

def entries (pid : Nat) (d : TableDecoder τ) :
    List Packet -> List (TableEntry τ)
  | [] => []
  | p :: packets =>
      let (d', seen) := (d.submit p (collectEntry pid) []).value
      seen ++ entries pid d' packets

def entryOf (pid : Nat) (found : τ × Bytes) : TableEntry τ :=
  ⟨pid, found.2, Crc.isIntact found.2, found.1⟩

omit [Table τ] in
theorem foldl_collectEntry (pid : Nat) (found : List (τ × Bytes))
    (seen : List (TableEntry τ)) :
    found.foldl (fun seen found =>
      (collectEntry pid seen found.1 found.2).value) seen =
      seen ++ found.map (entryOf pid) := by
  rw [List.map_eq_flatMap, List.flatMap_def]
  exact List.foldl_append_eq_append

theorem entries_eq_map (pid : Nat) (d : TableDecoder τ)
    (packets : List Packet) :
    d.entries pid packets =
      (readable τ (d.assembler.feed packets).2).map (entryOf pid) := by
  induction packets generalizing d with
  | nil => rfl
  | cons p packets ih =>
      rw [entries, value_submit, SectionAssembler.feed_cons, readable_append,
        List.map_append, foldl_visitSection, foldl_collectEntry,
        List.nil_append]
      dsimp only
      rw [ih]

theorem entries_append (pid : Nat) (d : TableDecoder τ)
    (packets later : List Packet) :
    d.entries pid (packets ++ later) =
      d.entries pid packets ++ (d.after packets).entries pid later := by
  rw [entries_eq_map, entries_eq_map, entries_eq_map,
    SectionAssembler.feed_append, readable_append, List.map_append]
  rfl

theorem of_mem_entries {pid : Nat} {d : TableDecoder τ} {packets : List Packet}
    {e : TableEntry τ} (h : e ∈ d.entries pid packets) :
    e.pid = pid ∧ Table.decode e.bytes = .ok e.table ∧
      e.isIntact = Crc.isIntact e.bytes := by
  rw [entries_eq_map] at h
  rcases List.mem_map.mp h with ⟨⟨table, bytes⟩, hfound, rfl⟩
  exact ⟨rfl, decode_of_mem_readable hfound, rfl⟩

theorem entryOf_of_mem_entries {pid : Nat} {d : TableDecoder τ}
    {packets : List Packet} {e : TableEntry τ} (h : e ∈ d.entries pid packets) :
    entryOf pid (e.table, e.bytes) = e := by
  rcases of_mem_entries h with ⟨hpid, _, hintact⟩
  rw [entryOf, ← hpid, ← hintact]

theorem map_table_entries (pid : Nat) (d : TableDecoder τ)
    (packets : List Packet) :
    (d.entries pid packets).map TableEntry.table = d.tables packets := by
  rw [entries_eq_map, tables_eq_filterMap, ← map_fst_readable, List.map_map]
  rfl

theorem submit_of_entries (pid : Nat) (d : TableDecoder τ) (p : Packet)
    (visit : σ -> τ -> Bytes -> Logged σ) (s : σ) :
    (d.submit p visit s).value =
      (d.after [p],
        (d.entries pid [p]).foldl
          (fun s e => (visit s e.table e.bytes).value) s) := by
  rw [value_submit, foldl_visitSection, entries_eq_map, List.foldl_map,
    SectionAssembler.feed_cons, SectionAssembler.feed_nil, List.append_nil]
  rfl

end TableDecoder

/-!
## First copies

A section that comes again on the same identifier is a copy, whatever stands
between the two.
-/

namespace TableEntry

variable {τ : Type}

def key (e : TableEntry τ) : Nat × Bytes :=
  (e.pid, e.bytes)

theorem key_eq_iff {e e' : TableEntry τ} :
    e.key = e'.key ↔ e.pid = e'.pid ∧ e.bytes = e'.bytes := Prod.ext_iff

def isCopyOf (e known : TableEntry τ) : Bool :=
  known.key = e.key

end TableEntry

namespace TableReport

open TableEntry

variable {τ : Type} {known entries : List (TableEntry τ)} {e : TableEntry τ}

theorem any_eq_any_isCopyOf (known : List (TableEntry τ)) (e : TableEntry τ) :
    (known.any fun listed => listed.pid = e.pid ∧ listed.bytes = e.bytes) =
      known.any (e.isCopyOf ·) := by
  congr 1
  funext listed
  exact decide_eq_decide.mpr key_eq_iff.symm

theorem any_isCopyOf_iff :
    known.any (e.isCopyOf ·) = true ↔ e.key ∈ known.map key := by
  simp [isCopyOf]

theorem addDistinct_of_known (h : e.key ∈ known.map key) :
    addDistinct known e = known := by
  rw [addDistinct, any_eq_any_isCopyOf, if_pos (any_isCopyOf_iff.mpr h)]

theorem addDistinct_of_new (h : e.key ∉ known.map key) :
    addDistinct known e = known ++ [e] := by
  rw [addDistinct, any_eq_any_isCopyOf,
    if_neg (fun hany => h (any_isCopyOf_iff.mp hany))]

/-- To add entries one by one, unless they are copies, is to erase all copies
but the first. -/
theorem foldl_addDistinct_eq_eraseDupsBy (entries : List (TableEntry τ)) :
    entries.foldl addDistinct [] = entries.eraseDupsBy isCopyOf := by
  have hloop : forall known : List (TableEntry τ),
      entries.foldl addDistinct known.reverse =
      List.eraseDupsBy.loop isCopyOf entries known := by
    induction entries with
    | nil =>
        intro known
        rfl
    | cons e entries ih =>
        intro known
        rw [List.foldl_cons, addDistinct, any_eq_any_isCopyOf, List.any_reverse,
          List.eraseDupsBy.loop]
        cases known.any (e.isCopyOf ·) with
        | true => exact ih known
        | false =>
            rw [if_neg Bool.false_ne_true, ← List.reverse_cons]
            exact ih (e :: known)
  exact hloop []

theorem eraseDupsBy_append (entries later : List (TableEntry τ)) :
    (entries ++ later).eraseDupsBy isCopyOf =
      later.foldl addDistinct (entries.eraseDupsBy isCopyOf) := by
  rw [← foldl_addDistinct_eq_eraseDupsBy, ← foldl_addDistinct_eq_eraseDupsBy,
    List.foldl_append]

theorem prefix_foldl_addDistinct (known entries : List (TableEntry τ)) :
    known <+: entries.foldl addDistinct known := by
  induction entries generalizing known with
  | nil => exact List.prefix_rfl
  | cons e entries ih =>
      rw [List.foldl_cons]
      by_cases h : e.key ∈ known.map key
      · rw [addDistinct_of_known h]
        exact ih known
      · rw [addDistinct_of_new h]
        exact (List.prefix_append known [e]).trans (ih (known ++ [e]))

theorem eraseDupsBy_prefix (entries later : List (TableEntry τ)) :
    entries.eraseDupsBy isCopyOf <+:
      (entries ++ later).eraseDupsBy isCopyOf := by
  rw [eraseDupsBy_append]
  exact prefix_foldl_addDistinct _ later

theorem nodup_foldl_addDistinct (h : (known.map key).Nodup) :
    ((entries.foldl addDistinct known).map key).Nodup := by
  induction entries generalizing known with
  | nil => exact h
  | cons e entries ih =>
      rw [List.foldl_cons]
      by_cases he : e.key ∈ known.map key
      · rw [addDistinct_of_known he]
        exact ih h
      · rw [addDistinct_of_new he]
        apply ih
        rw [List.map_append, List.map_singleton, List.nodup_append]
        refine ⟨h, List.nodup_singleton _, ?_⟩
        intro listed hlisted new hnew
        rw [List.mem_singleton.mp hnew]
        rintro rfl
        exact he hlisted

theorem nodup_eraseDupsBy (entries : List (TableEntry τ)) :
    ((entries.eraseDupsBy isCopyOf).map key).Nodup := by
  rw [← foldl_addDistinct_eq_eraseDupsBy]
  exact nodup_foldl_addDistinct List.nodup_nil

theorem mem_of_mem_foldl_addDistinct (h : e ∈ entries.foldl addDistinct known) :
    e ∈ known ++ entries := by
  induction entries generalizing known with
  | nil =>
      rw [List.append_nil]
      exact h
  | cons first entries ih =>
      rw [List.foldl_cons] at h
      by_cases hfirst : first.key ∈ known.map key
      · rw [addDistinct_of_known hfirst] at h
        rcases List.mem_append.mp (ih h) with hknown | hlater
        · exact List.mem_append_left _ hknown
        · exact List.mem_append_right known (List.mem_cons_of_mem first hlater)
      · rw [addDistinct_of_new hfirst] at h
        rw [List.append_cons]
        exact ih h

theorem mem_of_mem_eraseDupsBy (h : e ∈ entries.eraseDupsBy isCopyOf) :
    e ∈ entries := by
  rw [← foldl_addDistinct_eq_eraseDupsBy] at h
  exact mem_of_mem_foldl_addDistinct h

theorem exists_copy_foldl_addDistinct (h : e ∈ known ++ entries) :
    exists listed, listed ∈ entries.foldl addDistinct known ∧
      listed.key = e.key := by
  induction entries generalizing known e with
  | nil =>
      rw [List.append_nil] at h
      exact ⟨e, h, rfl⟩
  | cons first entries ih =>
      rw [List.foldl_cons]
      by_cases hfirst : first.key ∈ known.map key
      · rw [addDistinct_of_known hfirst]
        rcases List.mem_append.mp h with hknown | hmem
        · exact ih (List.mem_append_left _ hknown)
        · rcases List.mem_cons.mp hmem with rfl | hlater
          · rcases List.mem_map.mp hfirst with ⟨copy, hcopy, hkey⟩
            rw [← hkey]
            exact ih (List.mem_append_left _ hcopy)
          · exact ih (List.mem_append_right known hlater)
      · rw [addDistinct_of_new hfirst]
        rw [List.append_cons] at h
        exact ih h

theorem exists_copy_of_mem (h : e ∈ entries) :
    exists listed, listed ∈ entries.eraseDupsBy isCopyOf ∧
      listed.key = e.key := by
  rw [← foldl_addDistinct_eq_eraseDupsBy]
  exact exists_copy_foldl_addDistinct h

end TableReport
end TransportStream
