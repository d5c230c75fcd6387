import LintRepair.Proofs.Config.Sheet
import LintRepair.Proofs.Toml.Documents

/-! Configurations as TOML documents. Targets are tables of their own behind all other members, or an
array of nothing; a document that says this is read as the configuration. -/

namespace LintRepair

open Toml (Entries Progress Statement)

/-! ### What statements do to the entries -/

namespace Toml

variable {front : Entries} {name : String}

theorem lookup_last (h : front.lookup name = none) (v : Toml) :
    (front ++ [(name, v)]).lookup name = some v := by
  rw [List.lookup_append, h]
  simp

theorem set_last (h : front.lookup name = none) (v w : Toml) :
    Entries.set name w (front ++ [(name, v)]) = front ++ [(name, w)] := by
  induction front with
  | nil => simp [Entries.set]
  | cons m front ih =>
      obtain ⟨key, u⟩ := m
      rw [List.lookup_cons] at h
      by_cases hKey : name = key
      · simp [hKey] at h
      · have hOther : (name == key) = false := by simpa using hKey
        rw [hOther] at h
        rw [List.cons_append, Entries.set, if_neg (Ne.symm hKey), ih h, List.cons_append]

theorem setLast_last (v w : Toml) (items : List Toml) : setLast v (items ++ [w]) = items ++ [v] := by
  induction items with
  | nil => rfl
  | cons u items ih =>
      cases items with
      | nil => rfl
      | cons u' items => exact congrArg (u :: ·) ih

/-- A name that is not in use yet gets its entry at the end of the table. -/
theorem addEntry_free {entries : Entries} (h : entries.lookup name = none) (v : Toml) :
    addEntry [] name v entries = some (entries ++ [(name, v)]) := by
  rw [addEntry, descend, h]
  rfl

theorem apply_entry {root : Entries} (h : root.lookup name = none) (v : Toml) :
    (Statement.entry name v).apply ⟨[], root⟩ = some ⟨[], root ++ [(name, v)]⟩ := by
  rw [Statement.apply, addUnder, descend, addEntry_free h]
  rfl

/-- The first header of a name begins a list of tables. -/
theorem apply_header_first {header : List String} {root : Entries} (h : root.lookup name = none) :
    (Statement.header name).apply ⟨header, root⟩ =
      some ⟨[name], root ++ [(name, .array true [.table .header []])]⟩ := by
  rw [Statement.apply, appendTable, descend, h]
  rfl

/-- Each further header of the name adds a table to the list. -/
theorem apply_header_next {header : List String} (h : front.lookup name = none) (items : List Toml) :
    (Statement.header name).apply ⟨header, front ++ [(name, .array true items)]⟩ =
      some ⟨[name], front ++ [(name, .array true (items ++ [.table .header []]))]⟩ := by
  rw [Statement.apply, appendTable, descend, lookup_last h]
  simp only [set_last h, Option.map_some]

/-- A value under a header goes to the last table of its array. -/
theorem apply_entry_under {inner : Entries} {key : String} (h : front.lookup name = none)
    (hKey : inner.lookup key = none) (items : List Toml) (v : Toml) :
    (Statement.entry key v).apply
        ⟨[name], front ++ [(name, .array true (items ++ [.table .header inner]))]⟩ =
      some ⟨[name],
        front ++ [(name, .array true (items ++ [.table .header (inner ++ [(key, v)])]))]⟩ := by
  rw [Statement.apply, addUnder, descend, lookup_last h]
  simp only [List.getLast?_concat, descend, addEntry_free hKey, Option.map_some, setLast_last,
    set_last h]

/-- The entries of one table, none of them given twice. -/
theorem foldlM_row {r : List (String × String)} (h : front.lookup name = none) (items : List Toml)
    {inner : Entries} (hFree : ∀ m ∈ r, inner.lookup m.1 = none) (hNames : (r.map Prod.fst).Nodup) :
    (r.map fun m => Statement.entry m.1 (.string m.2)).foldlM Statement.apply
        ⟨[name], front ++ [(name, .array true (items ++ [.table .header inner]))]⟩ =
      some ⟨[name], front ++ [(name, .array true
        (items ++ [.table .header (inner ++ r.map fun m => (m.1, .string m.2))]))]⟩ := by
  induction r generalizing inner with
  | nil => simp
  | cons m r ih =>
      obtain ⟨hm, hMore⟩ := List.forall_mem_cons.mp hFree
      rw [List.map_cons, List.nodup_cons] at hNames
      have hNext : ∀ m' ∈ r, (inner ++ [(m.1, Toml.string m.2)]).lookup m'.1 = none := by
        intro m' hm'
        have hOther : (m'.1 == m.1) = false :=
          beq_false_of_ne fun hSame => hNames.1 (hSame ▸ List.mem_map_of_mem hm')
        rw [List.lookup_append, hMore m' hm', List.lookup_cons, hOther]
        rfl
      rw [List.map_cons, List.foldlM_cons, apply_entry_under h hm]
      exact (ih hNext hNames.2).trans (by simp)

/-- A table in which nothing is ignored gives what it has under each of the names. -/
theorem row?_of_known {names : List String} {origin : Origin} {entries : Entries}
    (h : ∀ m ∈ entries, m.1 ∈ names) :
    (table origin entries).row? names = some (names.map fun name => entries.lookup name) := by
  rw [row?, List.filter_eq_nil_iff.mpr]
  · rfl
  · intro m hm
    simpa using h m hm

end Toml

/-! ### Sheets as documents -/

namespace Config

def table (r : List (String × String)) : Toml := .table .header (r.map fun m => (m.1, .string m.2))

def Datum.toToml : Datum → Toml
  | .count n => .integer n.toNat
  | .truth b => .boolean b
  | .rows rs => .array (!rs.isEmpty) (rs.map table)

def Datum.hasTables : Datum → Bool
  | .rows (_ :: _) => true
  | _ => false

/-- What the lines of a member say: one value, or a table for each row. -/
def Datum.statements (name : String) : Datum → List Statement
  | .rows (r :: rs) =>
    (r :: rs).flatMap fun r => .header name :: r.map fun m => .entry m.1 (.string m.2)
  | d => [.entry name d.toToml]

/-- Tables end the members before them, so they come last. -/
def Sheet.TablesLast (sheet : Sheet) : Prop := ∀ m ∈ sheet.dropLast, m.2.hasTables = false

/-- A TOML document that has just the members of a sheet, in its order. -/
structure Sheet.WritesToml (sheet : Sheet) (text : List Char) : Prop where
  tablesLast : sheet.TablesLast
  document : Toml.WritesDocument text (sheet.flatMap fun m => m.2.statements m.1)

/-- The rows below their headers become the tables of one list. -/
theorem foldlM_rows {rs : List (List (String × String))} (hNames : ∀ r ∈ rs, (r.map Prod.fst).Nodup)
    {front : Entries} {name : String} (h : front.lookup name = none) (header : List String)
    (items : List Toml) :
    ∃ header', (rs.flatMap fun r => Statement.header name ::
        r.map fun m => .entry m.1 (.string m.2)).foldlM Statement.apply
          ⟨header, front ++ [(name, .array true items)]⟩ =
      some ⟨header', front ++ [(name, .array true (items ++ rs.map table))]⟩ := by
  induction rs generalizing header items with
  | nil => exact ⟨header, by simp⟩
  | cons r rs ih =>
      obtain ⟨hRow, hRows⟩ := List.forall_mem_cons.mp hNames
      obtain ⟨header', hRest⟩ := ih hRows [name] (items ++ [table r])
      refine ⟨header', ?_⟩
      rw [List.flatMap_cons, List.cons_append, List.foldlM_cons, Toml.apply_header_next h]
      simp only [Option.bind_eq_bind, Option.bind_some]
      rw [List.foldlM_append, Toml.foldlM_row h items (fun _ _ => rfl) hRow]
      simp only [Option.bind_eq_bind, Option.bind_some]
      exact hRest.trans (by simp)

theorem foldlM_member {m : String × Datum} {root : Entries} (h : root.lookup m.1 = none)
    (hPlain : m.2.hasTables = false) :
    (m.2.statements m.1).foldlM Statement.apply ⟨[], root⟩ =
      some ⟨[], root ++ [(m.1, m.2.toToml)]⟩ := by
  have hOne : m.2.statements m.1 = [.entry m.1 m.2.toToml] := by
    unfold Datum.statements
    split
    · rename_i hTables
      rw [hTables] at hPlain
      cases hPlain
    · rfl
  rw [hOne, List.foldlM_cons, Toml.apply_entry h]
  rfl

/-- The first table begins the array. -/
theorem foldlM_tables {name : String} {rs : List (List (String × String))} {root : Entries}
    (h : root.lookup name = none) (hSome : rs ≠ []) (hNames : ∀ r ∈ rs, (r.map Prod.fst).Nodup) :
    ∃ header, ((Datum.rows rs).statements name).foldlM Statement.apply ⟨[], root⟩ =
      some ⟨header, root ++ [(name, (Datum.rows rs).toToml)]⟩ := by
  cases rs with
  | nil => exact absurd rfl hSome
  | cons r rs =>
      obtain ⟨hRow, hRows⟩ := List.forall_mem_cons.mp hNames
      obtain ⟨header, hRest⟩ := foldlM_rows hRows h [name] [table r]
      refine ⟨header, ?_⟩
      rw [Datum.statements, List.flatMap_cons, List.cons_append, List.foldlM_cons,
        Toml.apply_header_first h]
      simp only [Option.bind_eq_bind, Option.bind_some]
      rw [List.foldlM_append]
      have hFree : ∀ m ∈ r, ([] : Entries).lookup m.1 = none := fun _ _ => rfl
      have hFirst := Toml.foldlM_row h [] hFree hRow
      rw [List.nil_append] at hFirst
      rw [hFirst]
      exact hRest

/-- The statements of a sheet enter all its members. -/
theorem foldlM_sheet {sheet : Sheet} (hLast : sheet.TablesLast) (hNames : (sheet.map Prod.fst).Nodup)
    (hRows : ∀ m ∈ sheet, ∀ rs, m.2 = .rows rs → ∀ r ∈ rs, (r.map Prod.fst).Nodup) {root : Entries}
    (hFree : ∀ m ∈ sheet, root.lookup m.1 = none) :
    ((sheet.flatMap fun m => m.2.statements m.1).foldlM Statement.apply ⟨[], root⟩).map Progress.root =
      some (root ++ sheet.map fun m => (m.1, m.2.toToml)) := by
  induction sheet generalizing root with
  | nil => simp
  | cons m sheet ih =>
      obtain ⟨hm, hMore⟩ := List.forall_mem_cons.mp hFree
      obtain ⟨hRow, hRows⟩ := List.forall_mem_cons.mp hRows
      rw [List.map_cons, List.nodup_cons] at hNames
      rw [List.flatMap_cons, List.foldlM_append]
      cases hKind : m.2.hasTables with
      | false =>
          have hNext : ∀ m' ∈ sheet, (root ++ [(m.1, m.2.toToml)]).lookup m'.1 = none := by
            intro m' hm'
            have hOther : (m'.1 == m.1) = false :=
              beq_false_of_ne fun hSame => hNames.1 (hSame ▸ List.mem_map_of_mem hm')
            rw [List.lookup_append, hMore m' hm', List.lookup_cons, hOther]
            rfl
          have hRest : Sheet.TablesLast sheet := by
            cases sheet with
            | nil => exact List.forall_mem_nil _
            | cons m' sheet => exact (List.forall_mem_cons.mp hLast).2
          rw [foldlM_member hm hKind]
          exact (ih hRest hNames.2 hRows hNext).trans (by simp)
      | true =>
          -- Tables come last: behind a header no entry would go to the root any more.
          cases sheet with
          | cons m' sheet =>
              rw [(List.forall_mem_cons.mp hLast).1] at hKind
              cases hKind
          | nil =>
              obtain ⟨name, d⟩ := m
              cases d with
              | count => cases hKind
              | truth => cases hKind
              | rows rs =>
                  have hSome : rs ≠ [] := by
                    rintro rfl
                    cases hKind
                  obtain ⟨header, hTables⟩ := foldlM_tables hm hSome (hRow rs rfl)
                  rw [hTables]
                  rfl

/-! ### Documents as configurations -/

theorem target?_table {t : Target} {r : List (String × String)} (h : r.Perm (row t)) :
    (table r).target? = some t := by
  have hKnown : ∀ entry ∈ r.map fun m => (m.1, Toml.string m.2),
      entry.1 ∈ ["pattern", "ecosystem", "check", "fix"] := by
    intro entry hEntry
    obtain ⟨m, hm, rfl⟩ := List.mem_map.mp hEntry
    have hName : m.1 ∈ (row t).map Prod.fst := List.mem_map_of_mem (h.subset hm)
    exact hName
  have hText {name text : String} (hName : (name, text) ∈ row t) :
      (r.map fun m => (m.1, Toml.string m.2)).lookup name = some (.string text) := by
    rw [lookup_eq_filter, filter_map_value, filter_of_row h hName]
    rfl
  have hRow : (table r).row? ["pattern", "ecosystem", "check", "fix"] = some
      [some (.string t.pattern), some (.string t.ecosystem.tag), some (.string t.check),
        some (.string t.fix)] := by
    rw [table, Toml.row?_of_known hKnown]
    simp only [List.map_cons, List.map_nil]
    rw [hText (.head _), hText (.tail _ (.head _)), hText (.tail _ (.tail _ (.head _))),
      hText (.tail _ (.tail _ (.tail _ (.head _))))]
  have hTag : Ecosystem.ofTag? t.ecosystem.tag = some t.ecosystem := by
    cases t.ecosystem <;> rfl
  rw [Toml.target?, hRow]
  simp [Toml.string?, Toml.ecosystem?, hTag]

theorem word32?_count (n : UInt32) : (Datum.count n).toToml.word32? = some n := by
  have hFits : (n.toNat : Int) < UInt32.size := Int.ofNat_lt.mpr n.toNat_lt
  rw [Datum.toToml, Toml.word32?, if_pos ⟨Int.natCast_nonneg _, hFits⟩, Int.toNat_natCast,
    UInt32.ofNat_toNat]

/-- A table of the members of a configuration decodes to it, in whatever order they stand. -/
theorem config?_of_perm {c : Contents} {rows : List (List (String × String))} {sheet : Sheet}
    (hRows : List.Forall₂ (fun r t => List.Perm r (row t)) rows c.targets)
    (hSheet : sheet.Perm (c.members rows)) :
    Toml.config? (.table .header (sheet.map fun m => (m.1, m.2.toToml))) = some c.config := by
  have hSays := says_of_perm hSheet
  have hKnown : ∀ entry ∈ sheet.map fun m => (m.1, m.2.toToml),
      entry.1 ∈ ["maxIterations", "parallel", "targets"] := by
    intro entry hEntry
    obtain ⟨m, hm, rfl⟩ := List.mem_map.mp hEntry
    exact name_of_members (hSheet.subset hm)
  have hLookup (name : String) : (sheet.map fun m => (m.1, m.2.toToml)).lookup name =
      ((sheet.filter (·.1 == name)).head?.map fun m => m.2.toToml) := by
    rw [lookup_eq_filter, filter_map_value]
    cases sheet.filter (·.1 == name) <;> rfl
  have hRow : (Toml.table .header (sheet.map fun m => (m.1, m.2.toToml))).row?
      ["maxIterations", "parallel", "targets"] = some
        [c.limit.map fun n => (Datum.count n).toToml, c.parallel.map .boolean,
          some (Datum.rows rows).toToml] := by
    rw [Toml.row?_of_known hKnown]
    simp only [List.map_cons, List.map_nil, hLookup, hSays.limit, hSays.parallel, hSays.targets]
    cases c.limit <;> cases c.parallel <;> rfl
  have hTargets : (Datum.rows rows).toToml.targets? = some c.targets := by
    refine Json.mapM_of_forall₂ (fun v t h => h) (List.forall₂_map_left_iff.mpr ?_)
    exact hRows.imp fun _ _ => target?_table
  rw [Toml.config?, hRow]
  obtain ⟨limit, parallel, targets⟩ := c
  simp only [Option.bind_eq_bind, Option.bind_some, hTargets, Contents.config]
  cases limit <;> cases parallel <;>
    simp only [Option.map_some, Option.map_none, word32?_count, Toml.boolean?, Option.bind_some,
      Option.getD_some, Option.getD_none, Option.pure_def]

/-- A TOML document with these contents is read as their configuration. -/
theorem parseConfig_of_writesToml {c : Contents} {sheet : Sheet} (h : Arranges c sheet)
    {text : List Char} (hText : sheet.WritesToml text) : Toml.parseConfig text = some c.config := by
  obtain ⟨hRows, hSheet⟩ := h
  have hNames : (sheet.map Prod.fst).Nodup :=
    (hSheet.map Prod.fst).nodup_iff.mpr (nodup_members c _)
  have hRow : ∀ m ∈ sheet, ∀ rs, m.2 = .rows rs → ∀ r ∈ rs, (r.map Prod.fst).Nodup := by
    rintro ⟨name, d⟩ hm rs rfl r hr
    obtain rfl := rows_of_members (hSheet.subset hm)
    obtain ⟨t, -, hPerm⟩ := Json.exists_of_forall₂ hRows hr
    exact (hPerm.map Prod.fst).nodup_iff.mpr (nodup_row t)
  have hFree : ∀ m ∈ sheet, ([] : Entries).lookup m.1 = none := fun _ _ => rfl
  have hEntries := foldlM_sheet hText.tablesLast hNames hRow hFree
  rw [Toml.parseConfig, hText.document.parse_eq, hEntries]
  exact config?_of_perm hRows hSheet

end Config

end LintRepair
