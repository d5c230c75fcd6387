import LintRepair.Proofs.Json.Members
import LintRepair.Proofs.Json.Roundtrip

/-! Records that are printed and read again. What is printed is read as the record it was printed for,
in either layout, so a text that is once read and printed is not changed any more by doing it again. -/

namespace LintRepair.Json

variable {α : Type}

/-- The two forms that values are printed in. -/
inductive Layout where
  | compact
  | pretty

/-- The text of a value. -/
def Layout.print : Layout → Json → List Char
  | .compact, v => v.compact
  | .pretty, v => v.pretty

/-- Read a text and print what it gives. -/
def recode (read : Reader α) (write : α → Json) (layout : Layout) (text : List Char) :
    Except Fault (List Char) :=
  (finish read text).map fun a => layout.print (write a)

/-- What is printed is read again as what it was printed for, and what a text is printed as is
printed as itself. -/
structure RoundTrips (read : Reader α) (write : α → Json) : Prop where
  restored : ∀ (layout : Layout) (a : α), finish read (layout.print (write a)) = .ok a
  settled : ∀ (layout : Layout) {text printed : List Char},
    recode read write layout text = .ok printed → recode read write layout printed = .ok printed

/-- A reader and a writer that belong together. The reader takes a value by what it decodes to, what is
written decodes to what it was written for, and it goes so many levels deep. -/
structure Restores (levels : Nat) (read : Reader α) (decode : Json → Option α) (write : α → Json) :
    Prop where
  decodes : Decodes read decode
  decode_write : ∀ a, decode (write a) = some a
  exact : ∀ a depth, Exact (depth + levels) (write a)

theorem Layout.stands {v : Json} (h : Exact maxDepth v) (layout : Layout) :
    Stands maxDepth (layout.print v) v := by
  cases layout with
  | compact => exact h.stands_compact
  | pretty => exact h.stands_pretty 0

namespace Restores

variable {levels : Nat} {read : Reader α} {decode : Json → Option α} {write : α → Json}

/-- The printed record is read again, also with new lines behind it. -/
theorem finish (h : Restores levels read decode write) (hLevels : levels ≤ maxDepth) (layout : Layout)
    (a : α) {space : List Char} (hSpace : ∀ c ∈ space, c = '\n') :
    Json.finish read (layout.print (write a) ++ space) = .ok a := by
  have hExact := h.exact a (maxDepth - levels)
  rw [Nat.sub_add_cancel hLevels] at hExact
  exact (h.decodes.finish ((layout.stands hExact).parse hSpace) a).mpr (h.decode_write a)

/-- A record that is restored from its value is read back in both layouts. -/
theorem roundTrips (h : Restores levels read decode write) (hLevels : levels ≤ maxDepth) :
    RoundTrips read write := by
  have hRestored (layout : Layout) (a : α) : Json.finish read (layout.print (write a)) = .ok a := by
    have hFinish := h.finish hLevels layout a (List.forall_mem_nil _)
    rwa [List.append_nil] at hFinish
  refine ⟨hRestored, fun layout text printed hRecode => ?_⟩
  obtain ⟨a, -, rfl⟩ := map_eq_ok hRecode
  rw [recode, hRestored]
  rfl

/-- Lists of records go one level deeper. -/
theorem list (h : Restores levels read decode write) :
    Restores (levels + 1) (Json.list read) (list? decode) fun as => .array (as.map write) where
  decodes := h.decodes.list
  decode_write _ := mapM_of_forall₂ (fun _ _ hItem => hItem) (List.forall₂_map_left_iff.mpr
    (List.forall₂_same.mpr fun a _ => h.decode_write a))
  exact _ depth := .array (List.forall_mem_map.mpr fun a _ => h.exact a depth)

end Restores

end LintRepair.Json
