import LintRepair.Yaml.Node
import Mathlib.Data.List.Forall2

/-! Nodes from the tokens of blocks. A node without an anchor or a tag is built from just its own tokens,
and the tokens behind it are left for what comes next. -/

namespace LintRepair.Yaml

def Draft.before (d : Draft) (ts : List Token) : Draft := { d with tokens := ts }

namespace Build

variable {ts rest : List Token} {asEntry : Bool} {n : Node} {bound : Nat}

/-! ### Steps -/

section Steps

variable {d d' : Draft} {α β : Type}

/-- A step that succeeds hands its value on. -/
theorem bind_eq {p : Build α} {a : α} (h : p d = some (a, d')) (f : α → Build β) :
    (p >>= f) d = f a d' := by
  have hBind : (p >>= f) d = (p d).bind fun r => f r.1 r.2 := rfl
  rw [hBind, h]
  rfl

theorem passIf_other {t : Token} (h : d.tokens.head? ≠ some t) : passIf t d = some (false, d) := by
  have hPeek : passIf t d = (if d.tokens.head? == some t then (do pass; return true) else
    (return false) : Build Bool) d := rfl
  rw [hPeek, beq_false_of_ne h]
  rfl

/-- A scalar is a node of its own. -/
theorem node_scalar (style : Style) (text : String) :
    node true asEntry (bound + 1) (d.before (.scalar style text :: ts)) =
      some (.scalar none style text, d.before ts) := by
  rw [node]
  cases asEntry <;> rfl

theorem node_brackets : node true asEntry (bound + 1)
    (d.before (.flowSequenceStart :: .flowSequenceEnd :: ts)) =
      some (.sequence none [], d.before ts) := by
  rw [node]
  cases asEntry <;> rfl

/-- A mapping is its entries up to the end of its block. -/
theorem node_mapping {entries : List (Node × Node)}
    (h : blockEntries bound (d.before ts) = some (entries, d')) :
    node true asEntry (bound + 1) (d.before (.blockMappingStart :: ts)) =
      some (.mapping none entries, d') := by
  have hNode : node true asEntry (bound + 1) (d.before (.blockMappingStart :: ts)) =
      (blockEntries bound (d.before ts)).bind fun r => some (.mapping none r.1, r.2) := by
    rw [node]
    cases asEntry <;> rfl
  rw [hNode, h]
  rfl

/-- A sequence is its items up to the end of its block. -/
theorem node_sequence {items : List Node} (h : blockItems bound (d.before ts) = some (items, d')) :
    node true asEntry (bound + 1) (d.before (.blockSequenceStart :: ts)) =
      some (.sequence none items, d') := by
  have hNode : node true asEntry (bound + 1) (d.before (.blockSequenceStart :: ts)) =
      (blockItems bound (d.before ts)).bind fun r => some (.sequence none r.1, r.2) := by
    rw [node]
    cases asEntry <;> rfl
  rw [hNode, h]
  rfl

/-- Behind a key items may stand without a block of their own. -/
theorem node_items {found : List Node}
    (h : items bound (d.before (.blockEntry :: ts)) = some (found, d')) :
    node true true (bound + 1) (d.before (.blockEntry :: ts)) = some (.sequence none found, d') := by
  have hNode : node true true (bound + 1) (d.before (.blockEntry :: ts)) =
      (items bound (d.before (.blockEntry :: ts))).bind fun r =>
        some (.sequence none r.1, r.2) := by
    rw [node]
    rfl
  rw [hNode, h]
  rfl

/-- A token that does not end an entry begins its node. -/
theorem nodeUnless_of_notMem {t : Token} {ends : List Token} (h : t ∉ ends) :
    nodeUnless true asEntry ends (bound + 1) (d.before (t :: ts)) =
      node true asEntry bound (d.before (t :: ts)) := by
  have hStays : ends.contains t = false := by
    rw [Bool.eq_false_iff]
    simpa using h
  have hNext : nextIn ends (d.before (t :: ts)) = some (false, d.before (t :: ts)) := by
    rw [← hStays]
    rfl
  rw [nodeUnless, bind_eq hNext]
  rfl

/-- An item is built before the ones behind it. -/
theorem items_more {item : Node} {more : List Node} {us : List Token}
    (hItem : nodeUnless true false [.blockEntry, .key, .value, .blockEnd] bound (d.before ts) =
      some (item, d.before us)) (hMore : items bound (d.before us) = some (more, d')) :
    items (bound + 1) (d.before (.blockEntry :: ts)) = some (item :: more, d') := by
  have hItems : items (bound + 1) (d.before (.blockEntry :: ts)) =
      (nodeUnless true false [.blockEntry, .key, .value, .blockEnd] bound (d.before ts)).bind fun r =>
        (items bound r.2).bind fun r' => some (r.1 :: r'.1, r'.2) := by
    rw [items]
    rfl
  simp only [hItems, hItem, hMore, Option.bind_some]

theorem items_end (h : d.tokens.head? ≠ some .blockEntry) : items (bound + 1) d = some ([], d) := by
  rw [items, bind_eq (passIf_other h)]
  rfl

theorem blockItems_more {item : Node} {more : List Node} {us : List Token}
    (hItem : nodeUnless true false [.blockEntry, .blockEnd] bound (d.before ts) =
      some (item, d.before us)) (hMore : blockItems bound (d.before us) = some (more, d')) :
    blockItems (bound + 1) (d.before (.blockEntry :: ts)) = some (item :: more, d') := by
  have hItems : blockItems (bound + 1) (d.before (.blockEntry :: ts)) =
      (nodeUnless true false [.blockEntry, .blockEnd] bound (d.before ts)).bind fun r =>
        (blockItems bound r.2).bind fun r' => some (r.1 :: r'.1, r'.2) := by
    rw [blockItems]
    rfl
  simp only [hItems, hItem, hMore, Option.bind_some]

theorem blockItems_end : blockItems (bound + 1) (d.before (.blockEnd :: ts)) =
    some ([], d.before ts) := by
  rw [blockItems]
  rfl

/-- An entry is a key and the node behind its colon, before the entries behind it. -/
theorem blockEntries_more {style : Style} {name : String} {value : Node}
    {more : List (Node × Node)} {us : List Token}
    (hValue : nodeUnless true true [.key, .value, .blockEnd] (bound + 2) (d.before ts) =
      some (value, d.before us)) (hMore : blockEntries (bound + 2) (d.before us) = some (more, d')) :
    blockEntries (bound + 3) (d.before (.key :: .scalar style name :: .value :: ts)) =
      some ((.scalar none style name, value) :: more, d') := by
  have hKey : nodeUnless true true [.key, .value, .blockEnd] (bound + 2)
      (d.before (.scalar style name :: .value :: ts)) =
        some (.scalar none style name, d.before (.value :: ts)) := by
    rw [nodeUnless_of_notMem (by simp), node_scalar]
  have hEntries : blockEntries (bound + 3) (d.before (.key :: .scalar style name :: .value :: ts)) =
      (nodeUnless true true [.key, .value, .blockEnd] (bound + 2)
        (d.before (.scalar style name :: .value :: ts))).bind fun r =>
          (do
            let value ←
              if ← passIf .value then nodeUnless true true [.key, .value, .blockEnd] (bound + 2)
              else pure (.empty none)
            return (r.1, value) :: (← blockEntries (bound + 2))) r.2 := by
    rw [blockEntries]
    rfl
  have hRest : blockEntries (bound + 3) (d.before (.key :: .scalar style name :: .value :: ts)) =
      (nodeUnless true true [.key, .value, .blockEnd] (bound + 2) (d.before ts)).bind fun r =>
        (blockEntries (bound + 2) r.2).bind fun r' =>
          some ((.scalar none style name, r.1) :: r'.1, r'.2) := by
    rw [hEntries, hKey]
    rfl
  simp only [hRest, hValue, hMore, Option.bind_some]

theorem blockEntries_end : blockEntries (bound + 1) (d.before (.blockEnd :: ts)) =
    some ([], d.before ts) := by
  rw [blockEntries]
  rfl

end Steps

/-! ### Nodes -/

/-- These tokens make up a node. As the value of an entry they may be items without a block of their own,
and then no further item may follow. -/
structure Builds (asEntry : Bool) (ts : List Token) (n : Node) : Prop where
  begins : ∃ t us, ts = t :: us ∧ t ∉ [.key, .value, .blockEnd] ∧ (t = .blockEntry → asEntry = true)
  node_eq : ∀ (d : Draft) {rest : List Token}, (asEntry = true → rest.head? ≠ some .blockEntry) →
    ∀ {bound : Nat}, 3 * ts.length ≤ bound + 1 →
      node true asEntry bound (d.before (ts ++ rest)) = some (n, d.before rest)

/-- The tokens of an entry with a scalar as its key. -/
inductive BuildsEntry : List Token → Node × Node → Prop where
  | entry {style : Style} {name : String} {ts : List Token} {v : Node} (value : Builds true ts v) :
      BuildsEntry (.key :: .scalar style name :: .value :: ts) (.scalar none style name, v)

/-- The tokens of an item. -/
inductive BuildsItem : List Token → Node → Prop where
  | item {ts : List Token} {n : Node} (node : Builds false ts n) : BuildsItem (.blockEntry :: ts) n

/-- Every node has a token. -/
theorem Builds.length_pos (h : Builds asEntry ts n) : 1 ≤ ts.length := by
  obtain ⟨t, us, rfl, -⟩ := h.begins
  simp

/-- What builds a node does so wherever a node is expected. -/
theorem Builds.nodeUnless_eq (h : Builds asEntry ts n) {ends : List Token}
    (hEnds : ∀ t ∈ ends, t ∈ [.key, .value, .blockEnd] ∨ t = .blockEntry ∧ asEntry = false) (d : Draft)
    (hRest : asEntry = true → rest.head? ≠ some .blockEntry) (hBound : 3 * ts.length ≤ bound) :
    nodeUnless true asEntry ends bound (d.before (ts ++ rest)) = some (n, d.before rest) := by
  have hLong := h.length_pos
  obtain ⟨bound, rfl⟩ : ∃ b, bound = b + 1 := ⟨bound - 1, by omega⟩
  have hNode := h.node_eq d hRest hBound
  obtain ⟨t, us, rfl, hOther, hItem⟩ := h.begins
  have hStays : t ∉ ends := by
    intro hEnd
    rcases hEnds t hEnd with hEnd | ⟨rfl, hFalse⟩
    · exact hOther hEnd
    · rw [hItem rfl] at hFalse
      cases hFalse
  exact (nodeUnless_of_notMem hStays).trans hNode

/-- Entries that are built from their tokens make up a mapping, if the bound is large enough. -/
theorem blockEntries_eq {tss : List (List Token)} {entries : List (Node × Node)}
    (h : List.Forall₂ BuildsEntry tss entries) (d : Draft) (hBound : 3 * tss.flatten.length < bound) :
    blockEntries bound (d.before (tss.flatten ++ .blockEnd :: rest)) = some (entries, d.before rest) := by
  induction h generalizing bound with
  | nil =>
      obtain ⟨bound, rfl⟩ : ∃ b, bound = b + 1 := ⟨bound - 1, by omega⟩
      exact blockEntries_end
  | @cons ts entry tss entries hEntry hMore ih =>
      obtain ⟨value⟩ := hEntry
      simp only [List.flatten_cons, List.cons_append, List.length_cons, List.length_append] at hBound
      obtain ⟨bound, rfl⟩ : ∃ b, bound = b + 3 := ⟨bound - 3, by omega⟩
      rw [List.flatten_cons, List.cons_append, List.cons_append, List.cons_append, List.cons_append,
        List.cons_append, List.cons_append, List.append_assoc]
      refine blockEntries_more (value.nodeUnless_eq (by simp) d (fun _ => ?_) (by omega))
        (ih (by omega))
      -- an entry or the end of the block follows
      cases hMore with
      | nil => simp
      | cons hNext _ =>
          obtain ⟨-⟩ := hNext
          simp

theorem items_eq {tss : List (List Token)} {found : List Node} (h : List.Forall₂ BuildsItem tss found)
    (d : Draft) (hRest : rest.head? ≠ some .blockEntry) (hSome : 0 < bound)
    (hBound : 3 * tss.flatten.length ≤ bound + 2) :
    items bound (d.before (tss.flatten ++ rest)) = some (found, d.before rest) := by
  obtain ⟨bound, rfl⟩ : ∃ b, bound = b + 1 := ⟨bound - 1, by omega⟩
  induction h generalizing bound with
  | nil => exact items_end hRest
  | @cons ts item tss found hItem hMore ih =>
      obtain ⟨hNode⟩ := hItem
      have hLong := hNode.length_pos
      simp only [List.flatten_cons, List.cons_append, List.length_cons, List.length_append] at hBound
      obtain ⟨bound, rfl⟩ : ∃ b, bound = b + 1 := ⟨bound - 1, by omega⟩
      rw [List.flatten_cons, List.cons_append, List.cons_append, List.append_assoc]
      exact items_more (hNode.nodeUnless_eq (by simp) d (by simp) (by omega))
        (ih bound (by omega) (by omega))

/-- Items that are built from their tokens make up a sequence, if the bound is large enough. -/
theorem blockItems_eq {tss : List (List Token)} {found : List Node}
    (h : List.Forall₂ BuildsItem tss found) (d : Draft) (hBound : 3 * tss.flatten.length < bound) :
    blockItems bound (d.before (tss.flatten ++ .blockEnd :: rest)) = some (found, d.before rest) := by
  induction h generalizing bound with
  | nil =>
      obtain ⟨bound, rfl⟩ : ∃ b, bound = b + 1 := ⟨bound - 1, by omega⟩
      exact blockItems_end
  | @cons ts item tss found hItem hMore ih =>
      obtain ⟨hNode⟩ := hItem
      simp only [List.flatten_cons, List.cons_append, List.length_cons, List.length_append] at hBound
      obtain ⟨bound, rfl⟩ : ∃ b, bound = b + 1 := ⟨bound - 1, by omega⟩
      rw [List.flatten_cons, List.cons_append, List.cons_append, List.append_assoc]
      exact blockItems_more (hNode.nodeUnless_eq (by simp) d (by simp) (by omega)) (ih (by omega))

namespace Builds

theorem scalar (asEntry : Bool) (style : Style) (text : String) :
    Builds asEntry [.scalar style text] (.scalar none style text) := by
  refine ⟨⟨_, _, rfl, by simp, by simp⟩, fun d rest _ bound hBound => ?_⟩
  obtain ⟨bound, rfl⟩ : ∃ b, bound = b + 1 := ⟨bound - 1, by simp at hBound; omega⟩
  exact node_scalar style text

theorem brackets (asEntry : Bool) :
    Builds asEntry [.flowSequenceStart, .flowSequenceEnd] (.sequence none []) := by
  refine ⟨⟨_, _, rfl, by simp, by simp⟩, fun d rest _ bound hBound => ?_⟩
  obtain ⟨bound, rfl⟩ : ∃ b, bound = b + 1 := ⟨bound - 1, by simp at hBound; omega⟩
  exact node_brackets

theorem mapping (asEntry : Bool) {tss : List (List Token)} {entries : List (Node × Node)}
    (h : List.Forall₂ BuildsEntry tss entries) :
    Builds asEntry (.blockMappingStart :: (tss.flatten ++ [.blockEnd])) (.mapping none entries) := by
  refine ⟨⟨_, _, rfl, by simp, by simp⟩, fun d rest _ bound hBound => ?_⟩
  simp only [List.length_cons, List.length_append] at hBound
  obtain ⟨bound, rfl⟩ : ∃ b, bound = b + 1 := ⟨bound - 1, by omega⟩
  have hLong : 3 * tss.flatten.length < bound := by omega
  rw [List.cons_append, List.append_assoc]
  exact node_mapping (blockEntries_eq h d hLong)

theorem sequence (asEntry : Bool) {tss : List (List Token)} {found : List Node}
    (h : List.Forall₂ BuildsItem tss found) :
    Builds asEntry (.blockSequenceStart :: (tss.flatten ++ [.blockEnd])) (.sequence none found) := by
  refine ⟨⟨_, _, rfl, by simp, by simp⟩, fun d rest _ bound hBound => ?_⟩
  simp only [List.length_cons, List.length_append] at hBound
  obtain ⟨bound, rfl⟩ : ∃ b, bound = b + 1 := ⟨bound - 1, by omega⟩
  have hLong : 3 * tss.flatten.length < bound := by omega
  rw [List.cons_append, List.append_assoc]
  exact node_sequence (blockItems_eq h d hLong)

/-- Items that have no block of their own make up a sequence. -/
theorem items {tss : List (List Token)} {found : List Node}
    (h : List.Forall₂ BuildsItem tss found) (hSome : tss ≠ []) :
    Builds true tss.flatten (.sequence none found) := by
  have hHead : ∃ ts more, tss.flatten = .blockEntry :: ts ++ more ∧ 1 ≤ ts.length := by
    cases h with
    | nil => exact absurd rfl hSome
    | cons hItem _ =>
        obtain ⟨hNode⟩ := hItem
        exact ⟨_, _, List.flatten_cons, hNode.length_pos⟩
  obtain ⟨ts, more, hFlat, hLong⟩ := hHead
  refine ⟨⟨_, _, hFlat, by simp, by simp⟩, fun d rest hRest bound hBound => ?_⟩
  have hLength : 2 ≤ tss.flatten.length := by
    rw [hFlat, List.cons_append, List.length_cons, List.length_append]
    omega
  obtain ⟨bound, rfl⟩ : ∃ b, bound = b + 1 := ⟨bound - 1, by omega⟩
  have hPos : 0 < bound := by omega
  have hItems := items_eq h d (hRest rfl) hPos (by omega)
  rw [hFlat] at hItems ⊢
  exact node_items hItems

end Builds

/-- A document whose root is a block of entries. -/
theorem document_eq {tss : List (List Token)} {entries : List (Node × Node)}
    (h : List.Forall₂ BuildsEntry tss entries) :
    document ⟨.blockMappingStart :: (tss.flatten ++ [.blockEnd]), [], [], []⟩ =
      some (.mapping none entries, ⟨[], standardHandles, [], []⟩) := by
  have hGet (d : Draft) : (get : Build Draft) d = some (d, d) := rfl
  have hDirectives (bound : Nat) (d : Draft) (ts : List Token) :
      directives (bound + 1) false [] (d.before (.blockMappingStart :: ts)) =
        some ((false, []), d.before (.blockMappingStart :: ts)) := by
    rw [directives]
    rfl
  have hLong : 3 * (.blockMappingStart :: (tss.flatten ++ [.blockEnd]) : List Token).length ≤
      4 * (tss.flatten.length + 2) + 4 + 1 := by
    simp only [List.length_cons, List.length_append, List.length_nil]
    omega
  have hNone : false = true → ([] : List Token).head? ≠ some .blockEntry := nofun
  have hNode := (Builds.mapping false h).node_eq ⟨[], standardHandles, [], []⟩ hNone hLong
  rw [List.append_nil] at hNode
  have hBound : 4 * ((.blockMappingStart :: (tss.flatten ++ [.blockEnd]) : List Token).length + 1) =
      4 * (tss.flatten.length + 2) + 4 := by
    simp only [List.length_cons, List.length_append, List.length_nil]
    omega
  rw [document, bind_eq (hGet _)]
  simp only [hBound]
  refine (bind_eq (hDirectives _ ⟨[], [], [], []⟩ _) _).trans ?_
  refine (bind_eq rfl _).trans ?_
  refine (bind_eq (passIf_other (by simp [Draft.before])) _).trans ?_
  rw [if_neg (by simp)]
  refine (bind_eq rfl _).trans ?_
  rw [if_neg (by simp)]
  exact (bind_eq hNode _).trans rfl

end Build

/-- A text whose tokens are one block of entries is a document with these entries. -/
theorem Document.parse_eq {text : List Char} {tss : List (List Token)} {entries : List (Node × Node)}
    (hTokens : tokens? text = some (.blockMappingStart :: (tss.flatten ++ [.blockEnd])))
    (h : List.Forall₂ Build.BuildsEntry tss entries) :
    Document.parse text = some ⟨.mapping none entries, []⟩ := by
  rw [Document.parse, hTokens]
  simp only [Option.bind_eq_bind, Option.bind_some, Build.document_eq h]

end LintRepair.Yaml
