import LintRepair.Proofs.Json.Reading
import LintRepair.Workspace.Transcript

/-! A conversation that is written is read back: no text of a part is lost, whether it is missing,
empty or full of escapes, and a list of parts is written even when it is empty. -/

namespace LintRepair

open Json (Reads)

/-- A field that takes a value is read with it. -/
theorem Json.Field.reads_of {σ α : Type} {name : String} {required : Bool} {get : σ → Option α}
    {set : σ → α → σ} {read : Reader α} {written : List Char} {a : α} (h : Reads read written a)
    (state : σ) : Reads ((Field.of name required get set read).read state) written (set state a) :=
  h.map fun a => set state a

namespace Part

theorem reads (p : Part) (depth : Nat) : Reads reader (p.toJson.prettyAt depth) p := by
  obtain ⟨kind, text⟩ := p
  cases text with
  | none =>
      have hFills : shape.Fills (depth + 1) {} [("type", .string kind)] { kind := some kind } :=
        .cons rfl rfl (Json.Field.reads_of (Json.reads_text kind) _) (.nil _)
      exact Json.reads_record hFills rfl
  | some t =>
      have hText : Reads (Json.optional Json.text) (Json.quote t) (some t) :=
        (Json.reads_text t).optional (by simp [Json.quote_eq])
      have hFills : shape.Fills (depth + 1) {} [("type", .string kind), ("text", .string t)]
          { kind := some kind, text := some (some t) } :=
        .cons rfl rfl (Json.Field.reads_of (Json.reads_text kind) _)
          (.cons rfl rfl (Json.Field.reads_of hText _) (.nil _))
      exact Json.reads_record hFills rfl

end Part

namespace Message

theorem reads (m : Message) (depth : Nat) : Reads reader (m.toJson.prettyAt depth) m := by
  obtain ⟨role, parts⟩ := m
  have hParts : Reads (Json.list Part.reader)
      ((Json.array (parts.map Part.toJson)).prettyAt (depth + 1)) parts :=
    Json.reads_list fun p _ => p.reads (depth + 2)
  have hFills : shape.Fills (depth + 1) {}
      [("role", .string role), ("parts", .array (parts.map Part.toJson))]
      { role := some role, parts := some parts } :=
    .cons rfl rfl (Json.Field.reads_of (Json.reads_text role) _)
      (.cons rfl rfl (Json.Field.reads_of hParts _) (.nil _))
  exact Json.reads_record hFills rfl

end Message

namespace Transcript

theorem toList_text (c : Conversation) : (text c).toList = c.toJson.pretty :=
  String.toList_ofList

/-- The decoder takes what the encoder writes. -/
theorem conversation_parse_text (c : Conversation) : Conversation.parse (text c) = .ok c := by
  have hReads : Reads Conversation.reader c.toJson.pretty c := Json.reads_list fun m _ => m.reads 1
  rw [Conversation.parse, toList_text, hReads.finish]

/-- A written conversation is never taken for a blank file. -/
theorem isBlankText_text (c : Conversation) : Text.isBlankText (text c) = false := by
  have hOpen : ∃ more, c.toJson.pretty = '[' :: more := by
    cases c with
    | nil => exact ⟨_, rfl⟩
    | cons m c => exact ⟨_, rfl⟩
  obtain ⟨more, hOpen⟩ := hOpen
  rw [Text.isBlankText, toList_text, hOpen]
  rfl

/-- A transcript that was written is read back. -/
theorem parse_text (path : String) (c : Conversation) : parse path (text c) = .ok c := by
  simp [parse, isBlankText_text, conversation_parse_text]

end Transcript

end LintRepair
