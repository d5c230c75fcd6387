import LintRepair.Proofs.Json.Values
import LintRepair.Proofs.Repair.Retention
import LintRepair.Proofs.Workspace.Appending

/-! What an append does to the value that a transcript's file holds. The file is written anew from the
messages that were read from it, so an element stays the same value if a message can hold all of it,
and only then. -/

namespace LintRepair

open Json (Alike Decodes Reads)
open Files (Tree Location)

/-- A part that was written is read back as a value too. -/
theorem Part.reads_value (p : Part) (limit depth : Nat) :
    Reads (Json.value .read (limit + 1)) (p.toJson.prettyAt depth) p.toJson := by
  refine Json.reads_object fun m hm => ?_
  obtain ⟨-, s, hString⟩ := Part.string_of_mem_toJson rfl hm
  rw [hString]
  exact Json.reads_string s limit

/-- A message that was written is read back as a value too. -/
theorem Message.reads_value (m : Message) (limit depth : Nat) :
    Reads (Json.value .read (limit + 3)) (m.toJson.prettyAt depth) m.toJson := by
  refine Json.reads_object fun a ha => ?_
  rcases List.mem_pair.mp ha with rfl | rfl
  · exact Json.reads_string m.role (limit + 2)
  · refine Json.reads_array fun v hv => ?_
    obtain ⟨p, -, rfl⟩ := List.mem_map.mp hv
    exact p.reads_value limit _

theorem Conversation.decodes : Decodes Conversation.reader (Json.list? Message.decode) :=
  Decodes.list Message.decodes

namespace Transcript

/-- The text of a transcript is the text of its value. -/
theorem value_text (c : Conversation) : Json.parse (text c).toList = .ok c.toJson := by
  refine Reads.parse (Json.reads_array fun v hv => ?_)
  obtain ⟨m, -, rfl⟩ := List.mem_map.mp hv
  -- The list and a message nest four levels deep, of the 127 that are read.
  exact m.reads_value 123 1

/-- A text that is a list is not blank. -/
theorem isBlankText_of_parse {text : String} {items : List Json}
    (h : Json.parse text.toList = .ok (.array items)) : Text.isBlankText text = false := by
  obtain ⟨rest, hSpells, -⟩ := Json.parse_spells h
  obtain ⟨-, t, hNext, -⟩ := Json.spells_array hSpells
  have hOpen : '[' ∈ text.toList := by
    refine (List.dropWhile_sublist Json.isSpace).mem ?_
    rw [← Json.skipSpace, hNext]
    exact List.mem_cons_self
  exact List.all_eq_false.mpr ⟨'[', hOpen, by decide⟩

/-- A transcript whose text is a list is read as what the items decode to. -/
theorem read_eq_ok_iff {tree : Tree} {base : Location} {path text : String} {items : List Json}
    (hText : tree.readText base path = .ok text)
    (hValue : Json.parse text.toList = .ok (.array items)) {c : Conversation} :
    read tree base path = .ok c ↔ items.mapM Message.decode = some c := by
  obtain ⟨content, hContent, -⟩ := bind_eq_ok hText
  obtain ⟨found, hFind, -⟩ := bind_eq_ok hContent
  have hExists : tree.doesExist base path = true := by
    simp [Tree.doesExist, hFind, Except.toOption]
  have hParse : Conversation.parse text = .ok c ↔ items.mapM Message.decode = some c :=
    Decodes.finish Conversation.decodes hValue c
  rw [← hParse, read, if_pos hExists, hText]
  simp only [parse, isBlankText_of_parse hValue, Bool.false_eq_true, if_false]
  cases Conversation.parse text <;> simp

/-- After an append that succeeds the file holds what the earlier elements decode
to and the message behind it. -/
theorem value_of_appended {tree : Tree} {base : Location} {path text : String} {items : List Json}
    (hText : tree.readText base path = .ok text)
    (hValue : Json.parse text.toList = .ok (.array items)) {m : Message}
    {result : Option Fault × Tree} (h : Appended tree base path m result) (hOk : result.1 = none) :
    ∃ c after, items.mapM Message.decode = some c ∧ result.2.readText base path = .ok after ∧
      Json.parse after.toList = .ok (.array (c.map Message.toJson ++ [m.toJson])) := by
  cases h with
  | unread failed => cases hOk
  | unplaced earlier failed => cases hOk
  | refused earlier placed => cases hOk
  | @written c earlier below after placed written =>
      refine ⟨c, Transcript.text (c ++ [m]), (read_eq_ok_iff hText hValue).mp earlier,
        (Tree.readText_write written).2, ?_⟩
      rw [value_text, Conversation.toJson, List.map_append]
      rfl

/-- An append that succeeds on a list writes anew what each of its elements decodes
to, and the message behind them. An element is the same value afterwards if it
holds nothing that a message cannot hold, and only then; whatever is written holds
no such thing, so that later appends leave it the same. -/
theorem append_keeps_plain {tree : Tree} {base : Location} {path text : String} {items : List Json}
    {m : Message} (hText : tree.readText base path = .ok text)
    (hValue : Json.parse text.toList = .ok (.array items))
    (hOk : (append tree base path m).1 = none) :
    ∃ c after, items.mapM Message.decode = some c ∧
      (append tree base path m).2.readText base path = .ok after ∧
      Json.parse after.toList = .ok (.array (c.map Message.toJson ++ [m.toJson])) ∧
      List.Forall₂ (fun v n => Alike v n.toJson ↔ Message.IsPlain v) items c ∧
      ∀ v ∈ c.map Message.toJson ++ [m.toJson], Message.IsPlain v := by
  obtain ⟨c, after, hDecode, hAfter, hWritten⟩ :=
    value_of_appended hText hValue (append_appended tree base path m) hOk
  refine ⟨c, after, hDecode, hAfter, hWritten, ?_, fun v hv => ?_⟩
  · exact (Json.forall₂_of_mapM hDecode).imp fun v n hItem =>
      ⟨Message.isPlain_of_alike, Message.alike_of_isPlain hItem⟩
  · obtain ⟨n, rfl⟩ : ∃ n : Message, v = n.toJson := by
      rcases List.mem_append.mp hv with hv | hv
      · obtain ⟨n, -, rfl⟩ := List.mem_map.mp hv
        exact ⟨n, rfl⟩
      · exact ⟨m, List.mem_singleton.mp hv⟩
    exact Message.isPlain_of_alike (.same _)

/-! ### A member that a message does not know -/

/-- A message that carries an id. -/
def tagged : Json := .object [("role", .string "user"), ("parts", .array []), ("id", .string "m1")]

/-- A file with that message. -/
def taggedText : String := Json.prettyText (.array [tagged])

def taggedTree : Tree := Tree.empty.put ["t.json"] (.file taggedText.toUTF8)

theorem readText_taggedTree : taggedTree.readText [] "t.json" = .ok taggedText := by
  have hFind : taggedTree.find [] "t.json" = .ok (["t.json"], .file taggedText.toUTF8) := by rfl
  simp [Tree.readText, Tree.read, hFind, Tree.fromUTF8?_toByteArray, bind, Except.bind]

theorem parse_taggedText : Json.parse taggedText.toList = .ok (.array [tagged]) := by
  refine Reads.parse (Json.reads_array fun w hw => ?_)
  obtain rfl := List.mem_singleton.mp hw
  refine Json.reads_object fun a ha => ?_
  simp only [List.mem_cons, List.not_mem_nil, or_false] at ha
  rcases ha with rfl | rfl | rfl
  · exact Json.reads_string "user" 125
  · exact Json.reads_array fun _ hNone => absurd hNone List.not_mem_nil
  · exact Json.reads_string "m1" 125

theorem append_taggedTree : (append taggedTree [] "t.json" (.userText "hi")).1 = none := by
  rw [← Option.isNone_iff_eq_none]
  decide +kernel

theorem append_keeps_plain_tagged : ∃ after,
    (append taggedTree [] "t.json" (.userText "hi")).2.readText [] "t.json" = .ok after ∧
      Json.parse after.toList =
        .ok (.array [Message.toJson ⟨"user", []⟩, (Message.userText "hi").toJson]) := by
  obtain ⟨c, after, hDecode, hAfter, hWritten, -⟩ :=
    append_keeps_plain readText_taggedTree parse_taggedText append_taggedTree
  have hTagged : [tagged].mapM Message.decode = some [⟨"user", []⟩] := by rfl
  obtain rfl := Option.some.inj (hTagged.symm.trans hDecode)
  exact ⟨after, hAfter, hWritten⟩

/-- Elements are not kept in general: a member that a message does not know is gone
after the next append. -/
theorem append_drops_member : ¬ ∀ (tree : Tree) (base : Location) (path text : String)
    (items : List Json) (m : Message), tree.readText base path = .ok text →
    Json.parse text.toList = .ok (.array items) → (append tree base path m).1 = none →
    ∃ kept after, (append tree base path m).2.readText base path = .ok after ∧
      Json.parse after.toList = .ok (.array (kept ++ [m.toJson])) ∧
      List.Forall₂ Alike items kept := by
  intro hKeeps
  obtain ⟨kept, after, hAfter, hKept, hAlike⟩ := hKeeps taggedTree [] "t.json" taggedText [tagged] _
    readText_taggedTree parse_taggedText append_taggedTree
  obtain ⟨c, again, -, hAgain, hWritten⟩ := value_of_appended readText_taggedTree parse_taggedText
    (append_appended taggedTree [] "t.json" (.userText "hi")) append_taggedTree
  obtain rfl := Except.ok.inj (hAfter.symm.trans hAgain)
  have hSame : kept = c.map Message.toJson := by
    have hItems := Json.array.inj (Except.ok.inj (hKept.symm.trans hWritten))
    exact List.append_cancel_right hItems
  obtain ⟨w, hw, hAlike⟩ := Json.exists_of_forall₂ hAlike List.mem_cons_self
  rw [hSame] at hw
  obtain ⟨n, -, rfl⟩ := List.mem_map.mp hw
  have hPlain : Message.IsPlain tagged := Message.isPlain_of_alike hAlike
  have hId := hPlain.1 ("id", .string "m1") (by simp)
  simp at hId

end Transcript

end LintRepair
