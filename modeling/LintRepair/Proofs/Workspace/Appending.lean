import LintRepair.Proofs.Files.Writing
import LintRepair.Proofs.Repair.Counting
import LintRepair.Proofs.Repair.Transcription

/-! Appending to a transcript. The file may hold anything at that moment, also what somebody else has
written since it was last read: what it reads as is kept, and the message comes behind it. -/

namespace LintRepair

open Files (Tree Location)

namespace Transcript

/-- Append messages one by one, up to the first that fails. -/
def appendAll (base : Location) (path : String) : List Message → Tree → Option Fault × Tree
  | [], tree => (none, tree)
  | m :: ms, tree =>
    match append tree base path m with
    | (some fault, tree) => (some fault, tree)
    | (none, tree) => appendAll base path ms tree

/-- Where the text of a conversation was written, the conversation is read. -/
theorem read_write {tree after : Tree} {base : Location} {path : String} {c : Conversation}
    (h : tree.write base path (text c).toUTF8 = .ok after) : read after base path = .ok c := by
  obtain ⟨hExists, hText⟩ := Tree.readText_write h
  simp only [read, hExists, hText, if_true, parse_text]

/-- The ways an append can go: the transcript cannot be read, its directory cannot
be made, the file is refused, or the conversation is written anew. -/
inductive Appended (tree : Tree) (base : Location) (path : String) (m : Message) :
    Option Fault × Tree → Prop where
  | unread {fault : Fault} (failed : read tree base path = .error fault) :
      Appended tree base path m (some fault, tree)
  | unplaced {c : Conversation} (earlier : read tree base path = .ok c) {fault : Fault}
      {below : Tree} (failed : makeParent tree base path = (some fault, below)) :
      Appended tree base path m (some fault, below)
  | refused {c : Conversation} (earlier : read tree base path = .ok c) {below : Tree}
      (placed : makeParent tree base path = (none, below)) {cause : Files.Failure} :
      Appended tree base path m (some (.writing path cause), below)
  | written {c : Conversation} (earlier : read tree base path = .ok c) {below after : Tree}
      (placed : makeParent tree base path = (none, below))
      (written : below.write base path (text (c ++ [m])).toUTF8 = .ok after) :
      Appended tree base path m (none, after)

theorem append_appended (tree : Tree) (base : Location) (path : String) (m : Message) :
    Appended tree base path m (append tree base path m) := by
  unfold append
  split
  · rename_i hRead
    exact .unread hRead
  rename_i c hRead
  split
  · rename_i hParent
    exact .unplaced hRead hParent
  rename_i below hParent
  split
  · exact .refused hRead hParent
  · rename_i hWrite
    exact .written hRead hParent hWrite

theorem content?_makeParent (tree : Tree) (base : Location) (path : String) :
    (makeParent tree base path).2.content? = tree.content? := by
  unfold makeParent
  split
  · rfl
  · exact Tree.content?_makeAll tree base _

/-- After an append that succeeds the earlier conversation is read with the message
behind it. -/
theorem read_of_appended {tree : Tree} {base : Location} {path : String} {m : Message}
    {result : Option Fault × Tree} (h : Appended tree base path m result) (hOk : result.1 = none) :
    ∃ c, read tree base path = .ok c ∧ read result.2 base path = .ok (c ++ [m]) := by
  cases h with
  | unread failed => cases hOk
  | unplaced earlier failed => cases hOk
  | refused earlier placed => cases hOk
  | written earlier placed written => exact ⟨_, earlier, read_write written⟩

/-- An append that fails leaves every file as it was. -/
theorem content?_of_appended {tree : Tree} {base : Location} {path : String} {m : Message}
    {result : Option Fault × Tree} (h : Appended tree base path m result) (hFailed : result.1 ≠ none) :
    result.2.content? = tree.content? := by
  have hParent := content?_makeParent tree base path
  cases h with
  | unread failed => rfl
  | unplaced earlier failed =>
      rw [failed] at hParent
      exact hParent
  | refused earlier placed =>
      rw [placed] at hParent
      exact hParent
  | written earlier placed written => exact absurd rfl hFailed

/-- Messages appended one by one all stand behind the earlier conversation, in
their order. -/
theorem read_appendAll {base : Location} {path : String} {ms : List Message} {tree : Tree}
    {c : Conversation} (hRead : read tree base path = .ok c)
    (hOk : (appendAll base path ms tree).1 = none) :
    read (appendAll base path ms tree).2 base path = .ok (c ++ ms) := by
  induction ms generalizing tree c with
  | nil => rw [List.append_nil]; exact hRead
  | cons m ms ih =>
      have hAppended := append_appended tree base path m
      unfold appendAll at hOk ⊢
      generalize append tree base path m = result at hAppended hOk ⊢
      obtain ⟨fault, after⟩ := result
      cases fault with
      | some fault => cases hOk
      | none =>
          obtain ⟨d, hEarlier, hLater⟩ := read_of_appended hAppended rfl
          obtain rfl := Except.ok.inj (hRead.symm.trans hEarlier)
          rw [List.append_cons]
          exact ih hLater hOk

/-- Below its ceiling the count of requests grows by the message alone. -/
theorem requestsSent_append {c : Conversation} (h : c.requestsSent.toNat < UInt32.size - 1)
    (m : Message) : (Conversation.requestsSent (c ++ [m])).toNat =
      c.requestsSent.toNat + if m.isFixRequest then 1 else 0 := by
  rw [Conversation.toNat_requestsSent] at h ⊢
  rw [Conversation.toNat_requestsSent, Conversation.requestCount_append,
    Conversation.requestCount_singleton]
  split <;> omega

/-- Appending keeps what a transcript reads as, whatever its file holds: after
every append that succeeds, and after any number of them, the earlier
conversation is read with the new messages behind it, and the count of requests
grows with them. An append that fails changes no file. -/
theorem append_law (base : Location) (path : String) :
    (∀ tree m, (append tree base path m).1 = none →
      ∃ c, read tree base path = .ok c ∧
        read (append tree base path m).2 base path = .ok (c ++ [m]) ∧
        (c.requestsSent.toNat < UInt32.size - 1 →
          (Conversation.requestsSent (c ++ [m])).toNat =
            c.requestsSent.toNat + if m.isFixRequest then 1 else 0)) ∧
    (∀ tree ms c, read tree base path = .ok c → (appendAll base path ms tree).1 = none →
      read (appendAll base path ms tree).2 base path = .ok (c ++ ms)) ∧
    ∀ tree m, (append tree base path m).1 ≠ none →
      (append tree base path m).2.content? = tree.content? := by
  refine ⟨fun tree m hOk => ?_, fun tree ms c hRead hOk => read_appendAll hRead hOk, fun tree m hFailed =>
    content?_of_appended (append_appended tree base path m) hFailed⟩
  obtain ⟨c, hEarlier, hLater⟩ := read_of_appended (append_appended tree base path m) hOk
  exact ⟨c, hEarlier, hLater, fun hRoom => requestsSent_append hRoom m⟩

-- A transcript in a directory that is missing yet, and one that is no conversation.
example :
    let m := Message.userText "hello"
    let tree := Tree.empty.put ["notes"] (.file "[1]".toUTF8)
    (append tree [] "chat/log.json" m).1.isNone = true ∧
      (append tree [] "notes" m).1.isNone = false := by decide +kernel

end Transcript

end LintRepair
