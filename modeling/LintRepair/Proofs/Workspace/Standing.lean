import LintRepair.Proofs.Files.Directories
import LintRepair.Proofs.Workspace.Appending

/-! What stands at a transcript's path. Nothing else decides what the transcript reads as, and where
a transcript can be written once it can be written again. -/

namespace LintRepair

open Files (Tree Location Entry)

namespace Transcript

/-- What stands where a path leads, if anything does. -/
def standing (tree : Tree) (base : Location) (path : String) : Option Entry :=
  (tree.find base path).toOption.map Prod.snd

/-- The conversation that is read from what stands at a path. It is empty if
nothing does or a file is blank. A directory holds none, and neither does a file
that is not blank and does not decode. -/
def held : Option Entry → Option Conversation
  | none => some []
  | some .directory => none
  | some (.file content) =>
    match String.fromUTF8? content with
    | none => none
    | some text => if Text.isBlankText text then some [] else (Conversation.parse text).toOption

theorem toOption_parse (path text : String) : (parse path text).toOption =
    if Text.isBlankText text then some [] else (Conversation.parse text).toOption := by
  unfold parse
  split
  · rfl
  · cases Conversation.parse text <;> rfl

theorem toOption_read (tree : Tree) (base : Location) (path : String) :
    (read tree base path).toOption = held (standing tree base path) := by
  cases hFind : tree.find base path with
  | error cause => simp [read, Tree.doesExist, standing, held, hFind, Except.toOption]
  | ok found =>
      obtain ⟨here, e⟩ := found
      have hExists : tree.doesExist base path = true := by
        simp [Tree.doesExist, hFind, Except.toOption]
      have hStanding : standing tree base path = some e := by
        simp [standing, hFind, Except.toOption]
      rw [read, if_pos hExists, hStanding]
      cases e with
      | directory =>
          simp [held, Tree.readText, Tree.read, hFind, bind, Except.bind, Except.toOption]
      | file content =>
          cases hText : String.fromUTF8? content with
          | none =>
              simp [held, Tree.readText, Tree.read, hFind, hText, bind, Except.bind,
                Except.toOption]
          | some text =>
              simp [held, Tree.readText, Tree.read, hFind, hText, bind, Except.bind, toOption_parse]

/-- A path holds a conversation exactly if it is read from there. -/
theorem held_eq_some_iff {tree : Tree} {base : Location} {path : String} {c : Conversation} :
    held (standing tree base path) = some c ↔ read tree base path = .ok c := by
  rw [← toOption_read]
  cases read tree base path <;> simp [Except.toOption]

/-- The directories above a path can be made, and then a file may stand there. -/
def Writable (tree : Tree) (base : Location) (path : String) : Prop :=
  ∃ below here, makeParent tree base path = (none, below) ∧ below.locateFile base path = .ok here

/-- Once the directories are made and the file stands, there is nothing left to make. -/
theorem makeParent_put {tree below : Tree} {base here : Location} {path : String}
    (hParent : makeParent tree base path = (none, below))
    (hEntry : below.entry? here ≠ some .directory) (e : Entry) :
    makeParent (below.put here e) base path = (none, below.put here e) := by
  unfold makeParent at hParent ⊢
  split at hParent
  · rfl
  · rename_i parent hPath
    have hSlashes := Files.Path.withoutFinalSlashes_parent hPath
    rw [Prod.mk.injEq, Option.map_eq_none_iff] at hParent
    have hMade := Tree.isDirectory_makeAll hSlashes (Prod.ext hParent.1 hParent.2)
    rw [Tree.makeAll_of_isDirectory hSlashes (hMade.imp_right fun hThere =>
      Tree.isDirectory_put hEntry e hThere)]
    rfl

/-- Where a transcript is readable and writable an append succeeds, and it is
writable still. -/
theorem append_of_writable {tree : Tree} {base : Location} {path : String} {c : Conversation}
    (h : Writable tree base path) (hRead : read tree base path = .ok c) (m : Message) :
    read (append tree base path m).2 base path = .ok (c ++ [m]) ∧
      Writable (append tree base path m).2 base path := by
  obtain ⟨below, here, hParent, hPlace⟩ := h
  have hEntry := (Tree.locate_of_locateFile hPlace).2
  have hWrite : below.write base path (text (c ++ [m])).toUTF8 =
      .ok (below.put here (.file (text (c ++ [m])).toUTF8)) := by
    simp [Tree.write, hPlace, bind, Except.bind]
  have hAppend : append tree base path m =
      (none, below.put here (.file (text (c ++ [m])).toUTF8)) := by
    simp only [append, hRead, hParent, hWrite]
  rw [hAppend]
  exact ⟨read_write hWrite, _, here, makeParent_put hParent hEntry _, Tree.locateFile_put hPlace⟩

end Transcript

end LintRepair
