import LintRepair.Proofs.Repair.Boundary
import LintRepair.Proofs.Repair.Succession
import LintRepair.Proofs.Workspace.Standing
import LintRepair.Workspace.Basic

/-! Runs that keep their conversation in a file. Each of them starts afresh and knows of the earlier
ones by the file alone, which is written anew at every request; still one run after another goes as
it would with a list of messages. A file that cannot be read stops every run before its first call.
-/

namespace LintRepair

variable {ρ τ : Type}

namespace Workspace

/-- The workplace of a terminal with a runner of its own, which may work on the
files and remember more than they tell. -/
def workplaceWith (o : Options) (runner : Runner (Workspace × ρ)) : Workplace (Workspace × ρ) where
  toRunner := runner
  changedFiles s := (workplace o).changedFiles s.1
  history s := (workplace o).history s.1
  prompt text s := (((workplace o).prompt text s.1).1, ((workplace o).prompt text s.1).2, s.2)
  notify level text s := ((workplace o).notify level text s.1, s.2)

/-- The terminal's own workplace is the one where the runner is the shell. -/
theorem workplaceWith_shell (o : Options) (r : ρ) (targets : List Target) :
    (workplaceWith o
      { check t s := (((runner o.root).check t s.1).1, ((runner o.root).check t s.1).2, r)
        fix t s := ((runner o.root).fix t s.1, r) }).Simulates (workplace o) targets
      fun s w => s.1 = w where
  check t _ {s w} h := by subst h; exact ⟨rfl, rfl⟩
  fix t _ {s w} h := by subst h; rfl
  changedFiles {s w} h := by subst h; rfl
  history {s w} h := by subst h; rfl
  prompt text {s w} h := by subst h; rfl
  notify level text {s w} h := by subst h; rfl

def standing (path : String) (w : Workspace) : Option Files.Entry :=
  Transcript.standing w.tree w.directory path

/-- A transcript can be written at a path. -/
def Writable (path : String) (w : Workspace) : Prop :=
  Transcript.Writable w.tree w.directory path

def conversation (path : String) (w : Workspace) : Except Transcript.Fault Conversation :=
  Transcript.read w.tree w.directory path

/-- A transcript is left alone: what stands at its path is the same, and can be
written if it could before. -/
structure Spared (path : String) (before after : Workspace) : Prop where
  standing : after.standing path = before.standing path
  writable : before.Writable path → after.Writable path

@[simp] theorem standing_notify (path : String) (o : Options) (level : NoticeLevel) (text : String)
    (w : Workspace) : (notify o level text w).standing path = w.standing path := by
  unfold notify
  split <;> rfl

theorem spared_notify (path : String) (o : Options) (level : NoticeLevel) (text : String)
    (w : Workspace) : Spared path w (notify o level text w) where
  standing := standing_notify path o level text w
  writable h := by
    unfold notify
    split <;> exact h

end Workspace

/-- A run to be made at a workspace, with what its runner sees of it. The runner's
image does to what is seen what the runner does to the workspace. -/
structure Errand (ρ τ : Type) where
  options : Workspace.Options
  runner : Runner (Workspace × ρ)
  config : Config
  turns : List Nat
  image : Runner τ
  files : τ → List String

namespace Errand

/-- The options of the run, with the transcript at a path. -/
def optionsAt (e : Errand ρ τ) (path : String) : Workspace.Options :=
  { e.options with transcript := some path }

def place (e : Errand ρ τ) (path : String) : Workplace (Workspace × ρ) :=
  Workspace.workplaceWith (e.optionsAt path) e.runner

/-- Make the run. -/
def perform (e : Errand ρ τ) (path : String) (s : Workspace × ρ) : Outcome × (Workspace × ρ) :=
  (e.place path).runInTurns e.turns e.config s

/-- The calls that the run makes, its prompts and notices among them. -/
def calls (e : Errand ρ τ) (path : String) (s : Workspace × ρ) : List Call :=
  ((e.place path).recording.runInTurns e.turns e.config (s, [])).2.2

/-- The host that keeps the messages in a list, for the same run. -/
def host (e : Errand ρ τ) : Host τ :=
  { Host.inMemory e.image [] true with changedFiles := fun s => e.files s.1 }

/-- Make the run with the list. -/
def performListed (e : Errand ρ τ) (u : τ × Conversation) : Outcome × (τ × Conversation) :=
  e.host.runInTurns e.turns e.config u

/-- The calls that the run makes with the list. -/
def callsListed (e : Errand ρ τ) (u : τ × Conversation) : List Call :=
  (e.host.recording.runInTurns e.turns e.config (u, [])).2.2

/-- The run of a runner that works in its own memory and on no file. -/
def aside (options : Workspace.Options) (files : List String) (image : Runner τ) (config : Config)
    (turns : List Nat) : Errand τ τ where
  options := { options with files := some files }
  runner :=
    { check t s := ((image.check t s.2).1, s.1, (image.check t s.2).2)
      fix t s := (s.1, image.fix t s.2) }
  config := config
  turns := turns
  image := image
  files _ := files

/-- The runner does not touch the transcript when it works on configured targets. Its
answers and what it sees of its own work hang on what it sees alone; neither an
append nor a notice shows there; and it spares the file. -/
structure Untouching (e : Errand ρ τ) (path : String) (sees : Workspace × ρ → τ) : Prop where
  check : ∀ t ∈ e.config.targets, ∀ s,
    Agree (fun after seen => sees after = seen) (e.runner.check t s) (e.image.check t (sees s))
  fix : ∀ t ∈ e.config.targets, ∀ s, sees (e.runner.fix t s) = e.image.fix t (sees s)
  files : ∀ s, (Workspace.workplace e.options).changedFiles s.1 = e.files (sees s)
  prompt : ∀ text s, sees ((e.place path).prompt text s).2 = sees s
  notify : ∀ level text s, sees ((e.place path).notify level text s) = sees s
  check_spares : ∀ t ∈ e.config.targets, ∀ s, Workspace.Spared path s.1 (e.runner.check t s).2.1
  fix_spares : ∀ t ∈ e.config.targets, ∀ s, Workspace.Spared path s.1 (e.runner.fix t s).1

/-- Every runner can work aside. -/
theorem untouching_aside (options : Workspace.Options) (files : List String) (image : Runner τ)
    (config : Config) (turns : List Nat) (path : String) :
    (aside options files image config turns).Untouching path Prod.snd where
  check _ _ _ := ⟨rfl, rfl⟩
  fix _ _ _ := rfl
  files _ := rfl
  prompt _ _ := rfl
  notify _ _ _ := rfl
  check_spares _ _ _ := ⟨rfl, id⟩
  fix_spares _ _ _ := ⟨rfl, id⟩

/-- A workspace stands for a list of messages: the file reads as the list, and can
be written. -/
structure Represents (path : String) (sees : Workspace × ρ → τ) (s : Workspace × ρ)
    (u : τ × Conversation) : Prop where
  seen : sees s = u.1
  held : Transcript.held (s.1.standing path) = some u.2
  writable : s.1.Writable path

theorem Represents.spared {path : String} {sees : Workspace × ρ → τ} {s after : Workspace × ρ}
    {u : τ × Conversation} (h : Represents path sees s u)
    (hSpared : Workspace.Spared path s.1 after.1) {seen : τ} (hSeen : sees after = seen) : Represents path sees after (seen, u.2) :=
  ⟨hSeen, by rw [hSpared.standing, h.held], hSpared.writable h.writable⟩

/-- At a file that stands for a list a run goes as it does with the list. -/
theorem Untouching.simulates {e : Errand ρ τ} {path : String} {sees : Workspace × ρ → τ}
    (h : e.Untouching path sees) :
    (e.place path).Simulates e.host.toWorkplace e.config.targets (Represents path sees) where
  check t ht {s u} hStands := by
    obtain ⟨hAnswer, hSeen⟩ := h.check t ht s
    rw [hStands.seen] at hAnswer hSeen
    exact ⟨hAnswer, hStands.spared (h.check_spares t ht s) hSeen⟩
  fix t ht {s u} hStands := by
    have hSeen := h.fix t ht s
    rw [hStands.seen] at hSeen
    exact hStands.spared (h.fix_spares t ht s) hSeen
  changedFiles {s u} hStands := by
    refine (h.files s).trans ?_
    rw [hStands.seen]
    rfl
  history {s u} hStands :=
    (Transcript.toOption_read _ _ path).trans hStands.held
  prompt text {s u} hStands := by
    obtain ⟨hRead, hWritable⟩ := Transcript.append_of_writable hStands.writable
      (Transcript.held_eq_some_iff.mp hStands.held) (.userText text)
    exact ⟨(h.prompt text s).trans hStands.seen, Transcript.held_eq_some_iff.mpr hRead, hWritable⟩
  notify level text {s u} hStands :=
    hStands.spared (Workspace.spared_notify path _ level text s.1)
      ((h.notify level text s).trans hStands.seen)

/-- Outcome, calls and the conversation behind a run are those of the list. -/
theorem Represents.perform {e : Errand ρ τ} {path : String} {sees : Workspace × ρ → τ}
    (h : e.Untouching path sees) {s : Workspace × ρ} {u : τ × Conversation}
    (hStands : Represents path sees s u) :
    Agree (Represents path sees) (e.perform path s) (e.performListed u) ∧
      e.calls path s = e.callsListed u := by
  have hCalls := h.simulates.recording.runInTurns e.turns (List.Subset.refl _)
    (s := (s, [])) (u := (u, [])) ⟨hStands, rfl⟩
  exact ⟨h.simulates.runInTurns e.turns (List.Subset.refl _) hStands, hCalls.2.2⟩

/-- With a file that cannot be read a run is skipped, and makes no call at all. -/
theorem perform_of_unread {path : String} {s : Workspace × ρ}
    (h : Transcript.held (s.1.standing path) = none) (e : Errand ρ τ) :
    ∃ reason, e.perform path s = (.skipped reason, s) ∧ e.calls path s = [] ∧
      ((e.place path).selected e.config s ≠ [] → reason = .historyUnavailable) := by
  have hUnread : (e.place path).history s = none := (Transcript.toOption_read _ _ path).trans h
  obtain ⟨reason, hRun, hReason⟩ := Workplace.runInTurns_of_unread hUnread e.turns e.config
  have hUnreadToo : (e.place path).recording.history (s, []) = none := hUnread
  obtain ⟨other, hCalls, -⟩ := Workplace.runInTurns_of_unread hUnreadToo e.turns e.config
  exact ⟨reason, hRun, by rw [calls, hCalls], hReason⟩

/-- A run that asks for nothing leaves what stands at the path of the transcript. -/
theorem Untouching.standing_perform {e : Errand ρ τ} {path : String} {sees : Workspace × ρ → τ}
    (h : e.Untouching path sees) {s : Workspace × ρ}
    (hOutcome : ∀ request, (e.perform path s).1 ≠ .requested request) :
    (e.perform path s).2.1.standing path = s.1.standing path := by
  refine Workplace.runInTurns_keeps (P := fun after => after.1.standing path = s.1.standing path)
    (fun t ht after hAfter => ?_) (fun t ht after hAfter => ?_) (fun level text after hAfter => ?_)
    rfl hOutcome
  · exact (h.check_spares t ht after).standing.trans hAfter
  · exact (h.fix_spares t ht after).standing.trans hAfter
  · exact (Workspace.standing_notify path _ level text after.1).trans hAfter

/-- A transcript file is as good as a list of messages, over every succession of
runs whose runners do not touch it. If at first the file is absent, blank or
decodes to a list, and can be written, then all outcomes, prompts and other calls
are those of the host that keeps the list, and after every run the file is read as
that list. If it is not blank and does not decode, nothing is ever changed or
called, and every run that has targets is skipped because its history is
unavailable. In either case a run without a request leaves the file as it was,
byte for byte, and makes none where there was none. -/
theorem transcript_refines_conversation (path : String) (sees : Workspace × ρ → τ)
    (errands : Nat → Errand ρ τ) (hUntouching : ∀ k, (errands k).Untouching path sees)
    (s : Workspace × ρ) :
    let before := stateBefore (fun k => (errands k).perform path) s
    let outcome := fun k => ((errands k).perform path (before k)).1
    (∀ c, Transcript.held (s.1.standing path) = some c → s.1.Writable path →
      let listed := stateBefore (fun k => (errands k).performListed) (sees s, c)
      ∀ k, outcome k = ((errands k).performListed (listed k)).1 ∧
        (errands k).calls path (before k) = (errands k).callsListed (listed k) ∧
        (before k).1.conversation path = .ok (listed k).2) ∧
    (Transcript.held (s.1.standing path) = none → ∀ k, before k = s ∧
      (errands k).calls path (before k) = [] ∧
      (((errands k).place path).selected (errands k).config (before k) ≠ [] →
        outcome k = .skipped .historyUnavailable)) ∧
    ∀ k, (∀ request, outcome k ≠ .requested request) →
      (before (k + 1)).1.standing path = (before k).1.standing path := by
  intro before outcome
  refine ⟨fun c hHeld hWritable => ?_, fun hUnread => ?_, fun k hOutcome =>
    (hUntouching k).standing_perform hOutcome⟩
  · intro listed
    have hStands : ∀ k, Represents path sees (before k) (listed k) := by
      refine stateBefore_invariant (P := fun k u => Represents path sees u (listed k))
        ⟨rfl, hHeld, hWritable⟩ fun k hStands => ?_
      exact (hStands.perform (hUntouching k)).1.2
    intro k
    obtain ⟨⟨hOutcome, -⟩, hCalls⟩ := (hStands k).perform (hUntouching k)
    exact ⟨hOutcome, hCalls, Transcript.held_eq_some_iff.mp (hStands k).held⟩
  · -- A run that is skipped hands its state on, so the file stays unreadable.
    have hSame : ∀ k, before k = s := by
      refine stateBefore_invariant (P := fun _ u => u = s) rfl fun k hSame => ?_
      obtain ⟨reason, hRun, -⟩ := perform_of_unread hUnread (errands k)
      have hNext := congrArg Prod.snd hRun
      rw [← hSame] at hNext
      exact hNext.trans hSame
    intro k
    obtain ⟨reason, hRun, hCalls, hReason⟩ := perform_of_unread hUnread (errands k)
    rw [← hSame k] at hRun hCalls hReason
    refine ⟨hSame k, hCalls, fun hSelected => ?_⟩
    rw [← hReason hSelected]
    exact congrArg Prod.fst hRun

/-- A transcript in a directory that is missing yet, and an error that no fix removes:
the first run writes its request into a new file. -/
theorem transcript_refines_first_request :
    let t : Target := ⟨"*.go", .go, "lint", "fix"⟩
    let errand : Errand Unit Unit :=
      aside { root := "." } ["a.go"] Runner.stubborn ⟨2, false, [t]⟩ []
    let request : FixRequest := .of (.of 0 2) [(Runner.stubborn.check t ()).1]
    let s : Workspace × Unit := (⟨Files.Tree.empty, [], [], {}⟩, ())
    let before := stateBefore (fun _ => errand.perform "chat/log.json") s
    Transcript.held (s.1.standing "chat/log.json") = some [] ∧ s.1.Writable "chat/log.json" ∧
      (errand.perform "chat/log.json" (before 0)).1 = .requested request ∧
      (before 1).1.conversation "chat/log.json" = .ok [.userText request.payload] := by
  intro t errand request s before
  have hHeld : Transcript.held (s.1.standing "chat/log.json") = some [] := by decide +kernel
  have hParent : Transcript.makeParent Files.Tree.empty [] "chat/log.json" =
      (none, Files.Tree.empty.put ["chat"] .directory) := by
    rw [Transcript.makeParent, show Files.Path.parent? "chat/log.json" = some "chat" by decide]
    rfl
  have hPlace : (Files.Tree.empty.put ["chat"] .directory).locateFile [] "chat/log.json" =
      .ok ["chat", "log.json"] := by
    rw [Files.Tree.locateFile]
    rfl
  have hWritable : s.1.Writable "chat/log.json" := ⟨_, _, hParent, hPlace⟩
  obtain ⟨hListed, -, -⟩ := transcript_refines_conversation "chat/log.json" Prod.snd
    (fun _ => errand) (fun _ => untouching_aside _ _ _ _ _ _) s
  have hSelected : errand.host.selected errand.config ((), []) = [t] := by
    change Selection.targets [t] ["a.go"] = [t]
    decide +kernel
  have hWorked : errand.host.Worked errand.config ((), []) []
      [(Runner.stubborn.check t ()).1] ((), []) := by
    refine ⟨⟨List.cons_ne_nil _ _, ?_, rfl, by decide⟩, ?_⟩
    · rw [hSelected]
      exact List.cons_ne_nil _ _
    · rw [hSelected]
      rfl
  have hFirst : errand.performListed ((), []) =
      (.requested request, (), [.userText request.payload]) := by
    refine (errand.host.runInTurns_nil errand.config ((), [])).trans ?_
    rw [hWorked.run_eq]
    rfl
  have hRuns := hListed [] hHeld hWritable
  refine ⟨hHeld, hWritable, ?_, ?_⟩
  · exact (hRuns 0).1.trans (congrArg Prod.fst hFirst)
  · exact (hRuns 1).2.2.trans (congrArg (fun done => Except.ok done.2.2) hFirst)

end Errand

end LintRepair
