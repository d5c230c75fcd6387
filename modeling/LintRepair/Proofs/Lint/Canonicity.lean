import LintRepair.Proofs.Json.Members
import LintRepair.Proofs.Repair.Encoding
import LintRepair.Terminal.Output
import LintRepair.Workspace.Basic
import Mathlib.Algebra.BigOperators.Group.List.Basic
import Mathlib.Algebra.GroupWithZero.Nat

/-! What every check result looks like, however its command ended and whatever it wrote. The summary
counts the diagnostics, and how the command ended has no part in what the diagnostics are. Results
that are printed together have the sums of their counts. -/

namespace LintRepair

open Json (Holds holds_of_member?)
open Shell (Ending Execution)

/-! ### Diagnostics -/

/-- What holds of every diagnostic in an ecosystem. Lines and columns count from one. -/
structure Diagnostic.Canonical (e : Ecosystem) (d : Diagnostic) : Prop where
  line : 1 ≤ d.line
  column : 1 ≤ d.column
  go : e = .go → d.severity = .error ∧ d.fixable = false
  rust : e = .rust → d.rule ≠ ""

theorem one_le_max (n : UInt32) : 1 ≤ max n 1 := by
  have hMax : max n 1 = if n ≤ 1 then 1 else n := rfl
  rw [hMax]
  split
  · exact UInt32.le_refl 1
  · rename_i hLarge
    exact UInt32.le_of_lt (UInt32.not_le.mp hLarge)

namespace Report

theorem FileReports.canonical_of_mem {output root : String} {d : Diagnostic}
    (hd : d ∈ diagnostics output root) : d.Canonical .js := by
  unfold diagnostics at hd
  split at hd
  · obtain ⟨f, -, hd⟩ := List.mem_flatMap.mp hd
    obtain ⟨p, -, rfl⟩ := List.mem_map.mp hd
    exact ⟨one_le_max _, one_le_max _, nofun, nofun⟩
  · cases hd

theorem IssueList.canonical_of_mem {output : String} {d : Diagnostic} (hd : d ∈ diagnostics output) :
    d.Canonical .go := by
  unfold diagnostics at hd
  split at hd
  · obtain ⟨i, -, rfl⟩ := List.mem_map.mp hd
    exact ⟨one_le_max _, one_le_max _, fun _ => ⟨rfl, rfl⟩, nofun⟩
  · cases hd

theorem MessageStream.rule_ne_empty (m : CompilerMessage) : m.rule ≠ "" := by
  unfold CompilerMessage.rule
  split
  · split
    · exact (by decide : unnamedRule ≠ "")
    · assumption
  · exact (by decide : unnamedRule ≠ "")

theorem MessageStream.canonical_of_mem {output : String} {d : Diagnostic}
    (hd : d ∈ diagnostics output) : d.Canonical .rust := by
  obtain ⟨line, -, hLine⟩ := List.mem_filterMap.mp hd
  obtain ⟨m, -, hMessage⟩ := Option.bind_eq_some_iff.mp hLine
  obtain ⟨span, -, hSpan⟩ := Option.bind_eq_some_iff.mp hMessage
  cases hSpan
  exact ⟨one_le_max _, one_le_max _, nofun, fun _ => rule_ne_empty m⟩

end Report

/-- Whatever a tool writes, the diagnostics made of it are canonical. -/
theorem Ecosystem.canonical_of_mem {e : Ecosystem} {output root : String} {d : Diagnostic}
    (hd : d ∈ e.diagnostics output root) : d.Canonical e := by
  cases e with
  | js => exact Report.FileReports.canonical_of_mem hd
  | go => exact Report.IssueList.canonical_of_mem hd
  | rust => exact Report.MessageStream.canonical_of_mem hd

/-! ### Results -/

/-- The command was run. -/
def Shell.Ending.Started : Ending → Prop
  | .notStarted _ => False
  | .exited _ | .killed _ => True

/-- The command was run to its end, by the status. -/
def Shell.Ending.Completed : Ending → Prop
  | .exited status => status ≠ Shell.notExecutable ∧ status ≠ Shell.commandNotFound
  | .killed _ | .notStarted _ => False

/-- Only what was run to its end counts as completed. -/
theorem Shell.Execution.isFailed_ofEnding (out err : ByteArray) (ending : Ending) :
    (Execution.ofEnding out err ending).isFailed = true ↔ ¬ ending.Completed := by
  cases ending with
  | exited status =>
      simp only [Execution.ofEnding, Ending.Completed, ne_eq, ← not_or, not_not]
      by_cases hFailed : status = Shell.notExecutable ∨ status = Shell.commandNotFound
      · rw [if_pos hFailed]
        exact iff_of_true rfl hFailed
      · rw [if_neg hFailed]
        exact iff_of_false Bool.false_ne_true hFailed
  | killed signal => exact iff_of_true rfl not_false
  | notStarted cause => exact iff_of_true rfl not_false

/-- The text of a command that was run is made of what it wrote, and of nothing
else. -/
theorem Shell.Execution.diagnosticsText_ofEnding {out err : ByteArray} {ending : Ending}
    (h : ending.Started) : (Execution.ofEnding out err ending).diagnosticsText =
      if Text.isBlankText (Text.textLossy out) then Text.textLossy err else Text.textLossy out := by
  cases ending with
  | exited status =>
      simp only [Execution.ofEnding]
      split <;> rfl
  | killed signal => rfl
  | notStarted cause => exact h.elim

/-- The text of a command that was not run does not depend on any output. -/
theorem Shell.Execution.ofEnding_of_not_started {out err out' err' : ByteArray} {ending : Ending}
    (h : ¬ ending.Started) : Execution.ofEnding out err ending = .ofEnding out' err' ending := by
  cases ending with
  | exited status => exact absurd trivial h
  | killed signal => exact absurd trivial h
  | notStarted cause => rfl

/-- If a command wrote output its errors are not looked at. -/
theorem Shell.Execution.diagnosticsText_of_output {out : ByteArray} (ending : Ending)
    (hOut : Text.isBlankText (Text.textLossy out) = false) (err err' : ByteArray) :
    (Execution.ofEnding out err ending).diagnosticsText =
      (Execution.ofEnding out err' ending).diagnosticsText := by
  by_cases hStarted : ending.Started
  · rw [diagnosticsText_ofEnding hStarted, diagnosticsText_ofEnding hStarted, hOut]
    rfl
  · rw [ofEnding_of_not_started hStarted]

theorem Shell.Execution.diagnosticsText_of_blank {out out' : ByteArray} (ending : Ending)
    (hOut : Text.isBlankText (Text.textLossy out) = true)
    (hOut' : Text.isBlankText (Text.textLossy out') = true) (err : ByteArray) :
    (Execution.ofEnding out err ending).diagnosticsText =
      (Execution.ofEnding out' err ending).diagnosticsText := by
  by_cases hStarted : ending.Started
  · rw [diagnosticsText_ofEnding hStarted, diagnosticsText_ofEnding hStarted, hOut, hOut']
    rfl
  · rw [ofEnding_of_not_started hStarted]

theorem Target.diagnostics_checkResult (t : Target) (root : String) (e : Execution) :
    (t.checkResult root e).diagnostics = t.ecosystem.diagnostics e.diagnosticsText root := by
  unfold checkResult
  cases e.isFailed <;> rfl

/-- A result of a check of the target, counted by how the command ended. -/
structure CheckResult.Canonical (t : Target) (ending : Ending) (r : CheckResult) : Prop where
  ecosystem : r.ecosystem = t.ecosystem
  target : r.target = t.pattern
  diagnostics : ∀ d ∈ r.diagnostics, d.Canonical t.ecosystem
  total : r.summary.total = r.diagnostics.length
  parts : r.summary.fixable + r.summary.unfixable = r.summary.total
  completed : ending.Completed → r.summary.fixable = r.diagnostics.countP Diagnostic.fixable
  failed : ¬ ending.Completed → r.summary.fixable = 0

/-- The parts of a summary make up the whole. -/
theorem CheckResult.parts (r : CheckResult) :
    r.summary.fixable + r.summary.unfixable = r.summary.total := by
  rcases r.summary_agrees with h | h
  · rw [h]
    exact Nat.add_sub_cancel' (List.length_filter_le _ _)
  · rw [h]
    exact Nat.zero_add _

/-- Whatever a command writes and however it ends, its result is canonical. -/
theorem Target.canonical_checkResult (t : Target) (root : String) (out err : ByteArray)
    (ending : Ending) : (t.checkResult root (.ofEnding out err ending)).Canonical t ending := by
  have hFailed := Execution.isFailed_ofEnding out err ending
  generalize Execution.ofEnding out err ending = e at hFailed
  have hDiagnostics : ∀ d ∈ (t.checkResult root e).diagnostics, d.Canonical t.ecosystem := by
    rw [t.diagnostics_checkResult]
    exact fun d => Ecosystem.canonical_of_mem
  refine ⟨?_, ?_, hDiagnostics, (CheckResult.summary_bounds _).1, CheckResult.parts _, fun h => ?_,
    fun h => ?_⟩
  · cases e <;> rfl
  · cases e <;> rfl
  · cases e with
    | completed status out err => exact List.countP_eq_length_filter.symm
    | failed reason out err => exact absurd h (hFailed.mp rfl)
  · cases e with
    | completed status out err => cases hFailed.mpr h
    | failed reason out err => rfl

/-! ### Documents of results -/

/-- A value that lists the diagnostics of a result. -/
def CheckResult.ListedIn (r : CheckResult) (v : Json) : Prop :=
  ∃ members, v = .object members ∧ Holds "errors" (Diagnostic.listJson r.diagnostics) members

/-- A document of results, with the sums of their counts. The total is also the number of all the
diagnostics that are listed. -/
inductive Totals (rs : List CheckResult) : Json → Prop where
  | object {members counts : List (String × Json)} {items : List Json} {total fixable unfixable : Nat}
      (results : Holds "results" (.array items) members)
      (summary : Holds "summary" (.object counts) members)
      (holdsTargets : Holds "targets" (.nat rs.length) counts)
      (holdsTotal : Holds "total" (.nat total) counts)
      (holdsFixable : Holds "fixable" (.nat fixable) counts)
      (holdsUnfixable : Holds "unfixable" (.nat unfixable) counts)
      (total_eq : total = (rs.map fun r => r.summary.total).sum)
      (fixable_eq : fixable = (rs.map fun r => r.summary.fixable).sum)
      (unfixable_eq : unfixable = (rs.map fun r => r.summary.unfixable).sum)
      (parts : fixable + unfixable = total)
      (listed : List.Forall₂ CheckResult.ListedIn rs items)
      (total_listed : total = (rs.flatMap CheckResult.diagnostics).length) : Totals rs (.object members)

/-- The sums are taken one result after another. -/
theorem CheckResult.totals_eq (rs : List CheckResult) :
    totals rs = ⟨(rs.map fun r => r.summary.total).sum, (rs.map fun r => r.summary.fixable).sum,
      (rs.map fun r => r.summary.unfixable).sum⟩ := by
  have hFrom (s : Summary) : rs.foldl (fun acc r => ⟨acc.total + r.summary.total,
      acc.fixable + r.summary.fixable, acc.unfixable + r.summary.unfixable⟩) s =
      ⟨s.total + (rs.map fun r => r.summary.total).sum,
        s.fixable + (rs.map fun r => r.summary.fixable).sum,
        s.unfixable + (rs.map fun r => r.summary.unfixable).sum⟩ := by
    induction rs generalizing s with
    | nil => rfl
    | cons r rs ih => simp only [List.foldl_cons, ih, List.map_cons, List.sum_cons, Nat.add_assoc]
  rw [totals, hFrom, Nat.zero_add, Nat.zero_add, Nat.zero_add]

theorem Terminal.totals_resultsJson (rs : List CheckResult) : Totals rs (resultsJson rs) := by
  have hSums := CheckResult.totals_eq rs
  have hParts : (CheckResult.totals rs).fixable + (CheckResult.totals rs).unfixable =
      (CheckResult.totals rs).total := by
    rw [hSums, ← List.sum_map_add]
    exact congrArg List.sum (List.map_congr_left fun r _ => r.parts)
  have hListed : (CheckResult.totals rs).total =
      (rs.flatMap CheckResult.diagnostics).length := by
    rw [hSums, List.length_flatMap]
    exact congrArg List.sum (List.map_congr_left fun r _ => r.summary_bounds.1)
  refine .object (holds_of_member? rfl) (holds_of_member? rfl) (holds_of_member? rfl)
    (holds_of_member? rfl) (holds_of_member? rfl) (holds_of_member? rfl) ?_ ?_ ?_ hParts ?_ hListed
  · rw [hSums]
  · rw [hSums]
  · rw [hSums]
  · rw [List.forall₂_map_right_iff, List.forall₂_same]
    exact fun r _ => ⟨_, rfl, holds_of_member? rfl⟩

/-! ### Checks -/

/-- What the shell tells is known from how a command ended and what it wrote. -/
theorem Workspace.exists_ending (w : Workspace) (command directory : String) :
    ∃ out err ending, (w.shell command directory).1 = .ofEnding out err ending := by
  unfold shell
  split
  · exact ⟨.empty, .empty, .notStarted _, rfl⟩
  · split
    · exact ⟨.empty, .empty, .notStarted _, rfl⟩
    · split
      · exact ⟨.empty, .empty, .notStarted _, rfl⟩
      · exact ⟨_, _, _, rfl⟩

/-- Every check has a result in canonical form, whatever its command did. The status has no part in
which diagnostics there are, neither has the error stream if there is output, nor blank output in
place of other blank output. Results that are printed together have the sums of their counts. -/
theorem checks_canonical :
    (∀ (t : Target) (root : String) (out err : ByteArray) (ending : Ending),
      (t.checkResult root (.ofEnding out err ending)).Canonical t ending) ∧
    (∀ (t : Target) (root : String) (out err : ByteArray) (a b : Ending), a.Started → b.Started →
      (t.checkResult root (.ofEnding out err a)).diagnostics =
        (t.checkResult root (.ofEnding out err b)).diagnostics) ∧
    (∀ (t : Target) (root : String) (out err err' : ByteArray) (ending : Ending),
      Text.isBlankText (Text.textLossy out) = false →
        (t.checkResult root (.ofEnding out err ending)).diagnostics =
          (t.checkResult root (.ofEnding out err' ending)).diagnostics) ∧
    (∀ (t : Target) (root : String) (out out' err : ByteArray) (ending : Ending),
      Text.isBlankText (Text.textLossy out) = true → Text.isBlankText (Text.textLossy out') = true →
        (t.checkResult root (.ofEnding out err ending)).diagnostics =
          (t.checkResult root (.ofEnding out' err ending)).diagnostics) ∧
    (∀ (t : Target) (root : String) (w : Workspace), ∃ out err ending,
      ((Workspace.runner root).check t w).1 = t.checkResult root (.ofEnding out err ending)) ∧
    ∀ rs : List CheckResult, Totals rs (Terminal.resultsJson rs) := by
  refine ⟨Target.canonical_checkResult, ?_, ?_, ?_, ?_, Terminal.totals_resultsJson⟩
  · intro t root out err a b ha hb
    rw [t.diagnostics_checkResult, t.diagnostics_checkResult, Execution.diagnosticsText_ofEnding ha,
      Execution.diagnosticsText_ofEnding hb]
  · intro t root out err err' ending hOut
    rw [t.diagnostics_checkResult, t.diagnostics_checkResult,
      Execution.diagnosticsText_of_output ending hOut err err']
  · intro t root out out' err ending hOut hOut'
    rw [t.diagnostics_checkResult, t.diagnostics_checkResult,
      Execution.diagnosticsText_of_blank ending hOut hOut' err]
  · intro t root w
    obtain ⟨out, err, ending, hShell⟩ := w.exists_ending t.check root
    exact ⟨out, err, ending, congrArg (t.checkResult root) hShell⟩

/-- A check that ends with a status beside one that is killed, and one with blank output beside one
without output. -/
theorem checks_canonical_garbage :
    let t : Target := ⟨"*.go", .go, "lint", "fix"⟩
    let garbage := "not a report".toUTF8
    let blank := " \n".toUTF8
    Ending.Started (.exited 126) ∧ Ending.Started (.killed 9) ∧
    (t.checkResult "/w" (.ofEnding garbage blank (.exited 126))).diagnostics =
      (t.checkResult "/w" (.ofEnding garbage blank (.killed 9))).diagnostics ∧
    Text.isBlankText (Text.textLossy garbage) = false ∧
    (t.checkResult "/w" (.ofEnding garbage blank (.exited 1))).diagnostics =
      (t.checkResult "/w" (.ofEnding garbage garbage (.exited 1))).diagnostics ∧
    Text.isBlankText (Text.textLossy blank) = true ∧
    Text.isBlankText (Text.textLossy .empty) = true ∧
    (t.checkResult "/w" (.ofEnding blank garbage (.exited 0))).diagnostics =
      (t.checkResult "/w" (.ofEnding .empty garbage (.exited 0))).diagnostics := by
  intro t garbage blank
  have hGarbage : Text.isBlankText (Text.textLossy garbage) = false := by decide +kernel
  have hBlank : Text.isBlankText (Text.textLossy blank) = true := by decide +kernel
  have hEmpty : Text.isBlankText (Text.textLossy .empty) = true := by decide +kernel
  obtain ⟨-, hStatus, hError, hOutput, -⟩ := checks_canonical
  exact ⟨trivial, trivial, hStatus t "/w" garbage blank _ _ trivial trivial, hGarbage,
    hError t "/w" garbage blank garbage _ hGarbage, hBlank, hEmpty,
    hOutput t "/w" blank .empty garbage _ hBlank hEmpty⟩

end LintRepair
