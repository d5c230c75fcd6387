import LintRepair.Proofs.Repair.Encoding
import LintRepair.Proofs.Repair.Recognition
import LintRepair.Proofs.Workspace.Refinement

/-! What a run is reported as. The document for programs, the line for people and the message in the
transcript are written by different means, and each of them tells all of a request. -/

namespace LintRepair

open Json (Alike)

variable {ρ : Type}

namespace Workspace

/-- A request that is delivered to a transcript is read there behind what was read
before. -/
theorem conversation_of_prompt {o : Options} {path : String} (hPath : o.transcript = some path)
    {text : String} {w : Workspace} (hDelivered : (w.prompt o text).1 = true) :
    ∃ earlier, w.conversation path = .ok earlier ∧
      (w.prompt o text).2.conversation path = .ok (earlier ++ [.userText text]) := by
  unfold prompt at hDelivered ⊢
  rw [hPath] at hDelivered ⊢
  exact Transcript.read_of_appended (Transcript.append_appended w.tree w.directory path _)
    (Option.isNone_iff_eq_none.mp hDelivered)

end Workspace

/-- A report loses nothing. The document that is printed for programs is parsed as
the value of the outcome, if every count of diagnostics fits 64 bits, and outcomes
whose values differ at most in the order of members are the same. The request in
the document is the value that its payload is parsed as; the payload is the line
that is printed for people, and a run that ends with the request has sent just this
text, which a transcript then holds behind the earlier messages. -/
theorem report_loses_nothing :
    (∀ (o : Outcome) (color : Bool), (Terminal.outcome .json color o).err = [] ∧
      (Json.parse (Terminal.outcome .json color o).out = .ok o.toJson ↔ o.Countable)) ∧
    (∀ o p : Outcome, Alike o.toJson p.toJson ↔ o = p) ∧
    (∀ r : FixRequest,
      (∃ members, (Outcome.requested r).toJson = .object members ∧
        Json.member? "request" members = some (some r.toJson)) ∧
      (Json.parse r.payload.toList = .ok r.toJson ↔ r.Countable) ∧
      ∀ color, (Terminal.outcome .human color (.requested r)).out = r.payload.toList ++ ['\n'] ∧
        (Json.parse (Terminal.outcome .human color (.requested r)).out = .ok r.toJson ↔
          r.Countable)) ∧
    ∀ (o : Workspace.Options) (runner : Runner (Workspace × ρ)) (turns : List Nat) (config : Config)
      (s : Workspace × ρ) (r : FixRequest),
      let place := Workspace.workplaceWith o runner
      let worked := (place.worked turns config s).2
      let final := place.runInTurns turns config s
      final.1 = .requested r → final.2 = (place.prompt r.payload worked).2 ∧
        ∀ path, o.transcript = some path → (place.prompt r.payload worked).1 = true →
          ∃ earlier, worked.1.conversation path = .ok earlier ∧
            final.2.1.conversation path = .ok (earlier ++ [.userText r.payload]) := by
  refine ⟨fun o color => ⟨rfl, o.parse_pretty_iff (by simp)⟩,
    fun o p => Outcome.faithful_toJson.alike_iff,
    fun r => ⟨⟨_, rfl, by rfl⟩, ?_, fun color => ⟨rfl, ?_⟩⟩, ?_⟩
  · have hNone : ∀ c ∈ ([] : List Char), c = '\n' := by simp
    have hPayload := r.parse_payload_iff hNone
    rwa [List.append_nil] at hPayload
  · exact r.parse_payload_iff (by simp)
  · intro o runner turns config s r place worked final hRequested
    have hPrompted : final.2 = (place.prompt r.payload worked).2 :=
      Workplace.prompted_of_requested hRequested
    refine ⟨hPrompted, fun path hPath hDelivered => ?_⟩
    rw [hPrompted]
    exact Workspace.conversation_of_prompt hPath hDelivered

/-- A request for an error with a line break in its message, sent to a transcript that
is not there yet. -/
theorem report_loses_nothing_first_request :
    let t : Target := ⟨"*.go", .go, "lint", "fix"⟩
    let found : CheckResult := .counted .go "*.go" [⟨"a.go", 1, 1, "", .error, "one\ntwo", false⟩]
    let runner : Runner (Workspace × Unit) := { check := fun _ s => (found, s), fix := fun _ s => s }
    let o : Workspace.Options :=
      { root := ".", files := some ["a.go"], transcript := some "log.json" }
    let place := Workspace.workplaceWith o runner
    let config : Config := ⟨2, false, [t]⟩
    let request : FixRequest := .of (.of 0 2) [found]
    let s : Workspace × Unit := (⟨Files.Tree.empty, [], [], {}⟩, ())
    let final := place.runInTurns [] config s
    final.1 = .requested request ∧ o.transcript = some "log.json" ∧
      (place.prompt request.payload (place.worked [] config s).2).1 = true ∧
      (∃ earlier, final.2.1.conversation "log.json" = .ok (earlier ++ [.userText request.payload])) ∧
      Json.parse request.payload.toList = .ok request.toJson := by
  intro t found runner o place config request s final
  obtain ⟨-, -, hRequests, hRuns⟩ := @report_loses_nothing Unit
  have hRequested : final.1 = .requested request := by decide +kernel
  have hDelivered : (place.prompt request.payload (place.worked [] config s).2).1 = true := by
    decide +kernel
  have hCountable : request.Countable := by
    intro r hr
    obtain rfl := List.mem_singleton.mp hr
    exact (by decide : 1 < UInt64.size)
  obtain ⟨earlier, -, hRecorded⟩ :=
    (hRuns o runner [] config s request hRequested).2 "log.json" rfl hDelivered
  exact ⟨hRequested, rfl, hDelivered, ⟨earlier, hRecorded⟩, (hRequests request).2.1.mpr hCountable⟩

end LintRepair
