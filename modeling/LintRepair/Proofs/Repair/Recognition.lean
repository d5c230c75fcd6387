import LintRepair.Proofs.Repair.Counting
import LintRepair.Proofs.Repair.Marker

/-! A request recognises itself. The payload of every request is one line that holds the marker once,
and a report in the pretty form never holds it, whatever was found and by whatever name. -/

namespace LintRepair

open Message (marker)

namespace FixRequest

/-- The payload is a single line. -/
theorem notMem_payload_of_control (r : FixRequest) {c : Char} (h : c.toNat < 0x20) :
    c ∉ r.payload.toList := by
  rw [toList_payload]
  intro hMem
  have hPrint := Json.le_toNat_of_mem_compact r.toJson hMem
  omega

theorem payload_ne_empty (r : FixRequest) : r.payload ≠ "" := by
  intro hEmpty
  have hCount := r.occurrences_payload
  rw [hEmpty] at hCount
  exact absurd hCount (by decide)

/-- For readers a request is printed as its payload and a line feed. -/
theorem out_outcome (color : Bool) (r : FixRequest) :
    (Terminal.outcome .human color (.requested r)).out = r.payload.toList ++ ['\n'] := rfl

/-- A message that quotes a payload adds one to the count, wherever it stands. -/
theorem requestCount_insert (r : FixRequest) {text : String}
    (h : r.payload.toList <:+: text.toList) (earlier later : Conversation) :
    Conversation.requestCount (earlier ++ .userText text :: later) =
      Conversation.requestCount (earlier ++ later) + 1 := by
  rw [← List.singleton_append, Conversation.requestCount_append, Conversation.requestCount_append,
    Conversation.requestCount_singleton, r.isFixRequest_of_payload_infix h,
    Conversation.requestCount_append]
  simp only [↓reduceIte]
  omega

theorem requestsSent_singleton (r : FixRequest) {text : String}
    (h : r.payload.toList <:+: text.toList) : Conversation.requestsSent [.userText text] = 1 := by
  apply UInt32.toNat_inj.mp
  rw [Conversation.toNat_requestsSent, Conversation.requestCount_singleton,
    r.isFixRequest_of_payload_infix h]
  rfl

end FixRequest

/-- Every request is recognised by its compact form, once and wherever the form
is quoted, and no report in the pretty form is taken for a request. This holds
for every iteration, every limit and all results: what the diagnostics quote
cannot forge the marker, nor break it. -/
theorem FixRequest.recognised_in_compact_form_only :
    (∀ r : FixRequest, r.payload ≠ "" ∧ '\n' ∉ r.payload.toList ∧ '\r' ∉ r.payload.toList ∧
      Text.occurrences marker r.payload.toList = 1 ∧
      Conversation.requestsSent [.userText r.payload] = 1 ∧
      (∀ color, Conversation.requestsSent
        [.userText (String.ofList (Terminal.outcome .human color (.requested r)).out)] = 1) ∧
      ∀ text : String, r.payload.toList <:+: text.toList → ∀ earlier later : Conversation,
        Conversation.requestCount (earlier ++ .userText text :: later) =
          Conversation.requestCount (earlier ++ later) + 1) ∧
    (∀ o : Outcome, ¬ marker <:+: o.toJson.prettyText.toList) ∧
    ∀ results : List CheckResult, ¬ marker <:+: (Terminal.resultsJson results).prettyText.toList := by
  have hPretty : ∀ v : Json, ¬ marker <:+: v.prettyText.toList := by
    intro v
    rw [Json.prettyText, String.toList_ofList]
    exact v.not_marker_infix_pretty
  refine ⟨fun r => ?_, fun o => hPretty o.toJson, fun results => hPretty _⟩
  refine ⟨r.payload_ne_empty, r.notMem_payload_of_control (by decide),
    r.notMem_payload_of_control (by decide), r.occurrences_payload,
    r.requestsSent_singleton (List.infix_refl _), fun color => ?_,
    fun text h => r.requestCount_insert h⟩
  apply r.requestsSent_singleton
  rw [String.toList_ofList, r.out_outcome]
  exact (List.prefix_append ..).isInfix

end LintRepair
