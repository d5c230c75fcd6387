import LintRepair.Json.Printer
import LintRepair.Repair.FixRequest
import LintRepair.Text.Blank

/-!
Conversations. A message has a role and parts, and a part may carry text. The number of requests
already sent is not stored anywhere; it is recounted from the conversation at every run.
-/

namespace LintRepair

/-- A part of a message. -/
structure Part where
  kind : String
  text : Option String
deriving DecidableEq, Repr

structure Message where
  role : String
  parts : List Part
deriving DecidableEq, Repr

namespace Part

/-- Write a part; a text that is absent is left out. -/
def toJson (p : Part) : Json :=
  .object (("type", .string p.kind) ::
    match p.text with
    | some t => [("text", .string t)]
    | none => [])

/-- A part of which some fields may still be missing. A text given as `null` is given. -/
structure Draft where
  kind : Option String := none
  text : Option (Option String) := none

/-- The finished part, or the name of the missing field. -/
def Draft.build (d : Draft) : Except String Part :=
  match d.kind with
  | some kind => .ok ⟨kind, d.text.join⟩
  | none => .error "type"

def shape : Json.Shape Draft Part where
  name := "Part"
  fields := [
    .of "type" true Draft.kind (fun d v => { d with kind := some v }) Json.text,
    .of "text" false Draft.text (fun d v => { d with text := some v }) (Json.optional Json.text)]
  blank := {}
  build := Draft.build

def reader : Json.Reader Part := Json.record shape

end Part

namespace Message

/-- Write a message; its parts are always written. -/
def toJson (m : Message) : Json :=
  .object [("role", .string m.role), ("parts", .array (m.parts.map Part.toJson))]

/-- A message of which some fields may still be missing. -/
structure Draft where
  role : Option String := none
  parts : Option (List Part) := none

/-- The finished message, or the name of the missing field. -/
def Draft.build (d : Draft) : Except String Message :=
  match d.role with
  | some role => .ok ⟨role, d.parts.getD []⟩
  | none => .error "role"

def shape : Json.Shape Draft Message where
  name := "Message"
  fields := [
    .of "role" true Draft.role (fun d v => { d with role := some v }) Json.text,
    .of "parts" false Draft.parts (fun d v => { d with parts := some v }) (Json.list Part.reader)]
  blank := {}
  build := Draft.build

def reader : Json.Reader Message := Json.record shape

def userText (text : String) : Message := ⟨"user", [⟨"text", some text⟩]⟩

def texts (m : Message) : List String :=
  m.parts.filterMap fun p => if p.kind = "text" then p.text else none

/-- What the payload of every fix request contains. -/
def marker : List Char :=
  Json.quote "task" ++ ':' :: Json.quote FixRequest.task

/-- A user message with a text that contains the marker. -/
def isFixRequest (m : Message) : Bool :=
  m.role == "user" && m.texts.any fun t => Text.hasInfix marker t.toList

end Message

/-- A conversation, the oldest message first. -/
abbrev Conversation := List Message

namespace Conversation

def reader : Json.Reader Conversation := Json.list Message.reader

def parse (text : String) : Except Json.Fault Conversation := Json.finish reader text.toList

def toJson (c : Conversation) : Json := .array (c.map Message.toJson)

def requestCount (c : Conversation) : Nat := (c.filter Message.isFixRequest).length

/-- The number of requests as a 32-bit count, held at the greatest one. -/
def requestsSent (c : Conversation) : UInt32 :=
  UInt32.ofNat (min c.requestCount (UInt32.size - 1))

def budget (c : Conversation) (limit : UInt32) : Budget := .of c.requestsSent limit

end Conversation

end LintRepair
