import MailScreen.Error
import MailScreen.Ip.Reader
import MailScreen.Json.Reader
import MailScreen.Json.Record
import MailScreen.Request

/-!
# Lines that ask for a check

Model of `CheckLine` (`parse`, `into_request`).

A request is one JSON record on one line.

* `CheckLine.ofText` reads a line; only `ip` and `rcpt_to` must be given.
* `CheckLine.request` reads the mailboxes and the message in it. An empty sender and `<>` stand for
  the null sender.
-/

namespace MailScreen.Protocol

open MailScreen.Text

/-- A request as it stands on a line. -/
structure CheckLine where
  client : Ip.Address
  helo : String
  sender : String
  recipient : String
  identity : Option String
  message : String
  /-- Judge by the weights for messages with few header fields. -/
  legacy : Bool
  deriving Repr, DecidableEq

namespace CheckLine

/-- The names of the fields, in order. -/
def fieldNames : List String :=
  ["ip", "helo", "mail_from", "rcpt_to", "auth_user", "message", "legacy"]

/-- Reads an optional field. -/
def field? {α : Type} (read : Json.Value → Option α) (absent : α) :
    Option Json.Value → Option α
  | none => some absent
  | some v => read v

/-- Reads the record. -/
def ofJson? (v : Json.Value) : Option CheckLine := do
  let [ip, helo, sender, recipient, identity, message, legacy] ← Json.record? fieldNames 4 v
    | none
  return {
    client := ← Ip.Address.ofText? (← Json.text? (← ip))
    helo := ← field? Json.text? "" helo
    sender := ← field? Json.text? "" sender
    recipient := ← Json.text? (← recipient)
    identity := ← field? Json.nullableText? none identity
    message := ← field? Json.text? "" message
    legacy := ← field? Json.bool? false legacy }

/-- Reads a line. -/
def ofText (line : String) : Except Error CheckLine :=
  match (Json.Value.ofText? line).bind ofJson? with
  | some l => .ok l
  | none => .error ⟨.validation, "Invalid request"⟩

/-- The sender: none for the null sender. -/
def sender? (text : String) : Except Error (Option Mail.Mailbox) :=
  let cs := trim text.toList
  if cs.isEmpty || cs == ['<', '>'] then .ok none
  else
    match Mail.Mailbox.ofChars? cs with
    | some m => .ok (some m)
    | none => .error ⟨.validation, "Invalid mail_from: " ++ String.ofList cs⟩

/-- The recipient. -/
def recipient? (text : String) : Except Error Mail.Mailbox :=
  match Mail.Mailbox.ofText? text with
  | some m => .ok m
  | none => .error ⟨.validation, "Invalid rcpt_to: " ++ text⟩

/-- The request that the line asks to be judged; an empty identity is none. -/
def request (l : CheckLine) : Except Error Request := do
  let sender ← sender? l.sender
  let recipient ← recipient? l.recipient
  return {
    client := l.client, helo := l.helo, sender, recipient
    identity := l.identity.filter (· ≠ "")
    message := Mail.Message.ofBytes (Utf8.encodeString l.message) }

end CheckLine

end MailScreen.Protocol
