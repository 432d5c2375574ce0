import MailScreen.Error
import MailScreen.Json.Writer
import MailScreen.Verdict

/-!
# Replies

Model of `Reply` (`error`, `to_line`).

Each request is answered by one line: a verdict, or an error with its code.
-/

namespace MailScreen.Protocol

/-- The answer to one request. -/
inductive Reply where
  | verdict (v : Verdict)
  | error (e : Error)
  deriving Repr, DecidableEq

namespace Reply

/-- The record that is written. -/
def toJson : Reply → Json.Value
  | verdict v => v.toJson
  | error e => .ofMembers [("error", .text e.message), ("code", .text e.code)]

/-- The line, without its end. -/
def toLine (r : Reply) : String :=
  r.toJson.write

end Reply

end MailScreen.Protocol
