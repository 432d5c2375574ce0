import MailScreen.Ip.Address
import MailScreen.Mail.Message

/-!
# Requests

Model of `CheckRequest`.

What is known about one message when it is to be judged: the connecting client, how it introduced
itself, the envelope, and the message.
-/

namespace MailScreen

/-- One message and the transaction it came in. -/
structure Request where
  /-- The address of the connecting client. -/
  client : Ip.Address
  /-- The name the client gave itself. -/
  helo : String
  /-- The sender of the envelope, `none` for the null sender `<>`. -/
  sender : Option Mail.Mailbox
  /-- The recipient of the envelope. -/
  recipient : Mail.Mailbox
  /-- The identity the client logged in with, if it did. -/
  identity : Option String
  /-- The message. -/
  message : Mail.Message
  deriving Repr, DecidableEq

/-- The same transaction with another message. -/
def Request.withMessage (r : Request) (m : Mail.Message) : Request :=
  { r with message := m }

end MailScreen
