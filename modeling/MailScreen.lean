import MailScreen.Dns.Zone
import MailScreen.Main
import MailScreen.Proofs.Dkim.Tags
import MailScreen.Proofs.Text.Base64
import MailScreen.Proofs.Text.Utf8
import MailScreen.Proofs.Mail.Message
import MailScreen.Proofs.Dkim.SignerTags
import MailScreen.Proofs.Dkim.SignVerify
import MailScreen.Proofs.Text.Collapse
import MailScreen.Proofs.Mail.Author
import MailScreen.Proofs.Dkim.AuthorBound
import MailScreen.Proofs.Spf.Cost
import MailScreen.Proofs.Spf.LookupBound
import MailScreen.Proofs.Greylist.Gaps
import MailScreen.Proofs.Greylist.Pruning
import MailScreen.Proofs.Mail.Domain
import MailScreen.Proofs.Dmarc.Alignment
import MailScreen.Proofs.Engine.Signals
import MailScreen.Proofs.RateLimit.Throughput
import MailScreen.Proofs.Engine.DmarcPass
import MailScreen.Proofs.Dkim.ReportedDomain
import MailScreen.Proofs.Verdict.ResultsField
import MailScreen.Proofs.Engine.ReportedDomains
import MailScreen.Proofs.Dns.Inquiry
import MailScreen.Proofs.Spf.TempError
import MailScreen.Proofs.Dns.Course
import MailScreen.Proofs.Engine.Deadline
import MailScreen.Proofs.Spf.Exchange
import MailScreen.Proofs.Spf.Qualifiers
import MailScreen.Proofs.Engine.Contract
import MailScreen.Proofs.Dns.Undisturbed
import MailScreen.Proofs.Dkim.Evidence
import MailScreen.Proofs.Engine.Gates
import MailScreen.Proofs.Engine.Weights
import MailScreen.Proofs.Spf.SideBySide
import MailScreen.Proofs.Spf.AnswerOrder
import MailScreen.Proofs.Dns.Asking
import MailScreen.Proofs.Dkim.FirstValid
import MailScreen.Proofs.Dmarc.Governing
import MailScreen.Proofs.Engine.AlignedSignature
import MailScreen.Proofs.Engine.Modes
import MailScreen.Proofs.Engine.Counting
import MailScreen.Proofs.Protocol.OneLine
import MailScreen.Proofs.Serve.Order
import MailScreen.Proofs.Serve.EarlyEnd
import MailScreen.Proofs.RateLimit.Pruning
import MailScreen.Proofs.Greylist.MappedClients
import MailScreen.Proofs.RateLimit.Spelling
import MailScreen.Proofs.Dmarc.Verdict
import MailScreen.Proofs.Dmarc.SeveralPolicies
import MailScreen.Proofs.Spf.HigherLimit
import MailScreen.Proofs.Spf.InertTerms
import MailScreen.Proofs.Spf.Chain
import MailScreen.Proofs.Dkim.NormalBody
import MailScreen.Proofs.Dkim.SignedText
import MailScreen.Proofs.Spf.ClientNames
import MailScreen.Proofs.Spf.DomainTerms
import MailScreen.Proofs.Dkim.Reporting
import MailScreen.Proofs.Dkim.SignatureTag
import MailScreen.Proofs.Dkim.SimpleForm
import MailScreen.Proofs.Greylist.Identity
import MailScreen.Proofs.Engine.RunningTotal
import MailScreen.Proofs.RateLimit.Readings
import MailScreen.Proofs.RateLimit.WithinCapacity
import MailScreen.Proofs.RateLimit.Refusals
import MailScreen.Proofs.RateLimit.SteadySenders
import MailScreen.Proofs.RateLimit.Floats
import MailScreen.Proofs.RateLimit.Rounding
import MailScreen.Proofs.Engine.FirstCheck
import MailScreen.Proofs.Mail.Mailbox
import MailScreen.Proofs.Mail.Written
import MailScreen.Proofs.Text.Numbers
import MailScreen.Proofs.Ip.Leading
import MailScreen.Proofs.Ip.Printed
import MailScreen.Proofs.Helo.Literals
import MailScreen.Proofs.Greylist.Blocks
import MailScreen.Proofs.Spf.Networks
import MailScreen.Proofs.Text.LetterCase
import MailScreen.Proofs.Dmarc.Written
import MailScreen.Proofs.DomainName.Settling
import MailScreen.Proofs.Spf.ReportedDomain
