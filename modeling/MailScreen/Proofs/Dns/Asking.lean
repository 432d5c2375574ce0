import MailScreen.Dmarc.Evaluate
import MailScreen.Proofs.Dkim.Verify
import MailScreen.Proofs.Dns.Course
import MailScreen.Proofs.Dns.Undisturbed
import MailScreen.Proofs.Spf.TempError

/-!
# Authentication only asks

The three methods of authentication do nothing but lookups in the context of their check, and what
they ask next depends on the answers alone: each of them does what one inquiry does
(`Spf.asks_verify`, `Dkim.asks_verify`, `Dmarc.asks_evaluate`).
-/

namespace MailScreen

open Dns (Asks asks_pure asks_look)

/-- What does what an inquiry does stays on course. -/
theorem Dns.Asks.staysOnCourse {α : Type} {x : Context → Resolver → StateM Session α}
    (h : Asks x) (ctx : Context) (r : Resolver) : StaysOnCourse ctx r (x ctx r) := by
  obtain ⟨p, hp⟩ := h
  rw [hp]
  exact p.staysOnCourse

theorem Spf.asks_verify (limit : Nat) (sender : Option Mail.Mailbox) (helo : String)
    (client : Ip.Address) : Asks fun ctx r => Spf.verify r ctx limit sender helo client := by
  unfold Spf.verify
  simp only
  split
  · exact asks_pure _
  · obtain ⟨p, -, hp⟩ := Spf.exists_inquiry limit client (Spf.identity sender helo).2
      ((Spf.identity sender helo).1 ++ "@" ++ (Spf.identity sender helo).2)
      (DomainName.normalize helo)
    exact Asks.bind ⟨p, fun ctx r => hp r ctx⟩ fun o => asks_pure _

namespace Dkim

variable {scheme : Scheme} {now : Int} {m : Mail.Message}

/-- The key is looked up, and nothing else. -/
theorem fetchKey_eq (ctx : Dns.Context) (r : Dns.Resolver) (algorithm : Algorithm)
    (name : String) : fetchKey scheme ctx r algorithm name =
      ctx.txt r name >>= fun answer => pure (keyOfAnswer scheme algorithm answer) := by
  refine congrArg (ctx.txt r name >>= ·) (funext fun answer => ?_)
  cases answer with
  | ok texts => rfl
  | error e => cases e <;> rfl

/-- What is found of a signature that was read, by what is found of its key. -/
def Signature.resultFor (sig : Signature) (scheme : Scheme) (m : Mail.Message) (text : String) :
    Except Result Acceptance → Result
  | .error e => e
  | .ok accepts => sig.judge scheme accepts m text

theorem verifyTags_eq {t : Tags} {sig : Signature} (h : Signature.ofTags now t = .ok sig)
    (ctx : Dns.Context) (r : Dns.Resolver) (text : String) :
    verifyTags scheme ctx r now m text t =
      fetchKey scheme ctx r sig.algorithm (keyName sig.selector sig.domain) >>= fun key =>
        pure (sig.resultFor scheme m text key) := by
  unfold verifyTags
  rw [h]
  refine congrArg (fetchKey scheme ctx r _ _ >>= ·) (funext fun key => ?_)
  cases key <;> rfl

theorem asks_fetchKey (algorithm : Algorithm) (name : String) :
    Asks fun ctx r => fetchKey scheme ctx r algorithm name := by
  simp only [fetchKey_eq]
  exact (asks_look (.txt name)).bind fun answer => asks_pure _

theorem asks_verifyTags (text : String) (t : Tags) :
    Asks fun ctx r => verifyTags scheme ctx r now m text t := by
  cases h : Signature.ofTags now t with
  | error e =>
    unfold verifyTags
    simp only [h]
    exact asks_pure e
  | ok sig =>
    simp only [verifyTags_eq h]
    exact (asks_fetchKey _ _).bind fun key => asks_pure _

theorem asks_verifyOne (text : String) : Asks fun ctx r => verifyOne scheme ctx r now m text := by
  unfold verifyOne
  cases Tags.ofText text with
  | error fault => exact asks_pure _
  | ok t => exact (asks_verifyTags text t).bind fun result => asks_pure _

theorem asks_verifyAll (best : Option Outcome) (texts : List String) :
    Asks fun ctx r => verifyAll (verifyOne scheme ctx r now m) best texts := by
  induction texts generalizing best with
  | nil => exact asks_pure _
  | cons text texts ih =>
    refine (asks_verifyOne text).bind fun o => ?_
    cases o.isValid with
    | true => exact asks_pure o
    | false => exact ih _

theorem asks_verify (scheme : Scheme) (now : Int) (m : Mail.Message) :
    Asks fun ctx r => verify scheme ctx r now m :=
  asks_verifyAll none _

end Dkim

namespace Dmarc

variable {reg : Registry}

/-- The policy in the answer to the lookup at its name. -/
def policyOfAnswer : Except Dns.LookupError (List String) → Except Result (Option Record)
  | .ok texts => policyIn texts
  | .error .notFound => .ok none
  | .error _ => .error .tempError

theorem lookup_eq (ctx : Dns.Context) (r : Dns.Resolver) (domain : String) :
    lookup ctx r domain =
      ctx.txt r ("_dmarc." ++ domain) >>= fun answer => pure (policyOfAnswer answer) := by
  refine congrArg (ctx.txt r ("_dmarc." ++ domain) >>= ·) (funext fun answer => ?_)
  cases answer with
  | ok texts => rfl
  | error e => cases e <;> rfl

theorem asks_lookup (domain : String) : Asks fun ctx r => lookup ctx r domain := by
  simp only [lookup_eq]
  exact (asks_look (.txt _)).bind fun answer => asks_pure _

/-- The second half of `discover`: what is done after the lookup at the author's domain. -/
def discoverFrom (reg : Registry) (ctx : Dns.Context) (r : Dns.Resolver) (domain : String) :
    Except Result (Option Record) → StateM Dns.Session (Except Result (Option (Record × Policy)))
  | .error e => pure (.error e)
  | .ok (some record) => pure (.ok (some (record, record.policy)))
  | .ok none =>
    if reg.organizational domain = domain then pure (.ok none)
    else lookup ctx r (reg.organizational domain) >>= fun found =>
      pure (found.map fun record? => record?.map fun record =>
        (record, record.subdomainPolicy.getD record.policy))

theorem discover_eq (ctx : Dns.Context) (r : Dns.Resolver) (domain : String) :
    discover reg ctx r domain = lookup ctx r domain >>= discoverFrom reg ctx r domain := by
  refine congrArg (lookup ctx r domain >>= ·) (funext fun found => ?_)
  rcases found with e | _ | record
  · rfl
  · unfold discoverFrom
    simp only
    generalize reg.organizational domain = organization
    by_cases h : organization = domain
    · rw [if_pos h, if_pos h]
    · rw [if_neg h, if_neg h]
      refine congrArg (lookup ctx r organization >>= ·) (funext fun found => ?_)
      rcases found with e | _ | record <;> rfl
  · rfl

theorem asks_discoverFrom (domain : String) (found : Except Result (Option Record)) :
    Asks fun ctx r => discoverFrom reg ctx r domain found := by
  rcases found with e | _ | record
  · exact asks_pure _
  · unfold discoverFrom
    by_cases h : reg.organizational domain = domain
    · simp only [if_pos h]
      exact asks_pure _
    · simp only [if_neg h]
      exact (asks_lookup _).bind fun found => asks_pure _
  · exact asks_pure _

theorem asks_discover (domain : String) : Asks fun ctx r => discover reg ctx r domain := by
  simp only [discover_eq]
  exact (asks_lookup domain).bind (asks_discoverFrom domain)

/-- What is made of a message by what was found of its author's policy. -/
def outcomeFor (reg : Registry) (author : String) (spf : Spf.Outcome) (spfDomain : Option String)
    (dkim : Dkim.Outcome) : Except Result (Option (Record × Policy)) → Outcome
  | .error e => .withoutPolicy e
  | .ok none => .withoutPolicy .none
  | .ok (some (record, policy)) => apply reg record policy author spf spfDomain dkim

theorem evaluate_eq (ctx : Dns.Context) (r : Dns.Resolver) (author : String) (spf : Spf.Outcome)
    (spfDomain : Option String) (dkim : Dkim.Outcome) :
    evaluate reg ctx r author spf spfDomain dkim =
      discover reg ctx r (DomainName.normalize author) >>= fun found =>
        pure (outcomeFor reg (DomainName.normalize author) spf spfDomain dkim found) := by
  refine congrArg (discover reg ctx r _ >>= ·) (funext fun found => ?_)
  rcases found with e | _ | ⟨record, policy⟩ <;> rfl

theorem asks_evaluate (author : String) (spf : Spf.Outcome) (spfDomain : Option String)
    (dkim : Dkim.Outcome) : Asks fun ctx r => evaluate reg ctx r author spf spfDomain dkim := by
  simp only [evaluate_eq]
  exact (asks_discover _).bind fun found => asks_pure _

end Dmarc

end MailScreen
