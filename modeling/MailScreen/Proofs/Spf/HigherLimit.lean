import MailScreen.Proofs.Spf.Entering
import MailScreen.Proofs.Spf.Following

/-!
# A higher limit

The limit on the terms that may cause lookups can only turn a check into a permanent error. No
`include` and no redirect takes such an error for anything else, so it is the result of the whole
check; and a check that does without it would have done the same with a higher limit.

* `leads_limited`: a check with a higher limit leads the same check with a lower one.
* `check_eq_of_limit_le`: what a check comes to within a limit, and the lookups that it makes for
  that, are the same with any higher limit.
-/

namespace MailScreen.Spf

open Dns (Resolver Context Session)

/-- The same check with another limit. -/
def Check.limited (c : Check) (limit : Nat) : Check :=
  { c with limit }

variable {n m : Nat}

/-- **A check with a higher limit leads** the same check with a lower one. -/
theorem leads_limited (c : Check) (h : n ≤ m) :
    Leads (c.limited m) (c.limited n) Eq (c.limited n).Exceeded Eq where
  states := inStep_eq
  lost h := h.1
  client := rfl
  facts _ := rfl
  count := follows_count (fun hs hn => hs ▸ Nat.lt_of_lt_of_le hn h) fun hs => hs ▸ rfl
  addresses _ := follows_self _
  exchanges _ := follows_self _
  texts _ := by
    rw [List.forall₂_eq_eq_eq]
    exact follows_self _
  isRecord h := h ▸ rfl

/-- With the higher limit the same is done until the lower one is exceeded. -/
theorem follows_limited (c : Check) (h : n ≤ m) (name : String) :
    Follows Eq (c.limited n).Exceeded Eq ((c.limited m).evaluation name)
      ((c.limited n).evaluation name) := by
  -- the lower limit leaves the deeper recursion unused
  rw [← evaluate_of_limit_lt (c := c.limited n) (Nat.lt_succ_of_le h)]
  exact (leads_limited c h).evaluate_of_eq (m + 1) name

/-- **A higher limit only removes limit errors.** A check that does not come to a permanent error
comes to the same outcome with any higher limit, after the same lookups in the same order, whatever
is published and however long the answers take. -/
theorem check_eq_of_limit_le (r : Resolver) (ctx : Context) (h : n ≤ m) (client : Ip.Address)
    (domain sender helo : String) (session : Session)
    (hn : (check r ctx n client domain sender helo session).1 ≠ .permError) :
    check r ctx m client domain sender helo session =
      check r ctx n client domain sender helo session := by
  let c := Check.ofArguments r ctx n client domain sender helo
  rcases follows_limited c h (DomainName.normalize domain) ⟨session, 0, []⟩ _ rfl with
    hlost | ⟨houtcome, hstate⟩
  · exact absurd hlost.1 hn
  · exact Prod.ext houtcome (congrArg State.session hstate)

/-- Three terms are counted, the last of them a redirect; with a limit of two that is too many. -/
theorem check_eq_of_limit_le_three :
    let z := ((Dns.Zone.empty.addText "a.com" "v=spf1 include:b.com redirect=c.com").addText "b.com"
      "v=spf1 exists:h.b.com -all").addText "c.com" "v=spf1 ip4:203.0.113.0/24 -all"
    let checked (limit : Nat) :=
      check z.resolver ⟨0, none⟩ limit (.v4 0xCB007105) "a.com" "u@a.com" "" ⟨0, []⟩
    (checked 2).1 = .permError ∧ (checked 3).1 = .pass ∧
      (checked 3).2.queries = [.txt "a.com", .txt "b.com", .ip "h.b.com", .txt "c.com"] ∧
      checked 10 = checked 3 := by
  intro z checked
  have hthree : (checked 2).1 = .permError ∧ (checked 3).1 = .pass ∧
      (checked 3).2.queries = [.txt "a.com", .txt "b.com", .ip "h.b.com", .txt "c.com"] := by
    decide +kernel
  exact ⟨hthree.1, hthree.2.1, hthree.2.2, check_eq_of_limit_le z.resolver ⟨0, none⟩ (by decide)
    (.v4 0xCB007105) "a.com" "u@a.com" "" ⟨0, []⟩ (by rw [hthree.2.1]; decide)⟩

end MailScreen.Spf
