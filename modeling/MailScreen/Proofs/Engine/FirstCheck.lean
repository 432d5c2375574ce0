import MailScreen.Proofs.Engine.Contract
import MailScreen.Proofs.RateLimit.Readings
import MailScreen.Proofs.RateLimit.Rounding

/-!
# The first check

Settings are refused if a bucket has no capacity. A message costs a whole token though, and a
bucket that is too small for one never has enough. So there are settings that are not refused and
let nothing through.

* `Limits.HoldsToken` says that a full bucket has enough for a message. `covers_full`: this is what
  a limiter finds, although it counts in floats; `holdsToken_of_covers`: a bucket that is too small
  never has enough.
* `Limiter.refusal?_fresh` is what a limiter says that has seen nothing yet.
* `passes_gate_iff`: which engines let their first message through their first gate.
* `rejects_of_small`: what is rejected at first for this reason is rejected at any time.
-/

namespace MailScreen.RateLimit

/-- A full bucket holds a token, or falls short of it by no more than the tolerance. -/
def Limits.HoldsToken (limits : Limits Float) : Prop :=
  1 - 1 / 1000000000 ≤ valueOf limits.capacity

instance (limits : Limits Float) : Decidable limits.HoldsToken :=
  inferInstanceAs (Decidable (1 - 1 / 1000000000 ≤ valueOf limits.capacity))

variable {limits : Limits Float}

/-! ## A full bucket -/

/-- The lesser of two floats that are made of the same is made of the same. -/
theorem unpack_least {x y : Float} (h : x.toModel.unpack = y.toModel.unpack) :
    (least x y).toModel.unpack = y.toModel.unpack := by
  unfold least
  split_ifs
  · rfl
  · exact h
  · rfl

/-- Nothing flows in at one instant. -/
theorem unpack_inflow (h : Config.isPositive limits.refill = true) (tokens : Float) (now : Int) :
    ((⟨tokens, now⟩ : Bucket Float).inflow limits now).toModel.unpack = .zero .positive := by
  obtain ⟨m, e, hm, hrefill⟩ := exists_unpack_of_isPositive h
  have hspan : (Amount.ofSpan (Time.elapsed now now) : Float).toModel.unpack = .zero .positive := by
    rw [Time.elapsed_of_le le_rfl]
    rfl
  show (Float.Model.pack (.mul .binary64
    (Amount.ofSpan (Time.elapsed now now) : Float).toModel.unpack
      limits.refill.toModel.unpack)).unpack = .zero .positive
  rw [hspan, hrefill]
  exact unpack_pack_zero .positive

/-- A full bucket stays as it is when it is filled. -/
theorem unpack_refill_full (h : Config.isUsable limits = true) (now : Int) :
    ((⟨limits.capacity, now⟩ : Bucket Float).refill limits now).tokens.toModel.unpack =
      limits.capacity.toModel.unpack := by
  obtain ⟨hcapacity, hrefill⟩ := Bool.and_eq_true_iff.mp h
  obtain ⟨m, e, hm, hunpack⟩ := exists_unpack_of_isPositive hcapacity
  obtain ⟨hc, he⟩ := isCanonical_of_unpack hunpack
  refine unpack_least ?_
  show (Float.Model.pack (.add .binary64 limits.capacity.toModel.unpack
    ((⟨limits.capacity, now⟩ : Bucket Float).inflow limits now).toModel.unpack)).unpack = _
  rw [unpack_inflow hrefill, hunpack]
  exact unpack_pack hc he

/-- The lesser of two floats is not above the second. -/
theorem least_cases (x y : Float) : least x y = y ∨ ¬y < least x y := by
  unfold least
  split_ifs with hnumber hless
  · exact .inl rfl
  · exact .inr hless
  · exact .inl rfl

/-- **No bucket has more than its capacity**: if one covers a message, whatever has been in it, a
full one holds a token. -/
theorem holdsToken_of_covers (h : Config.isUsable limits = true) {b : Bucket Float} {now : Int}
    (hcovers : (b.refill limits now).covers Amount.one = true) : limits.HoldsToken := by
  obtain ⟨hcapacity, -⟩ := Bool.and_eq_true_iff.mp h
  obtain ⟨m, e, hm, hunpack⟩ := exists_unpack_of_isPositive hcapacity
  have henough := (one_le_add_slack_iff _).mp (of_decide_eq_true hcovers)
  rcases least_cases (b.tokens + b.inflow limits now) limits.capacity with hfull | hbelow
  · have htokens : (b.refill limits now).tokens = limits.capacity := hfull
    rw [htokens] at henough
    exact henough.resolve_left (hunpack ▸ nofun)
  · rcases henough with hinfinite | henough
    · refine absurd (float_lt_iff.mpr ?_) hbelow
      show limits.capacity.toModel.unpack.lt (b.refill limits now).tokens.toModel.unpack = true
      rw [hunpack, hinfinite]
      rfl
    · refine le_of_not_gt fun hsmall => hbelow ?_
      exact lt_of_valueOf_lt (valueOf_pos hcapacity) (hsmall.trans_le henough)

/-- **A full bucket covers a message** just if it holds a token. -/
theorem covers_full (h : Config.isUsable limits = true) (now : Int) :
    ((⟨limits.capacity, now⟩ : Bucket Float).refill limits now).covers Amount.one = true ↔
      limits.HoldsToken := by
  refine ⟨holdsToken_of_covers h, fun htoken => decide_eq_true ?_⟩
  refine (one_le_add_slack_iff _).mpr (.inr ?_)
  rw [valueOf, unpack_refill_full h now]
  exact htoken

namespace Limiter

variable {l : Limiter Float} {key : Key}

theorem isCost_one : isCost (Amount.one : Float) = true := by decide +kernel

/-- The first attempt of a key. -/
theorem allowed_first (hnew : l.buckets.find? key = none)
    (h : Config.isUsable (l.limits key) = true) (now : Int) :
    (l.consume key Amount.one now).1.allowed = true ↔ (l.limits key).HoldsToken := by
  have hfull : l.bucket key now = ⟨(l.limits key).capacity, now⟩ := by
    rw [bucket, hnew]
    rfl
  rw [allowed_consume, isCost_one, Bool.true_and, hfull, covers_full h]

/-- Any attempt of a key. -/
theorem holdsToken_of_allowed (h : Config.isUsable (l.limits key) = true) {now : Int}
    (hallowed : (l.consume key Amount.one now).1.allowed = true) : (l.limits key).HoldsToken := by
  rw [allowed_consume, isCost_one, Bool.true_and] at hallowed
  exact holdsToken_of_covers h hallowed

/-- An attempt leaves the other keys alone. -/
theorem find?_consume_of_ne {k : Key} (hk : k ≠ key) (cost : Float) (now : Int) :
    (l.consume key cost now).2.buckets.find? k = l.buckets.find? k := by
  unfold consume
  simp only
  split
  · rfl
  · exact (Table.find?_put _ _ _ _).trans (if_neg hk)

theorem limits_consume (k : Key) (cost : Float) (now : Int) :
    (l.consume key cost now).2.limits k = l.limits k := by
  unfold consume
  simp only
  split <;> cases k <;> rfl

/-- Whose bucket is empty, if one of those is that a message is paid from. -/
def refusal? (l : Limiter Float) (q : Request) (now : Int) : Option Refusal :=
  Prod.fst <| l.admit q now

/-- The client pays first, and then the identity if there is one. -/
theorem refusal?_of_paid {q : Request} {now : Int} {paid : Outcome Float × Limiter Float}
    (hpaid : l.consume (.client q.client) Amount.one now = paid) :
    l.refusal? q now =
      if paid.1.allowed then
        if ∀ name ∈ q.identity,
          (paid.2.consume (.identity (Text.lowerFullString name)) Amount.one now).1.allowed = true
        then none else some .identity
      else some .client := by
  obtain ⟨⟨allowed, remaining⟩, l'⟩ := paid
  unfold refusal? Limiter.admit
  rw [hpaid]
  cases allowed with
  | false => rfl
  | true =>
    cases q.identity with
    | none => simp
    | some name =>
      cases hsecond : (l'.consume (.identity (Text.lowerFullString name)) Amount.one
        now).1.allowed <;> simp [hsecond]

/-- **What a limiter says that has seen nothing yet**: it refuses a message if a full bucket of
those that pay for it does not hold a token. -/
theorem refusal?_fresh {client identity : Limits Float} (hclient : Config.isUsable client = true)
    (hidentity : Config.isUsable identity = true) (q : Request) (now : Int) :
    (fresh client identity).refusal? q now =
      if client.HoldsToken then
        if q.identity.isSome → identity.HoldsToken then none else some .identity
      else some .client := by
  obtain ⟨paid, hpaid⟩ : ∃ paid,
    (fresh client identity).consume (.client q.client) Amount.one now = paid := ⟨_, rfl⟩
  have hfirst : paid.1.allowed = true ↔ client.HoldsToken := by
    have hnew : (fresh client identity).buckets.find? (.client q.client) = none :=
      Table.find?_empty _
    rw [← hpaid, allowed_first hnew hclient]
    rfl
  have hsecond (name : String) :
      (paid.2.consume (.identity name) Amount.one now).1.allowed = true ↔ identity.HoldsToken := by
    have hnew : paid.2.buckets.find? (.identity name) = none := by
      have hother : Key.identity name ≠ .client q.client := nofun
      rw [← hpaid, find?_consume_of_ne hother]
      exact Table.find?_empty _
    have hlimits : paid.2.limits (.identity name) = identity := by
      rw [← hpaid, limits_consume]
      rfl
    rw [allowed_first hnew (hlimits ▸ hidentity), hlimits]
  have hall : (∀ name ∈ q.identity, identity.HoldsToken) ↔
      (q.identity.isSome → identity.HoldsToken) := by
    cases q.identity <;> simp
  simp only [refusal?_of_paid hpaid, hfirst, hsecond, hall]

/-- **What a limiter says at any time**: it lets a message through only if full buckets of those
that pay for it hold a token. -/
theorem holdsToken_of_refusal?_eq_none (hclient : Config.isUsable l.client = true)
    (hidentity : Config.isUsable l.identity = true) {q : Request} {now : Int}
    (h : l.refusal? q now = none) :
    l.client.HoldsToken ∧ (q.identity.isSome → l.identity.HoldsToken) := by
  obtain ⟨paid, hpaid⟩ : ∃ paid, l.consume (.client q.client) Amount.one now = paid := ⟨_, rfl⟩
  rw [refusal?_of_paid hpaid] at h
  split_ifs at h with hfirst hsecond
  refine ⟨?_, fun hsome => ?_⟩
  · rw [← hpaid] at hfirst
    exact @holdsToken_of_allowed l (.client q.client) hclient now hfirst
  · obtain ⟨name, hname⟩ := Option.isSome_iff_exists.mp hsome
    have hlimits : paid.2.limits (.identity (Text.lowerFullString name)) = l.identity := by
      rw [← hpaid, limits_consume]
      rfl
    rw [← hlimits]
    exact holdsToken_of_allowed (hlimits ▸ hidentity) (hsecond name hname)

end Limiter

end MailScreen.RateLimit

namespace MailScreen.Engine

open RateLimit

/-! ## Checks -/

/-- The first gate says what the limiter says. -/
theorem contribution_rateLimitGate (score : Int) (task : Task) (f : Findings) (s : Stores) :
    ((rateLimitGate score).answer task f s).contribution =
      (s.limiter.refusal? task.request s.session.now).elim .none
        fun refusal => .hard .reject score refusal.reason := by
  simp only [Contributor.answer, rateLimitGate, Limiter.refusal?]
  cases Prod.fst <| s.limiter.admit task.request s.session.now <;> rfl

section Build

variable {scheme : Dkim.Scheme} {reg : Registry} {r : Dns.Resolver}
  {keyText : String → Except String String}
  {extra : List Contributor} {c : Config} {e : Engine}
  (hbuild : build scheme reg r keyText extra c = .ok e)

include hbuild

/-- The first gate answers first. -/
theorem exists_answers_eq_cons (task : Task) (f : Findings) (s : Stores) :
    ∃ later, answers task e.contributors f s =
      (rateLimitGate c.scoring.rateLimitScore).answer task f s :: later := by
  rw [contributors_of_build hbuild]
  exact ⟨_, rfl⟩

/-- What the first gate says of the first message. -/
theorem contribution_first (task : Task) (f : Findings) (now : Int) :
    ((rateLimitGate c.scoring.rateLimitScore).answer task f
      (State.fresh c now).stores).contribution =
      if c.rateLimit.client.HoldsToken then
        if task.request.identity.isSome → c.rateLimit.identity.HoldsToken then .none
        else .hard .reject c.scoring.rateLimitScore Refusal.identity.reason
      else .hard .reject c.scoring.rateLimitScore Refusal.client.reason := by
  obtain ⟨hclient, hidentity⟩ := Config.isUsable_of_check (check_of_build hbuild)
  have hfresh : (State.fresh c now).stores.limiter.refusal? task.request now = _ :=
    Limiter.refusal?_fresh hclient hidentity task.request now
  have hnow : (State.fresh c now).stores.session.now = now := rfl
  rw [contribution_rateLimitGate, hnow, hfresh]
  split_ifs <;> rfl

end Build

/-- A check that its first contributor rejects. -/
theorem check_of_rejected {e : Engine} {mode : Mode} {ctx : Dns.Context} {q : Request}
    {timeOfDay : Int} {s : State} {gate : Answer} {later : List Answer} {score : Int}
    {reason : String}
    (hgiven : answers (e.task mode ctx q timeOfDay) e.contributors .nothing s.stores =
      gate :: later)
    (hgate : gate.contribution = .hard .reject score reason) (id : String) :
    (e.check id mode ctx q timeOfDay s).1.decision = .reject ∧
      (e.check id mode ctx q timeOfDay s).1.score = clampScore score ∧
      (e.check id mode ctx q timeOfDay s).1.reasons = [reason] := by
  have hended : gate.decision = some .reject := by
    rw [Answer.decision, hgate]
    rfl
  have hfirst : ∀ a ∈ ([] : List Answer), a.decision = none := fun _ h =>
    absurd h List.not_mem_nil
  have hsplit : answers (e.task mode ctx q timeOfDay) e.contributors .nothing s.stores =
      [] ++ gate :: later := hgiven
  obtain ⟨hdecision, hscore, hmade⟩ := check_of_ended hsplit hfirst hended id
  refine ⟨hdecision, ?_, ?_⟩
  · rw [hscore, hgate]
    rfl
  · have hreason : gate.contribution.reason = some reason := by
      rw [hgate]
      rfl
    rw [hmade.reasons]
    simp only [List.nil_append, List.filterMap_cons, List.filterMap_nil, hreason]

/-- **A bucket that is too small never has enough**, whatever the engine has seen: what it is to pay
for is rejected at any time. -/
theorem rejects_of_small {scheme : Dkim.Scheme} {reg : Registry} {r : Dns.Resolver}
    {keyText : String → Except String String} {extra : List Contributor} {c : Config} {e : Engine}
    (hbuild : build scheme reg r keyText extra c = .ok e) {q : Request}
    (hsmall : ¬(c.rateLimit.client.HoldsToken ∧
      (q.identity.isSome → c.rateLimit.identity.HoldsToken)))
    {s : State} (hclient : s.stores.limiter.client = c.rateLimit.client)
    (hidentity : s.stores.limiter.identity = c.rateLimit.identity) (id : String) (mode : Mode)
    (ctx : Dns.Context) (timeOfDay : Int) :
    (e.check id mode ctx q timeOfDay s).1.decision = .reject := by
  obtain ⟨husable, husable'⟩ := Config.isUsable_of_check (check_of_build hbuild)
  rw [← hclient] at husable hsmall
  rw [← hidentity] at husable' hsmall
  let task := e.task mode ctx q timeOfDay
  obtain ⟨later, hgiven⟩ := exists_answers_eq_cons hbuild task .nothing s.stores
  obtain ⟨refusal, hrefusal⟩ : ∃ refusal,
      s.stores.limiter.refusal? q s.stores.session.now = some refusal :=
    Option.ne_none_iff_exists'.mp fun h =>
      hsmall (Limiter.holdsToken_of_refusal?_eq_none husable husable' h)
  have hgate :
      ((rateLimitGate c.scoring.rateLimitScore).answer task .nothing s.stores).contribution =
        .hard .reject c.scoring.rateLimitScore refusal.reason := by
    have hpayer : s.stores.limiter.refusal? task.request s.stores.session.now = some refusal :=
      hrefusal
    rw [contribution_rateLimitGate, hpayer, Option.elim_some]
  exact (check_of_rejected hgiven hgate id).1

/-- **Which engines let their first message through their first gate**: those with a bucket for the
client that holds a token, and with one for the identity if the client has logged in. Any other
engine rejects the message there, whatever it is, and says whose bucket is too small. -/
theorem passes_gate_iff {scheme : Dkim.Scheme} {reg : Registry} {r : Dns.Resolver}
    {keyText : String → Except String String} {extra : List Contributor} {c : Config} {e : Engine}
    (hbuild : build scheme reg r keyText extra c = .ok e) (id : String) (mode : Mode)
    (ctx : Dns.Context) (q : Request) (timeOfDay now : Int) :
    let given := answers (e.task mode ctx q timeOfDay) e.contributors .nothing
      (State.fresh c now).stores
    let v := (e.check id mode ctx q timeOfDay (.fresh c now)).1
    ∃ gate later, given = gate :: later ∧ gate.name = "rate_limit" ∧
      (gate.decision = none ↔ c.rateLimit.client.HoldsToken ∧
        (q.identity.isSome → c.rateLimit.identity.HoldsToken)) ∧
      (gate.decision ≠ none → v.decision = .reject ∧
        v.score = clampScore c.scoring.rateLimitScore ∧
        v.reasons = [if c.rateLimit.client.HoldsToken then Refusal.identity.reason
          else Refusal.client.reason]) := by
  intro given v
  let task := e.task mode ctx q timeOfDay
  let gate := (rateLimitGate c.scoring.rateLimitScore).answer task .nothing
    (State.fresh c now).stores
  obtain ⟨later, hgiven⟩ : ∃ later, given = gate :: later :=
    exists_answers_eq_cons hbuild task .nothing (State.fresh c now).stores
  have hanswer := contribution_first hbuild task .nothing now
  refine ⟨gate, later, hgiven, rfl, ?_⟩
  show (gate.contribution.decision = none ↔ _) ∧ (gate.contribution.decision ≠ none → _)
  by_cases hclient : c.rateLimit.client.HoldsToken
  · by_cases hidentity : task.request.identity.isSome → c.rateLimit.identity.HoldsToken
    · have hpass : gate.contribution = .none := by rw [hanswer, if_pos hclient, if_pos hidentity]
      rw [hpass]
      exact ⟨iff_of_true rfl ⟨hclient, hidentity⟩, fun h => absurd rfl h⟩
    · have hreject : gate.contribution =
          .hard .reject c.scoring.rateLimitScore Refusal.identity.reason := by
        rw [hanswer, if_pos hclient, if_neg hidentity]
      rw [if_pos hclient]
      refine ⟨iff_of_false ?_ fun h => hidentity h.2, fun _ => check_of_rejected hgiven hreject id⟩
      rw [hreject]
      nofun
  · have hreject : gate.contribution =
        .hard .reject c.scoring.rateLimitScore Refusal.client.reason := by
      rw [hanswer, if_neg hclient]
    rw [if_neg hclient]
    refine ⟨iff_of_false ?_ fun h => hclient h.1, fun _ => check_of_rejected hgiven hreject id⟩
    rw [hreject]
    nofun

theorem passes_gate_iff_logged_in :
    let c : Config := { rateLimit := { client := ⟨1, 1⟩, identity := ⟨0.5, 1⟩ } }
    let scheme : Dkim.Scheme := ⟨fun _ => [], fun _ _ => none⟩
    let reg : Registry := .ofRules []
    let r := Dns.Zone.empty.resolver
    let anonymous : Request := ⟨.v4 0xCB007105, "mx.b.c", none, ⟨"u", "d.e"⟩, none, ⟨⟨[]⟩, []⟩⟩
    let named : Request := { anonymous with identity := some "Ann" }
    let ctx : Dns.Context := ⟨0, none⟩
    let s := State.fresh c 0
    (c.rateLimit.client.HoldsToken ∧ ¬c.rateLimit.identity.HoldsToken) ∧
      ∃ e, build scheme reg r (fun _ => .error "") [] c = .ok e ∧
        (∃ gate later, answers (e.task .standard ctx anonymous 0) e.contributors .nothing s.stores =
          gate :: later ∧ gate.name = "rate_limit" ∧ gate.decision = none) ∧
        (e.check "" .standard ctx named 0 s).1.decision = .reject ∧
        (e.check "" .standard ctx named 0 s).1.reasons =
          ["rate limit exceeded for authenticated sender"] := by
  intro c scheme reg r anonymous named ctx s
  have hclient : c.rateLimit.client.HoldsToken := by decide +kernel
  have hidentity : ¬c.rateLimit.identity.HoldsToken := by decide +kernel
  have hbuild : build scheme reg r (fun _ => .error "") [] c = .ok _ :=
    build_of_fault? (by decide +kernel) rfl
  refine ⟨⟨hclient, hidentity⟩, _, hbuild, ?_, ?_⟩
  · obtain ⟨gate, later, hgiven, hname, hpasses, -⟩ :=
      passes_gate_iff hbuild "" .standard ctx anonymous 0 0
    exact ⟨gate, later, hgiven, hname, hpasses.mpr ⟨hclient, nofun⟩⟩
  · obtain ⟨gate, later, -, -, hpasses, hrejects⟩ :=
      passes_gate_iff hbuild "" .standard ctx named 0 0
    obtain ⟨hdecision, -, hreasons⟩ := hrejects fun h => hidentity ((hpasses.mp h).2 rfl)
    rw [if_pos hclient] at hreasons
    exact ⟨hdecision, hreasons⟩

/-- **Settings that let nothing through**: a bucket that holds half a token is not refused. -/
theorem rejects_first_of_half :
    let c : Config := { rateLimit := { client := ⟨0.5, 1⟩ }, greylist := { enabled := false } }
    let scheme : Dkim.Scheme := ⟨fun _ => [], fun _ _ => none⟩
    let reg : Registry := .ofRules []
    let q : Request := ⟨.v4 0xCB007105, "mx.b.c", some ⟨"u", "a.com"⟩, ⟨"u", "d.e"⟩, none,
      ⟨⟨[⟨"From", "u@a.com"⟩]⟩, []⟩⟩
    c.check = .ok () ∧
      ∃ e, build scheme reg Dns.Zone.empty.resolver (fun _ => .error "") [] c = .ok e ∧
        let v := (e.check "" .standard ⟨0, none⟩ q 0 (.fresh c 0)).1
        v.decision = .reject ∧ v.reasons = ["rate limit exceeded for client IP"] := by
  intro c scheme reg q
  have hbuild : build scheme reg Dns.Zone.empty.resolver (fun _ => .error "") [] c = .ok _ :=
    build_of_fault? (by decide +kernel) rfl
  refine ⟨by decide +kernel, _, hbuild, ?_⟩
  decide +kernel

end MailScreen.Engine
