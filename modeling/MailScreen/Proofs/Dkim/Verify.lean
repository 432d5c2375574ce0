import MailScreen.Dkim.Verify
import MailScreen.Proofs.Dkim.Canonical

/-!
# What a check finds

* `fetchKey_fst`, `verifyTags_of_ok`, `verifyOne_of_ok` and their likes: what a check finds depends
  on the lookup of the key only through its answer.
* `ofTags_ok`: what a signature that was read says of its fields, and that it has not expired.
* `Result.IsFault`: what stops a check before the message is compared; `verifyTags_cases`.
* `verifyOne_pass`: a valid signature was read, its key was found, and the key accepts the canonical
  form of the signed fields. No fault is taken for a pass.
* `verifyAll_of_isValid`: a valid first signature is the outcome for the message.
-/

namespace MailScreen.Dkim

open MailScreen.Text MailScreen.Mail Dns.Session

variable {scheme : Scheme} {ctx : Dns.Context} {r : Dns.Resolver} {now : Int} {m : Message}
  {text : String}

/-- The key in the answer to the lookup at its name. -/
def keyOfAnswer (scheme : Scheme) (algorithm : Algorithm) :
    Except Dns.LookupError (List String) → Except Result Acceptance
  | .ok texts => keyOf scheme algorithm texts
  | .error .notFound => .error .permError
  | .error _ => .error .tempError

theorem fetchKey_fst (algorithm : Algorithm) (name : String) (s : Dns.Session) :
    (fetchKey scheme ctx r algorithm name s).1 =
      keyOfAnswer scheme algorithm (ctx.txt r name s).1 := by
  unfold fetchKey
  rw [bind_apply]
  cases (ctx.txt r name s).1 with
  | error e => cases e <;> rfl
  | ok texts => rfl

theorem verifyTags_of_error {t : Tags} {e : Result} (h : Signature.ofTags now t = .error e)
    (s : Dns.Session) : (verifyTags scheme ctx r now m text t s).1 = e := by
  unfold verifyTags
  rw [h]
  rfl

theorem verifyTags_of_key_error {t : Tags} {sig : Signature} {e : Result} {s : Dns.Session}
    (h : Signature.ofTags now t = .ok sig) (hkey : keyOfAnswer scheme sig.algorithm
      (ctx.txt r (keyName sig.selector sig.domain) s).1 = .error e) :
    (verifyTags scheme ctx r now m text t s).1 = e := by
  unfold verifyTags
  rw [h]
  simp only
  rw [bind_apply, fetchKey_fst, hkey]
  rfl

theorem verifyTags_of_ok {t : Tags} {sig : Signature} {accepts : Acceptance} {s : Dns.Session}
    (h : Signature.ofTags now t = .ok sig) (hkey : keyOfAnswer scheme sig.algorithm
      (ctx.txt r (keyName sig.selector sig.domain) s).1 = .ok accepts) :
    (verifyTags scheme ctx r now m text t s).1 = sig.judge scheme accepts m text := by
  unfold verifyTags
  rw [h]
  simp only
  rw [bind_apply, fetchKey_fst, hkey]
  rfl

theorem verifyOne_of_error {e : TagFault} (h : Tags.ofText text = .error e) (s : Dns.Session) :
    (verifyOne scheme ctx r now m text s).1 = .ofTags .permError none none := by
  unfold verifyOne
  rw [h]
  rfl

theorem verifyOne_of_ok {t : Tags} (h : Tags.ofText text = .ok t) (s : Dns.Session) :
    (verifyOne scheme ctx r now m text s).1 =
      .ofTags (verifyTags scheme ctx r now m text t s).1 (t.get? "d") (t.get? "s") := by
  unfold verifyOne
  rw [h]
  rfl

/-! ## Reading a signature -/

theorem bind_ok {ε α β : Type} {x : Except ε α} {f : α → Except ε β} {b : β}
    (h : (x >>= f) = .ok b) : ∃ a, x = .ok a ∧ f a = .ok b := by
  cases x with
  | error e => cases h
  | ok a => exact ⟨a, rfl, h⟩

theorem demand_ok {b : Bool} {u : Unit} (h : demand b = .ok u) : b = true := by
  cases b with
  | true => rfl
  | false => cases h

theorem required_ok {α : Type} {o : Option α} {a : α} (h : required o = .ok a) : o = some a := by
  cases o with
  | none => cases h
  | some b => cases h; rfl

theorem isSignedName_of_mem_signedNames {text : String} :
    ∀ n ∈ signedNames text, IsSignedName n := by
  intro n hn
  obtain ⟨hmem, hne⟩ := List.mem_filter.mp hn
  obtain ⟨cs, -, rfl⟩ := List.mem_map.mp hmem
  constructor
  · intro hnil
    exact absurd (String.toList_inj.mp (hnil.trans (by rfl))) (of_decide_eq_true hne)
  · rw [String.toList_ofList, lowerAscii_lowerAscii]

/-- **A signature that was read** signs `From`, by names in normal form, and has not expired. -/
theorem ofTags_ok {t : Tags} {sig : Signature} (h : Signature.ofTags now t = .ok sig) :
    "from" ∈ sig.names ∧ (∀ n ∈ sig.names, IsSignedName n) ∧
      checkExpiry now (t.get? "x") = .ok () := by
  unfold Signature.ofTags at h
  obtain ⟨domain, -, h⟩ := bind_ok h
  obtain ⟨selector, -, h⟩ := bind_ok h
  obtain ⟨-, -, h⟩ := bind_ok h
  obtain ⟨bodyHash, -, h⟩ := bind_ok h
  obtain ⟨names, -, h⟩ := bind_ok h
  obtain ⟨bytes, -, h⟩ := bind_ok h
  obtain ⟨algorithm, -, h⟩ := bind_ok h
  obtain ⟨_, hfrom, h⟩ := bind_ok h
  obtain ⟨-, -, h⟩ := bind_ok h
  obtain ⟨_, hexpiry, h⟩ := bind_ok h
  obtain ⟨bodyHash', -, h⟩ := bind_ok h
  obtain ⟨bytes', -, h⟩ := bind_ok h
  obtain ⟨-, -, h⟩ := bind_ok h
  obtain ⟨forms, -, h⟩ := bind_ok h
  obtain rfl := Except.ok.inj h
  exact ⟨by simpa using demand_ok hfrom, isSignedName_of_mem_signedNames, hexpiry⟩

/-- What a signature says does not depend on the time at which it is read. -/
theorem ofTags_eq_of_ok {now' : Int} {t : Tags} {sig sig' : Signature}
    (h : Signature.ofTags now t = .ok sig) (h' : Signature.ofTags now' t = .ok sig') :
    sig = sig' := by
  have hexpiry := (ofTags_ok h).2.2.trans (ofTags_ok h').2.2.symm
  unfold Signature.ofTags at h h'
  rw [hexpiry, h'] at h
  exact (Except.ok.inj h).symm

/-! ## Faults -/

/-- A result that says what is wrong with a signature or its key. -/
def Result.IsFault (e : Result) : Prop :=
  e ≠ .pass ∧ e ≠ .none

instance (e : Result) : Decidable e.IsFault :=
  inferInstanceAs (Decidable (e ≠ .pass ∧ e ≠ .none))

theorem isFault_of_bind {α β : Type} {x : Except Result α} {f : α → Except Result β} {e : Result}
    (hx : ∀ e, x = .error e → e.IsFault) (hf : ∀ a e, f a = .error e → e.IsFault)
    (h : (x >>= f) = .error e) : e.IsFault := by
  cases x with
  | error e' => exact hx e (congrArg Except.error (Except.error.inj h))
  | ok a => exact hf a e h

theorem isFault_of_required {α : Type} {o : Option α} {e : Result}
    (h : required o = .error e) : e.IsFault := by
  cases o with
  | none =>
    obtain rfl := Except.error.inj h
    decide
  | some a => cases h

theorem isFault_of_demand {b : Bool} {e : Result} (h : demand b = .error e) : e.IsFault := by
  cases b with
  | true => cases h
  | false =>
    obtain rfl := Except.error.inj h
    decide

theorem isFault_of_checkExpiry {now : Int} {expiry : Option String} {e : Result}
    (h : checkExpiry now expiry = .error e) : e.IsFault := by
  unfold checkExpiry at h
  repeat' split at h
  all_goals cases h
  all_goals decide

/-- **What stops the reading of a signature** is a fault. -/
theorem isFault_of_ofTags {now : Int} {t : Tags} {e : Result}
    (h : Signature.ofTags now t = .error e) : e.IsFault := by
  unfold Signature.ofTags at h
  refine isFault_of_bind (fun _ => isFault_of_required) (fun domain _ h => ?_) h
  refine isFault_of_bind (fun _ => isFault_of_required) (fun selector _ h => ?_) h
  refine isFault_of_bind (fun _ => isFault_of_demand) (fun _ _ h => ?_) h
  refine isFault_of_bind (fun _ => isFault_of_required) (fun bodyHash _ h => ?_) h
  refine isFault_of_bind (fun _ => isFault_of_required) (fun names _ h => ?_) h
  refine isFault_of_bind (fun _ => isFault_of_required) (fun bytes _ h => ?_) h
  refine isFault_of_bind (fun _ => isFault_of_required) (fun algorithm _ h => ?_) h
  refine isFault_of_bind (fun _ => isFault_of_demand) (fun _ _ h => ?_) h
  refine isFault_of_bind (fun _ => isFault_of_demand) (fun _ _ h => ?_) h
  refine isFault_of_bind (fun _ => isFault_of_checkExpiry) (fun _ _ h => ?_) h
  refine isFault_of_bind (fun _ => isFault_of_required) (fun bodyHash' _ h => ?_) h
  refine isFault_of_bind (fun _ => isFault_of_required) (fun bytes' _ h => ?_) h
  refine isFault_of_bind (fun _ => isFault_of_demand) (fun _ _ h => ?_) h
  refine isFault_of_bind (fun _ => isFault_of_required) (fun forms _ h => ?_) h
  cases h

/-- **What stands in the way of a key** is a fault. -/
theorem isFault_of_keyOfAnswer {algorithm : Algorithm}
    {answer : Except Dns.LookupError (List String)} {e : Result}
    (h : keyOfAnswer scheme algorithm answer = .error e) : e.IsFault := by
  cases answer with
  | error failure =>
    cases failure <;> obtain rfl := Except.error.inj h
    all_goals decide
  | ok texts =>
    refine isFault_of_bind (fun _ => isFault_of_required) (fun t _ h => ?_) h
    refine isFault_of_bind (fun _ => isFault_of_demand) (fun _ _ h => ?_) h
    refine isFault_of_bind (fun _ => isFault_of_demand) (fun _ _ h => ?_) h
    refine isFault_of_bind (fun _ => isFault_of_demand) (fun _ _ h => ?_) h
    exact isFault_of_required h

/-- A key that was found is the published form of one. -/
theorem readKey_of_keyOfAnswer {algorithm : Algorithm}
    {answer : Except Dns.LookupError (List String)} {accepts : Acceptance}
    (h : keyOfAnswer scheme algorithm answer = .ok accepts) :
    ∃ published, scheme.readKey algorithm published = some accepts := by
  cases answer with
  | error e => cases e <;> cases h
  | ok texts =>
    obtain ⟨t, -, h⟩ := bind_ok h
    obtain ⟨_, -, h⟩ := bind_ok h
    obtain ⟨_, -, h⟩ := bind_ok h
    obtain ⟨_, -, h⟩ := bind_ok h
    exact ⟨_, required_ok h⟩

/-- **What is found of tags** is a fault, or what the message says under the key. -/
theorem verifyTags_cases (scheme : Scheme) (ctx : Dns.Context) (r : Dns.Resolver) (now : Int)
    (m : Message) (text : String) (t : Tags) (s : Dns.Session) :
    (verifyTags scheme ctx r now m text t s).1.IsFault ∨
      ∃ sig accepts, Signature.ofTags now t = .ok sig ∧ keyOfAnswer scheme sig.algorithm
        (ctx.txt r (keyName sig.selector sig.domain) s).1 = .ok accepts ∧
        (verifyTags scheme ctx r now m text t s).1 = sig.judge scheme accepts m text := by
  cases hsig : Signature.ofTags now t with
  | error e =>
    rw [verifyTags_of_error hsig]
    exact Or.inl (isFault_of_ofTags hsig)
  | ok sig =>
    cases hkey : keyOfAnswer scheme sig.algorithm
        (ctx.txt r (keyName sig.selector sig.domain) s).1 with
    | error e =>
      rw [verifyTags_of_key_error hsig hkey]
      exact Or.inl (isFault_of_keyOfAnswer hkey)
    | ok accepts => exact Or.inr ⟨sig, accepts, rfl, hkey, verifyTags_of_ok hsig hkey⟩

theorem isFault_of_signedBody {length : Option String} {bytes : List UInt8} {e : Result}
    (h : signedBody length bytes = .error e) : e.IsFault := by
  unfold signedBody at h
  repeat' split at h
  all_goals cases h
  all_goals decide

/-- A signature that fits a message: the key accepts the canonical form of the signed fields. -/
theorem judge_pass {sig : Signature} {accepts : Acceptance}
    (h : sig.judge scheme accepts m text = .pass) :
    ∃ stripped, withoutSignature text = .ok stripped ∧
      accepts (headerBytes sig.headerForm m.headers sig.names stripped) sig.bytes = true := by
  unfold Signature.judge at h
  split at h
  · rename_i e he
    exact absurd h (isFault_of_signedBody he).1
  · split at h
    · cases h
    · split at h
      · cases h
      · rename_i stripped hstripped
        refine ⟨stripped, hstripped, ?_⟩
        split at h
        · assumption
        · cases h

/-- The key with which a signature is checked. -/
def usedKey (scheme : Scheme) (ctx : Dns.Context) (r : Dns.Resolver) (now : Int) (text : String)
    (s : Dns.Session) : Option Acceptance := do
  let t ← (Tags.ofText text).toOption
  let sig ← (Signature.ofTags now t).toOption
  (keyOfAnswer scheme sig.algorithm (ctx.txt r (keyName sig.selector sig.domain) s).1).toOption

theorem readKey_of_usedKey {s : Dns.Session} {accepts : Acceptance}
    (h : usedKey scheme ctx r now text s = some accepts) :
    ∃ algorithm published, scheme.readKey algorithm published = some accepts := by
  unfold usedKey at h
  obtain ⟨t, -, h⟩ := Option.bind_eq_some_iff.mp h
  obtain ⟨sig, -, h⟩ := Option.bind_eq_some_iff.mp h
  cases hkey : keyOfAnswer scheme sig.algorithm
      (ctx.txt r (keyName sig.selector sig.domain) s).1 with
  | error e => rw [hkey] at h; cases h
  | ok key =>
    rw [hkey] at h
    obtain rfl : key = accepts := Option.some.inj h
    exact ⟨sig.algorithm, readKey_of_keyOfAnswer hkey⟩

/-- **A valid signature was read, and its key accepts the canonical form of the signed fields.** -/
theorem verifyOne_pass {s : Dns.Session}
    (h : (verifyOne scheme ctx r now m text s).1.result = .pass) :
    ∃ t sig accepts stripped, Tags.ofText text = .ok t ∧ Signature.ofTags now t = .ok sig ∧
      usedKey scheme ctx r now text s = some accepts ∧ withoutSignature text = .ok stripped ∧
      accepts (headerBytes sig.headerForm m.headers sig.names stripped) sig.bytes = true := by
  cases ht : Tags.ofText text with
  | error e =>
    rw [verifyOne_of_error ht] at h
    cases h
  | ok t =>
    rw [verifyOne_of_ok ht] at h
    replace h : (verifyTags scheme ctx r now m text t s).1 = .pass := h
    rcases verifyTags_cases scheme ctx r now m text t s with
      hfault | ⟨sig, accepts, hsig, hkey, hjudge⟩
    · exact absurd h hfault.1
    · obtain ⟨stripped, hstripped, haccepts⟩ := judge_pass (hjudge.symm.trans h)
      refine ⟨t, sig, accepts, stripped, rfl, hsig, ?_, hstripped, haccepts⟩
      simp [usedKey, ht, hsig, hkey, Except.toOption]

/-- The first signature that is valid is the outcome. -/
theorem verifyAll_of_isValid {check : String → StateM Dns.Session Outcome} {s : Dns.Session}
    (h : (check text s).1.isValid = true) (best : Option Outcome) (rest : List String) :
    verifyAll check best (text :: rest) s = check text s := by
  rw [verifyAll, bind_apply, if_pos h]
  rfl

end MailScreen.Dkim
