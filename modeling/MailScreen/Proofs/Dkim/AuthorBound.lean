import MailScreen.Dns.Zone
import MailScreen.Proofs.Dkim.Verify
import MailScreen.Proofs.Text.Utf8

/-!
# A valid signature fixes the author

A signature may be taken from one message and put into another. If it is valid there too, the two
messages have the same author, whatever else differs: the order of the fields, their number, how
they are folded, and the body beyond the part that is signed.

* `Scheme.Binding` is what is asked of the scheme: a signature is good for one text only.
* `author_eq_of_pass`: two messages for which one signature is valid have one author.
-/

namespace MailScreen.Dkim

open MailScreen.Text MailScreen.Mail

/-- No key accepts a signature for two texts. -/
def Scheme.Binding (scheme : Scheme) : Prop :=
  ∀ algorithm published accepts, scheme.readKey algorithm published = some accepts →
    ∀ data data' bytes, accepts data bytes = true → accepts data' bytes = true → data = data'

/-- The scheme in which every key accepts one signature, and that for one text. -/
def Scheme.single (text : List UInt8) : Scheme where
  hash _ := []
  readKey _ _ := some fun data signature => signature == [0] && data == text

theorem Scheme.binding_single (text : List UInt8) : (Scheme.single text).Binding := by
  intro algorithm published accepts hreads data data' bytes h h'
  obtain rfl := Option.some.inj hreads
  have hdata : data = text := eq_of_beq (Bool.and_eq_true_iff.mp h).2
  have hdata' : data' = text := eq_of_beq (Bool.and_eq_true_iff.mp h').2
  exact hdata.trans hdata'.symm

/-- The canonical text of a message shows its author: messages with the same signed text have the
same author. -/
theorem author?_eq_of_headerBytes_eq {m₁ m₂ : Message} {form : Form} {names : List String}
    {signature : String} (hnames : ∀ n ∈ names, IsSignedName n) (hfrom : "from" ∈ names)
    (hm₁ : ∀ f ∈ m₁.headers.fields, f.WellRead) (hm₂ : ∀ f ∈ m₂.headers.fields, f.WellRead)
    (h : headerBytes form m₁.headers names signature =
      headerBytes form m₂.headers names signature) :
    m₁.author? = m₂.author? := by
  rw [author?_eq_textAuthor? form hnames hfrom hm₁, author?_eq_textAuthor? form hnames hfrom hm₂,
    signedTexts_eq_of_headerBytes_eq form hnames hm₁ hm₂ h]

/-- **A valid signature fixes the author.** Two messages for which one signature is valid under one
key have the same author. -/
theorem author_eq_of_pass {scheme : Scheme} (hscheme : scheme.Binding)
    {ctx₁ ctx₂ : Dns.Context} {r₁ r₂ : Dns.Resolver} {now₁ now₂ : Int} {s₁ s₂ : Dns.Session}
    {raw₁ raw₂ : List UInt8} {text : String}
    (h₁ : (verifyOne scheme ctx₁ r₁ now₁ (Message.ofBytes raw₁) text s₁).1.result = .pass)
    (h₂ : (verifyOne scheme ctx₂ r₂ now₂ (Message.ofBytes raw₂) text s₂).1.result = .pass)
    (hkey : usedKey scheme ctx₁ r₁ now₁ text s₁ = usedKey scheme ctx₂ r₂ now₂ text s₂) :
    (Message.ofBytes raw₁).author? = (Message.ofBytes raw₂).author? := by
  obtain ⟨t, sig, accepts, stripped, ht, hsig, hused, hstripped, haccepts⟩ := verifyOne_pass h₁
  obtain ⟨t', sig', accepts', stripped', ht', hsig', hused', hstripped', haccepts'⟩ :=
    verifyOne_pass h₂
  -- the two checks read the same signature
  obtain rfl : t = t' := Except.ok.inj (ht.symm.trans ht')
  obtain rfl : sig = sig' := ofTags_eq_of_ok hsig hsig'
  obtain rfl : stripped = stripped' := Except.ok.inj (hstripped.symm.trans hstripped')
  obtain rfl : accepts = accepts' := by
    rw [hused, hused'] at hkey
    exact Option.some.inj hkey
  obtain ⟨algorithm, published, hpublished⟩ := readKey_of_usedKey hused
  have hdata := hscheme algorithm published accepts hpublished _ _ sig.bytes haccepts haccepts'
  exact author?_eq_of_headerBytes_eq (ofTags_ok hsig).2.1 (ofTags_ok hsig).1
    (Message.ofBytes_wellRead raw₁) (Message.ofBytes_wellRead raw₂) hdata

theorem author_eq_of_pass_single :
    let raw₁ := Utf8.encode "From: <a@b.c>\r\n\r\n".toList
    let raw₂ := Utf8.encode "X: 1\r\nFROM:  \r\n\t<a@b.c> \r\n\r\nHi".toList
    let text := "v=1; a=ed25519-sha256; c=relaxed; d=b.c; s=s; h=from; bh=; b=AA=="
    let scheme := Scheme.single (Utf8.encode ("from:<a@b.c>\r\n" ++
      "dkim-signature:v=1; a=ed25519-sha256; c=relaxed; d=b.c; s=s; h=from; bh=; b=").toList)
    let r := (Dns.Zone.empty.addText "s._domainkey.b.c" "k=ed25519; p=AQ==").resolver
    (verifyOne scheme ⟨10, none⟩ r 8 (Message.ofBytes raw₁) text ⟨0, []⟩).1.result = .pass ∧
    (verifyOne scheme ⟨10, none⟩ r 8 (Message.ofBytes raw₂) text ⟨0, []⟩).1.result = .pass ∧
    (Message.ofBytes raw₁).author? = (Message.ofBytes raw₂).author? := by
  intro raw₁ raw₂ text scheme r
  have h₁ : (verifyOne scheme ⟨10, none⟩ r 8 (Message.ofBytes raw₁) text
      ⟨0, []⟩).1.result = .pass := by
    decide +kernel
  have h₂ : (verifyOne scheme ⟨10, none⟩ r 8 (Message.ofBytes raw₂) text
      ⟨0, []⟩).1.result = .pass := by
    decide +kernel
  exact ⟨h₁, h₂, author_eq_of_pass (Scheme.binding_single _) h₁ h₂ rfl⟩

end MailScreen.Dkim
