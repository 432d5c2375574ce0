import MailScreen.Proofs.Text.Split
import MailScreen.Verdict

/-!
# What a later program reads in the field

The value of `Authentication-Results` is the host and one part for each method, with semicolons
between them. Domains stand in it as they are; what follows here is what they must not hold for a
later program to find the parts again, and the word of each method in its part.

* `StaysInPart` is asked of the host and of the domains: no semicolon and no line break.
* `readPart` is how a later program reads a part.
* `AuthSummary.IsToldBy` says that a value is one line of four parts, which read as the summary has
  it; `isToldBy_authenticationResults` that the value of a verdict is, if its texts stay in their
  parts.
-/

namespace MailScreen

open MailScreen.Text

/-- Neither the end of a part nor of a line is in the text. -/
def StaysInPart (s : String) : Prop :=
  ∀ c ∈ s.toList, c ≠ ';' ∧ c ≠ '\r' ∧ c ≠ '\n'

instance : DecidablePred StaysInPart :=
  fun s => List.decidableBAll (fun c => c ≠ ';' ∧ c ≠ '\r' ∧ c ≠ '\n') s.toList

/-- One word, such as the names of methods and results are. -/
def IsWord (s : String) : Prop :=
  s ≠ "" ∧ ∀ c ∈ s.toList, isBlank c = false ∧ c ≠ ';' ∧ c ≠ '='

instance : DecidablePred IsWord :=
  fun s =>
    have := List.decidableBAll (fun c => isBlank c = false ∧ c ≠ ';' ∧ c ≠ '=') s.toList
    inferInstanceAs (Decidable (s ≠ "" ∧ _))

theorem IsWord.staysInPart {s : String} (h : IsWord s) : StaysInPart s := by
  intro c hc
  obtain ⟨hblank, hsemicolon, -⟩ := h.2 c hc
  exact ⟨hsemicolon, ne_of_isBlank hblank (by decide), ne_of_isBlank hblank (by decide)⟩

/-- Reads a part: the method before the first equals sign, and its word, which ends at a blank. -/
def readPart (part : List Char) : Option (List Char × List Char) :=
  (cutFirst (· == '=') (part.dropWhile isBlank)).map fun (method, rest) =>
    (method, rest.takeWhile fun c => !isBlank c)

/-- The value is one line; the parts between its semicolons are the host and one part for each
method, which reads as the summary has it. -/
structure AuthSummary.IsToldBy (a : AuthSummary) (host value : String) : Prop where
  oneLine : ∀ c ∈ value.toList, c ≠ '\r' ∧ c ≠ '\n'
  parts : ∃ spf dkim dmarc, pieces (· == ';') value.toList = [host.toList, spf, dkim, dmarc] ∧
    readPart spf = some ("spf".toList, a.spf.toList) ∧
    readPart dkim = some ("dkim".toList, a.dkim.toList) ∧
    readPart dmarc = some ("dmarc".toList, a.dmarc.toList)

theorem AuthSummary.IsToldBy.length_pieces {a : AuthSummary} {host value : String}
    (h : a.IsToldBy host value) : (pieces (· == ';') value.toList).length = 4 := by
  obtain ⟨spf, dkim, dmarc, hpieces, -⟩ := h.parts
  rw [hpieces]
  rfl

theorem AuthSummary.IsToldBy.noLineFeed {a : AuthSummary} {host value : String}
    (h : a.IsToldBy host value) : '\n' ∉ value.toList :=
  fun hc => (h.oneLine '\n' hc).2 rfl

/-- The results are words, and the domains stay in their parts. -/
structure AuthSummary.IsTidy (a : AuthSummary) : Prop where
  spf : IsWord a.spf
  spfDomain : ∀ d ∈ a.spfDomain, StaysInPart d
  dkim : IsWord a.dkim
  dkimDomain : ∀ d ∈ a.dkimDomain, StaysInPart d
  dmarc : IsWord a.dmarc
  fromDomain : ∀ d ∈ a.fromDomain, StaysInPart d

namespace Verdict

/-! ## One part -/

variable {method word property : String} {domain : Option String}

/-- What follows the word in a part. -/
def propertyChars (property : String) : Option String → List Char
  | none => []
  | some d => ' ' :: property.toList ++ '=' :: d.toList

theorem toList_methodPart : (methodPart method word property domain).toList =
    method.toList ++ '=' :: (word.toList ++ propertyChars property domain) := by
  cases domain <;> simp [methodPart, propertyChars]

theorem staysInPart_methodPart (hmethod : IsWord method) (hword : IsWord word)
    (hproperty : IsWord property) (hdomain : ∀ d ∈ domain, StaysInPart d) :
    StaysInPart (methodPart method word property domain) := by
  intro c hc
  rw [toList_methodPart, List.mem_append, List.mem_cons, List.mem_append] at hc
  rcases hc with hc | rfl | hc | hc
  · exact hmethod.staysInPart c hc
  · decide
  · exact hword.staysInPart c hc
  · cases domain with
    | none => cases hc
    | some d =>
      rw [propertyChars, List.cons_append, List.mem_cons, List.mem_append, List.mem_cons] at hc
      rcases hc with rfl | hc | rfl | hc
      · decide
      · exact hproperty.staysInPart c hc
      · decide
      · exact hdomain d rfl c hc

/-- The word of a part ends where its property begins. -/
theorem takeWhile_propertyChars :
    (propertyChars property domain).takeWhile (fun c => !isBlank c) = [] := by
  cases domain with
  | none => rfl
  | some d => exact List.takeWhile_cons_of_neg (by decide)

/-- **A part reads as it was written**, whatever its domain. -/
theorem readPart_methodPart (hmethod : IsWord method) (hword : IsWord word) :
    readPart (' ' :: (methodPart method word property domain).toList) =
      some (method.toList, word.toList) := by
  obtain ⟨c, cs, hcs⟩ := List.exists_cons_of_ne_nil (mt String.toList_eq_nil_iff.mp hmethod.1)
  have hfirst : isBlank c = false := (hmethod.2 c (hcs ▸ List.mem_cons_self)).1
  have hstart : (' ' :: (methodPart method word property domain).toList).dropWhile isBlank =
      (methodPart method word property domain).toList := by
    rw [List.dropWhile_cons_of_pos (by decide), toList_methodPart, hcs, List.cons_append,
      List.dropWhile_cons_of_neg (by simp [hfirst])]
  have hword' : (word.toList ++ propertyChars property domain).takeWhile (fun c => !isBlank c) =
      word.toList := by
    rw [List.takeWhile_append_of_pos fun c hc => by simp [(hword.2 c hc).1],
      takeWhile_propertyChars, List.append_nil]
  rw [readPart, hstart, toList_methodPart,
    cutFirst_append_cons (by decide) fun c hc => beq_false_of_ne (hmethod.2 c hc).2.2]
  exact congrArg (fun w => some (method.toList, w)) hword'

/-! ## The value -/

/-- What stands between the semicolons. -/
def fieldParts (v : Verdict) (host : String) : List (List Char) :=
  [host.toList,
    ' ' :: (methodPart "spf" v.auth.spf "smtp.mailfrom" v.auth.spfDomain).toList,
    ' ' :: (methodPart "dkim" v.auth.dkim "header.d" v.auth.dkimDomain).toList,
    ' ' :: (methodPart "dmarc" v.auth.dmarc "header.from" v.auth.fromDomain).toList]

theorem toList_authenticationResults (v : Verdict) (host : String) :
    (v.authenticationResults host).toList = [';'].intercalate (v.fieldParts host) := by
  rw [authenticationResults, String.toList_intercalate]
  simp [fieldParts, List.intercalate]

/-- No part holds the end of a part or of a line. -/
theorem plain_of_mem_fieldParts {v : Verdict} {host : String} (hhost : StaysInPart host)
    (h : v.auth.IsTidy) :
    ∀ part ∈ v.fieldParts host, ∀ c ∈ part, c ≠ ';' ∧ c ≠ '\r' ∧ c ≠ '\n' := by
  have hspace {text : String} (htext : StaysInPart text) :
      ∀ c ∈ ' ' :: text.toList, c ≠ ';' ∧ c ≠ '\r' ∧ c ≠ '\n' :=
    List.forall_mem_cons.mpr ⟨by decide, htext⟩
  intro part hpart
  simp only [fieldParts, List.mem_cons, List.not_mem_nil, or_false] at hpart
  rcases hpart with rfl | rfl | rfl | rfl
  · exact hhost
  · exact hspace (staysInPart_methodPart (by decide) h.spf (by decide) h.spfDomain)
  · exact hspace (staysInPart_methodPart (by decide) h.dkim (by decide) h.dkimDomain)
  · exact hspace (staysInPart_methodPart (by decide) h.dmarc (by decide) h.fromDomain)

/-- **The value of a tidy summary** is told as it is. -/
theorem isToldBy_authenticationResults {v : Verdict} {host : String} (hhost : StaysInPart host)
    (h : v.auth.IsTidy) : v.auth.IsToldBy host (v.authenticationResults host) := by
  have hplain := plain_of_mem_fieldParts hhost h
  constructor
  · intro c hc
    rw [toList_authenticationResults] at hc
    rcases mem_of_mem_intercalate hc with hc | ⟨part, hpart, hc⟩
    · obtain rfl := List.mem_singleton.mp hc
      decide
    · exact (hplain part hpart c hc).2
  · have hpieces : pieces (· == ';') (v.authenticationResults host).toList = v.fieldParts host := by
      rw [toList_authenticationResults]
      exact pieces_intercalate (by decide) (List.cons_ne_nil _ _)
        fun part hpart c hc => beq_false_of_ne (hplain part hpart c hc).1
    exact ⟨_, _, _, hpieces, readPart_methodPart (by decide) h.spf,
      readPart_methodPart (by decide) h.dkim, readPart_methodPart (by decide) h.dmarc⟩

end Verdict

end MailScreen
