import MailScreen.Proofs.Text.Ascii
import MailScreen.Protocol.Reply

/-!
# A reply is one line

Whatever texts a reply carries, the line that is written for it holds no control character: inside a
string these are escaped, and nothing else in a reply could be one.

* `Json.IsClean` is what holds of such a text. `Value.IsClean` is what has to hold of a value: the
  literals of its numbers are clean.
* `isClean_writeChars` is the law of the writer, by recursion on the value.
* `Reply.isClean_toLine` is the result for replies.
-/

namespace MailScreen

namespace Json

/-- The text holds no control character, and so no line feed. -/
def IsClean (cs : List Char) : Prop :=
  ∀ c ∈ cs, 0x20 ≤ c.toNat

instance (cs : List Char) : Decidable (IsClean cs) :=
  List.decidableBAll (fun c : Char => 0x20 ≤ c.toNat) cs

variable {cs ds : List Char}

theorem isClean_cons {c : Char} : IsClean (c :: cs) ↔ 0x20 ≤ c.toNat ∧ IsClean cs :=
  List.forall_mem_cons

theorem isClean_append : IsClean (cs ++ ds) ↔ IsClean cs ∧ IsClean ds :=
  List.forall_mem_append

theorem IsClean.newline_not_mem (h : IsClean cs) : '\n' ∉ cs := by
  intro hmem
  have hle : 0x20 ≤ '\n'.toNat := h '\n' hmem
  exact absurd hle (by decide)

/-! ## Strings -/

theorem le_toNat_digit {n : Nat} (h : n < 16) : 0x20 ≤ (Text.Hex.digit n).toNat := by
  have hall : ∀ k : Fin 16, 0x20 ≤ (Text.Hex.digit k.val).toNat := by decide
  exact hall ⟨n, h⟩

theorem isClean_escapeChar (c : Char) : IsClean (escapeChar c) := by
  by_cases hcontrol : c.toNat < 0x20
  · have hhigh : 0x20 ≤ (Text.Hex.digit (c.toNat / 16)).toNat := le_toNat_digit (by omega)
    have hlow : 0x20 ≤ (Text.Hex.digit (c.toNat % 16)).toNat := le_toNat_digit (by omega)
    have hunicode : IsClean ['\\', 'u', '0', '0', Text.Hex.digit (c.toNat / 16),
        Text.Hex.digit (c.toNat % 16)] := by
      simp only [isClean_cons, hhigh, hlow]
      decide
    unfold escapeChar
    rw [if_pos hcontrol]
    (repeat' split) <;> first | exact hunicode | decide
  · have hself : IsClean [c] := isClean_cons.mpr ⟨Nat.le_of_not_lt hcontrol, by decide⟩
    unfold escapeChar
    rw [if_neg hcontrol]
    (repeat' split) <;> first | exact hself | decide

theorem isClean_writeString (s : String) : IsClean (writeString s) := by
  refine isClean_append.mpr ⟨isClean_cons.mpr ⟨by decide, fun c hc => ?_⟩, by decide⟩
  obtain ⟨d, -, hd⟩ := List.mem_flatMap.mp hc
  exact isClean_escapeChar d c hd

/-! ## Values -/

/-- A value whose numbers are written without control characters. -/
inductive Value.IsClean : Value → Prop where
  | null : IsClean .null
  | bool (b : Bool) : IsClean (.bool b)
  | number {literal : String} : Json.IsClean literal.toList → IsClean (.number literal)
  | text (s : String) : IsClean (.text s)
  | brokenText : IsClean .brokenText
  | array {items : List Value} : (∀ v ∈ items, v.IsClean) → IsClean (.array items)
  | object {members : List (Option String × Value)} :
    (∀ m ∈ members, m.2.IsClean) → IsClean (.object members)

theorem isClean_writeItems {items : List Value} (h : ∀ v ∈ items, IsClean (writeChars v)) :
    IsClean (writeItems items) := by
  induction items with
  | nil => simp [writeItems, IsClean]
  | cons v vs ih =>
    obtain ⟨hv, hvs⟩ := List.forall_mem_cons.mp h
    cases vs with
    | nil => exact hv
    | cons w ws => exact isClean_append.mpr ⟨hv, isClean_cons.mpr ⟨by decide, ih hvs⟩⟩

theorem isClean_writeMembers {members : List (Option String × Value)}
    (h : ∀ m ∈ members, IsClean (writeChars m.2)) : IsClean (writeMembers members) := by
  induction members with
  | nil => simp [writeMembers, IsClean]
  | cons m ms ih =>
    obtain ⟨hm, hms⟩ := List.forall_mem_cons.mp h
    have hfirst : IsClean (writeString (m.1.getD "") ++ ':' :: writeChars m.2) :=
      isClean_append.mpr ⟨isClean_writeString _, isClean_cons.mpr ⟨by decide, hm⟩⟩
    cases ms with
    | nil => exact hfirst
    | cons w ws =>
      have hrest : IsClean (',' :: writeMembers (w :: ws)) :=
        isClean_cons.mpr ⟨by decide, ih hms⟩
      exact isClean_append.mpr ⟨hfirst, hrest⟩

/-- **What is written holds no control character.** -/
theorem isClean_writeChars {v : Value} (h : v.IsClean) : IsClean (writeChars v) := by
  induction h with
  | null => rw [writeChars]; decide
  | bool b => cases b <;> (rw [writeChars]; decide)
  | number h => rwa [writeChars]
  | text s =>
    rw [writeChars]
    exact isClean_writeString s
  | brokenText =>
    rw [writeChars]
    exact isClean_writeString ""
  | array _ ih =>
    rw [writeChars]
    exact isClean_append.mpr ⟨isClean_cons.mpr ⟨by decide, isClean_writeItems ih⟩, by decide⟩
  | object _ ih =>
    rw [writeChars]
    exact isClean_append.mpr ⟨isClean_cons.mpr ⟨by decide, isClean_writeMembers ih⟩, by decide⟩

theorem Value.isClean_ofOption (text : Option String) : (ofOption text).IsClean := by
  cases text with
  | none => exact .null
  | some s => exact .text s

theorem Value.isClean_strings (texts : List String) : (strings texts).IsClean := by
  refine .array fun v hv => ?_
  obtain ⟨s, -, rfl⟩ := List.mem_map.mp hv
  exact .text s

theorem Value.isClean_ofMembers {members : List (String × Value)}
    (h : ∀ m ∈ members, m.2.IsClean) : (ofMembers members).IsClean := by
  refine .object fun m hm => ?_
  obtain ⟨member, hmember, rfl⟩ := List.mem_map.mp hm
  exact h member hmember

/-- The literal of a count is clean. -/
theorem isClean_toString (n : Nat) : IsClean (toString n).toList := by
  intro c hc
  rcases Text.isDigit_of_mem_toString (Int.ofNat n) c hc with rfl | hdigit
  · decide
  · have hle : 48 ≤ c.toNat := (Char.isDigit_iff_toNat.mp hdigit).1
    omega

end Json

/-! ## Replies -/

theorem AuthSummary.isClean_toJson (a : AuthSummary) : a.toJson.IsClean := by
  refine Json.Value.isClean_ofMembers ?_
  simp only [List.forall_mem_cons]
  exact ⟨.text _, Json.Value.isClean_ofOption _, .text _, Json.Value.isClean_ofOption _, .text _,
    Json.Value.isClean_ofOption _, List.forall_mem_nil _⟩

theorem Verdict.isClean_toJson (v : Verdict) : v.toJson.IsClean := by
  refine Json.Value.isClean_ofMembers ?_
  simp only [List.forall_mem_cons]
  exact ⟨.text _, .text _, .number (Json.isClean_toString _), Json.Value.isClean_strings _,
    v.auth.isClean_toJson, List.forall_mem_nil _⟩

namespace Protocol.Reply

theorem isClean_toJson (r : Reply) : r.toJson.IsClean := by
  cases r with
  | verdict v => exact v.isClean_toJson
  | error e =>
    refine Json.Value.isClean_ofMembers ?_
    simp only [List.forall_mem_cons]
    exact ⟨.text _, .text _, List.forall_mem_nil _⟩

/-- **A reply is one line**, whatever texts it carries. -/
theorem isClean_toLine (r : Reply) : Json.IsClean r.toLine.toList := by
  have hline : r.toLine.toList = Json.writeChars r.toJson := String.toList_ofList
  rw [hline]
  exact Json.isClean_writeChars r.isClean_toJson

end Protocol.Reply

end MailScreen
