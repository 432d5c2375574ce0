import MailScreen.Text.Base64
import MailScreen.Text.Blank

/-!
# Reading base64 undoes writing it

Three bytes are four symbols, each a number below 64 (`value?_symbol`), and a last group of one or
two bytes is padded. The reader takes the groups back one by one.

* `decode?_symbols`: reading the code of some bytes gives these bytes.
* `isCodeChar_of_mem_symbols`: a code holds symbols and padding only, so no blank and no separator
  of a tag list.
-/

namespace MailScreen.Text.Base64

/-! ## Symbols -/

theorem value?_symbol : ∀ n < 64, value? (symbol n) = some n := by
  decide

theorem symbol_ne_padding : ∀ n < 64, symbol n ≠ '=' := by
  decide

/-- The characters of a code: symbols and padding. -/
def isCodeChar (c : Char) : Bool :=
  c == '=' || (value? c).isSome

theorem isCodeChar_symbol {n : Nat} (h : n < 64) : isCodeChar (symbol n) = true := by
  rw [isCodeChar, value?_symbol n h]
  simp

theorem isCodeChar_of_mem_symbols (bytes : List UInt8) :
    ∀ c ∈ symbols bytes, isCodeChar c = true := by
  intro x hx
  fun_induction symbols bytes with
  | case1 => simp at hx
  | case2 a n =>
    have ha := a.toNat_lt
    simp only [List.mem_cons, List.not_mem_nil, or_false] at hx
    rcases hx with rfl | rfl | rfl | rfl
    · exact isCodeChar_symbol (by omega)
    · exact isCodeChar_symbol (by omega)
    · rfl
    · rfl
  | case3 a b n =>
    have ha := a.toNat_lt
    have hb := b.toNat_lt
    simp only [List.mem_cons, List.not_mem_nil, or_false] at hx
    rcases hx with rfl | rfl | rfl | rfl
    · exact isCodeChar_symbol (by omega)
    · exact isCodeChar_symbol (by omega)
    · exact isCodeChar_symbol (by omega)
    · rfl
  | case4 a b c rest n ih =>
    have ha := a.toNat_lt
    have hb := b.toNat_lt
    have hc := c.toNat_lt
    simp only [List.mem_cons] at hx
    rcases hx with rfl | rfl | rfl | rfl | hx
    · exact isCodeChar_symbol (by omega)
    · exact isCodeChar_symbol (by omega)
    · exact isCodeChar_symbol (by omega)
    · exact isCodeChar_symbol (by omega)
    · exact ih hx

/-- The range of a character that a code holds. -/
theorem toNat_of_isCodeChar {c : Char} (h : isCodeChar c = true) :
    c = '=' ∨ c = '+' ∨ c = '/' ∨ (48 ≤ c.toNat ∧ c.toNat ≤ 57) ∨ (65 ≤ c.toNat ∧ c.toNat ≤ 90) ∨
      (97 ≤ c.toNat ∧ c.toNat ≤ 122) := by
  simp only [isCodeChar, value?, Bool.or_eq_true, beq_iff_eq] at h
  rcases h with h | h
  · exact Or.inl h
  · grind

theorem isBlank_of_isCodeChar {c : Char} (h : isCodeChar c = true) : isBlank c = false := by
  rcases toNat_of_isCodeChar h with rfl | rfl | rfl | h | h | h
  · rfl
  · rfl
  · rfl
  all_goals
    simp only [isBlank, Bool.or_eq_false_iff, Bool.and_eq_false_iff, decide_eq_false_iff_not,
      beq_eq_false_iff_ne]
    omega

theorem ne_semicolon_of_isCodeChar {c : Char} (h : isCodeChar c = true) : c ≠ ';' := by
  rintro rfl
  revert h
  decide

theorem isSpace_of_isCodeChar {c : Char} (h : isCodeChar c = true) : isSpace c = false := by
  have hb := isBlank_of_isCodeChar h
  cases hs : isSpace c with
  | false => rfl
  | true =>
    simp only [isSpace, Bool.or_eq_true, beq_iff_eq] at hs
    rcases hs with (((rfl | rfl) | rfl) | rfl) | rfl <;> exact absurd hb (by decide)

/-! ## Groups -/

theorem ofNat_eq_of_mod {n : Nat} {a : UInt8} (h : n % 256 = a.toNat) : UInt8.ofNat n = a := by
  apply UInt8.toNat_inj.mp
  simpa using h

/-- A group of three bytes is read back. -/
theorem lastGroup?_three (a b c : UInt8) (n : Nat)
    (hn : n = (a.toNat * 256 + b.toNat) * 256 + c.toNat) :
    lastGroup? (symbol (n / 262144)) (symbol (n / 4096 % 64)) (symbol (n / 64 % 64))
      (symbol (n % 64)) = some [a, b, c] := by
  have ha := a.toNat_lt
  have hb := b.toNat_lt
  have hc := c.toNat_lt
  have e1 : UInt8.ofNat (4 * (n / 262144) + n / 4096 % 64 / 16) = a :=
    ofNat_eq_of_mod (by omega)
  have e2 : UInt8.ofNat (16 * (n / 4096 % 64 % 16) + n / 64 % 64 / 4) = b :=
    ofNat_eq_of_mod (by omega)
  have e3 : UInt8.ofNat (64 * (n / 64 % 64 % 4) + n % 64) = c :=
    ofNat_eq_of_mod (by omega)
  unfold lastGroup?
  rw [value?_symbol (n / 262144) (by omega), value?_symbol (n / 4096 % 64) (by omega),
    value?_symbol (n / 64 % 64) (by omega), value?_symbol (n % 64) (by omega)]
  simp only [Option.bind_eq_bind, Option.bind_some,
    if_neg (symbol_ne_padding (n / 64 % 64) (by omega)),
    if_neg (symbol_ne_padding (n % 64) (by omega)), e1, e2, e3]

/-- A last group of two bytes is read back. -/
theorem lastGroup?_two (a b : UInt8) (n : Nat) (hn : n = (a.toNat * 256 + b.toNat) * 4) :
    lastGroup? (symbol (n / 4096)) (symbol (n / 64 % 64)) (symbol (n % 64)) '=' =
      some [a, b] := by
  have ha := a.toNat_lt
  have hb := b.toNat_lt
  have e1 : UInt8.ofNat (4 * (n / 4096) + n / 64 % 64 / 16) = a := ofNat_eq_of_mod (by omega)
  have e2 : UInt8.ofNat (16 * (n / 64 % 64 % 16) + n % 64 / 4) = b := ofNat_eq_of_mod (by omega)
  have e3 : n % 64 % 4 = 0 := by omega
  unfold lastGroup?
  rw [value?_symbol (n / 4096) (by omega), value?_symbol (n / 64 % 64) (by omega),
    value?_symbol (n % 64) (by omega)]
  simp only [Option.bind_eq_bind, Option.bind_some, if_neg (symbol_ne_padding (n % 64) (by omega)),
    e1, e2, e3, if_true]

/-- A last group of one byte is read back. -/
theorem lastGroup?_one (a : UInt8) (n : Nat) (hn : n = a.toNat * 16) :
    lastGroup? (symbol (n / 64)) (symbol (n % 64)) '=' '=' = some [a] := by
  have ha := a.toNat_lt
  have e1 : UInt8.ofNat (4 * (n / 64) + n % 64 / 16) = a := ofNat_eq_of_mod (by omega)
  have e2 : n % 64 % 16 = 0 := by omega
  unfold lastGroup?
  rw [value?_symbol (n / 64) (by omega), value?_symbol (n % 64) (by omega)]
  simp only [Option.bind_eq_bind, Option.bind_some, e1, e2, and_self, if_true]

/-- A full group is read like a last one. -/
theorem group?_eq_lastGroup? {a b c d : Char} (hc : c ≠ '=') (hd : d ≠ '=') :
    group? a b c d = lastGroup? a b c d := by
  unfold group?
  rw [if_neg (by simp [hc, hd])]

/-- A full group in front is read before the rest. -/
theorem decodeGroups?_group {a b c d : Char} {bytes : List UInt8} (hc : c ≠ '=') (hd : d ≠ '=')
    (h : lastGroup? a b c d = some bytes) (rest : List Char) :
    decodeGroups? (a :: b :: c :: d :: rest) = (decodeGroups? rest).map (bytes ++ ·) := by
  cases rest with
  | nil => simp [decodeGroups?, h]
  | cons x xs =>
    rw [decodeGroups?, group?_eq_lastGroup? hc hd, h]
    · cases decodeGroups? (x :: xs) <;> rfl
    · simp

/-! ## The round trip -/

theorem decodeGroups?_symbols (bytes : List UInt8) :
    decodeGroups? (symbols bytes) = some bytes := by
  fun_induction symbols bytes with
  | case1 => rfl
  | case2 a n => exact lastGroup?_one a n rfl
  | case3 a b n => exact lastGroup?_two a b n rfl
  | case4 a b c rest n ih =>
    rw [decodeGroups?_group (symbol_ne_padding _ (by omega)) (symbol_ne_padding _ (by omega))
      (lastGroup?_three a b c n rfl), ih]
    rfl

/-- **Reading undoes writing.** -/
theorem decode?_symbols (bytes : List UInt8) : decode? (symbols bytes) = some bytes := by
  have hall : (symbols bytes).filter (! isSpace ·) = symbols bytes := by
    rw [List.filter_eq_self]
    intro c hc
    rw [isSpace_of_isCodeChar (isCodeChar_of_mem_symbols bytes c hc)]
    rfl
  rw [decode?, hall, decodeGroups?_symbols]

theorem decode?_encode (bytes : List UInt8) : decode? (encode bytes).toList = some bytes := by
  rw [encode, String.toList_ofList, decode?_symbols]

theorem symbols_eq_nil_iff (bytes : List UInt8) : symbols bytes = [] ↔ bytes = [] := by
  fun_cases symbols bytes <;> simp

end MailScreen.Text.Base64
