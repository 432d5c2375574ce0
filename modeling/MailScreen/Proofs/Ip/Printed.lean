import MailScreen.Ip.Network
import MailScreen.Proofs.Text.Numbers
import MailScreen.Proofs.Text.Split
import Mathlib.Algebra.Group.Nat.Defs

/-!
# Printed addresses and networks are read back

The printed form of an address leaves out its longest run of zero groups, so it has to be shown
where they were, and that what is printed beside the gap cannot be taken for another one.

* `cutGap_intercalate_append`: groups hold no gap, nor does the colon between two of them make one.
* `eq_append_zeros_append`: what stands beside the gap, with zeros in between, is all groups.
* `readV4?_dotted`, `readV6?_colonText`: both families are read back, a mapped address through the
  dotted form at its end. `read?_toChars` is the statement for all addresses, under either rule.
* `Network.ofChars?_toChars`, `toText_injective`: so is a network, whatever its length, and so
  different networks are printed differently.
-/

namespace MailScreen.Ip

open MailScreen.Text
open Address (octets groups dotted colons zerosAt longestZeros colonText mapped?)

/-! ## Numbers with dots -/

theorem octet?_toDigits (rule : Rule) {n : Nat} (h : n < 256) :
    octet? rule (Nat.toDigits 10 n) = some n := by
  have hempty : (Nat.toDigits 10 n).isEmpty = false :=
    List.isEmpty_eq_false_iff.mpr Nat.toDigits_ne_nil
  have hlength : (Nat.toDigits 10 n).length ≤ 3 :=
    (Nat.length_toDigits_le_iff (by decide) (by decide)).mpr (by omega)
  have hlead : 1 < (Nat.toDigits 10 n).length → (Nat.toDigits 10 n).head? ≠ some '0' := by
    intro hlong
    refine head?_toDigits_ne_zero (by decide) ?_
    rintro rfl
    simp at hlong
  rw [octet?, if_neg (by simpa [hempty] using hlength), if_neg (by simp; tauto),
    digitsValue?_toDigits, Option.filter_some, if_pos (by simpa using h)]

/-- What stands between the separators of a printed address: something, and no separator. -/
theorem digits_of_mem {separator : Char} (hsep : separator ∉ hexDigits) {b : Nat} (hb : 1 < b)
    (hb' : b ≤ 16) (ns : List Nat) :
    ∀ part ∈ ns.map (Nat.toDigits b), part ≠ [] ∧ separator ∉ part := by
  intro part hpart
  obtain ⟨n, -, rfl⟩ := List.mem_map.mp hpart
  exact ⟨Nat.toDigits_ne_nil, fun h => hsep (mem_hexDigits_of_mem_toDigits hb hb' h)⟩

theorem no_dot_of_mem_octets (bits : BitVec 32) :
    ∀ part ∈ (octets bits).map (Nat.toDigits 10), ∀ c ∈ part, (c == '.') = false :=
  fun part hpart => beq_false_of_not_mem
    (digits_of_mem (by decide) (by decide) (by decide) _ part hpart).2

/-- **An IPv4 address is read back.** -/
theorem readV4?_dotted (rule : Rule) (bits : BitVec 32) :
    readV4? rule (dotted bits) = some bits := by
  have hpieces : pieces (· == '.') (dotted bits) = (octets bits).map (Nat.toDigits 10) :=
    pieces_intercalate rfl (by simp [octets]) (no_dot_of_mem_octets bits)
  have hread (i : Nat) : octet? rule (Nat.toDigits 10 ((bits >>> i).toNat % 256)) =
      some ((bits >>> i).toNat % 256) :=
    octet?_toDigits rule (Nat.mod_lt _ (by decide))
  unfold readV4?
  rw [hpieces, octets]
  simp only [List.map_cons, List.map_nil, hread]
  refine congrArg some (BitVec.eq_of_toNat_eq ?_)
  have hbits := bits.isLt
  simp only [BitVec.toNat_ofNat, BitVec.toNat_ushiftRight, Nat.shiftRight_eq_div_pow]
  omega

/-- What is read as one of the four numbers holds digits only. -/
theorem isDigit_of_octet? {rule : Rule} {cs : List Char} {n : Nat} (h : octet? rule cs = some n) :
    ∀ c ∈ cs, c.isDigit = true := by
  unfold octet? at h
  split_ifs at h
  obtain ⟨hvalue, -⟩ := Option.filter_eq_some_iff.mp h
  intro c hc
  have hdigit := isSome_of_foldlM hvalue c hc
  by_contra hnot
  rw [digit?, if_neg hnot] at hdigit
  exact Bool.false_ne_true hdigit

/-- An IPv4 address holds no colon. -/
theorem readV4?_eq_none (rule : Rule) {cs : List Char} (h : ':' ∈ cs) :
    readV4? rule cs = none := by
  by_contra hsome
  obtain ⟨bits, hbits⟩ := Option.ne_none_iff_exists'.mp hsome
  unfold readV4? at hbits
  split at hbits
  · rename_i a b c d hpieces
    simp only [Option.bind_eq_bind, Option.bind_eq_some_iff] at hbits
    obtain ⟨_, ha, _, hb, _, hc, _, hd, -⟩ := hbits
    have hdigits : ∀ part ∈ [a, b, c, d], ∀ c ∈ part, c.isDigit = true := by
      simpa using ⟨isDigit_of_octet? ha, isDigit_of_octet? hb, isDigit_of_octet? hc,
        isDigit_of_octet? hd⟩
    rw [← intercalate_pieces_self '.' cs, hpieces] at h
    rcases mem_of_mem_intercalate h with hdot | ⟨part, hpart, hcolon⟩
    · exact absurd hdot (by decide)
    · exact absurd (hdigits part hpart ':' hcolon) (by decide)
  · cases hbits

/-! ## Groups -/

theorem group?_toDigits {n : Nat} (h : n < 65536) : group? (Nat.toDigits 16 n) = some n := by
  have hempty : (Nat.toDigits 16 n).isEmpty = false :=
    List.isEmpty_eq_false_iff.mpr Nat.toDigits_ne_nil
  have hlength : (Nat.toDigits 16 n).length ≤ 4 :=
    (Nat.length_toDigits_le_iff (by decide) (by decide)).mpr h
  rw [group?, if_neg (by simpa [hempty] using hlength), Hex.foldlM_toDigits]

theorem readV4?_toDigits (rule : Rule) (n : Nat) : readV4? rule (Nat.toDigits 16 n) = none := by
  have hdot : ∀ c ∈ Nat.toDigits 16 n, (c == '.') = false := beq_false_of_not_mem fun h =>
    absurd (mem_hexDigits_of_mem_toDigits (by decide) (by decide) h) (by decide)
  rw [readV4?, pieces_eq_singleton hdot]

/-- **Groups are read back**, also where an IPv4 address could stand. -/
theorem groupList?_toDigits (rule : Rule) (allowed : Bool) :
    ∀ {gs : List Nat}, (∀ g ∈ gs, g < 65536) →
      groupList? rule allowed (gs.map (Nat.toDigits 16)) = some gs
  | [], _ => rfl
  | [g], h => by
    have hg := group?_toDigits (h g List.mem_cons_self)
    simp [groupList?, readV4?_toDigits, hg]
  | g :: next :: gs, h => by
    have hg := group?_toDigits (h g List.mem_cons_self)
    have ih := groupList?_toDigits rule allowed fun m hm => h m (List.mem_cons_of_mem g hm)
    rw [List.map_cons] at ih
    simp [groupList?, hg, ih]

theorem no_colon_of_mem_groups (gs : List Nat) :
    ∀ part ∈ gs.map (Nat.toDigits 16), part ≠ [] ∧ ':' ∉ part :=
  digits_of_mem (by decide) (by decide) (by decide) gs

theorem colons_ne_nil {gs : List Nat} (h : gs ≠ []) : colons gs ≠ [] := by
  obtain ⟨g, gs, rfl⟩ := List.exists_cons_of_ne_nil h
  cases gs with
  | nil => simp [colons, Nat.toDigits_ne_nil]
  | cons next gs => simp [colons, List.intercalate_cons_cons]

/-- **A side of a printed address is read back.** -/
theorem side?_colons (rule : Rule) (allowed : Bool) {gs : List Nat} (h : ∀ g ∈ gs, g < 65536) :
    side? rule allowed (colons gs) = some gs := by
  unfold side?
  by_cases hgs : gs = []
  · subst hgs
    rfl
  · have hpieces : pieces (· == ':') (colons gs) = gs.map (Nat.toDigits 16) :=
      pieces_intercalate rfl (by simpa using hgs)
        fun part hpart => beq_false_of_not_mem (no_colon_of_mem_groups gs part hpart).2
    rw [if_neg (by simpa using colons_ne_nil hgs), hpieces, groupList?_toDigits rule allowed h]

/-! ## The gap -/

theorem cutGap_cons {c : Char} {cs : List Char} (h : c ≠ ':' ∨ cs.head? ≠ some ':') :
    cutGap (c :: cs) = (cutGap cs).map fun (a, b) => (c :: a, b) := by
  rw [cutGap]
  rintro rest rfl rfl
  simp at h

theorem cutGap_append {part : List Char} (h : ':' ∉ part) (tail : List Char) :
    cutGap (part ++ tail) = (cutGap tail).map fun (a, b) => (part ++ a, b) := by
  induction part with
  | nil => simp
  | cons c part ih =>
    rw [List.mem_cons, not_or] at h
    rw [List.cons_append, cutGap_cons (Or.inl (Ne.symm h.1)), ih h.2, Option.map_map]
    rfl

/-- **Groups hold no gap**, and the colons between them make none. -/
theorem cutGap_intercalate_append (tail : List Char) : ∀ {parts : List (List Char)},
    (∀ part ∈ parts, part ≠ [] ∧ ':' ∉ part) → cutGap ([':'].intercalate parts ++ tail) =
      (cutGap tail).map fun (a, b) => ([':'].intercalate parts ++ a, b)
  | [], _ => by simp
  | [part], h => by
    rw [List.intercalate_singleton]
    exact cutGap_append (h part List.mem_cons_self).2 tail
  | part :: next :: parts, h => by
    have ih := cutGap_intercalate_append tail
      fun q hq => h q (List.mem_cons_of_mem part hq)
    obtain ⟨hne, hplain⟩ := h next (by simp)
    obtain ⟨c, cs, rfl⟩ := List.exists_cons_of_ne_nil hne
    have hhead : ([':'].intercalate ((c :: cs) :: parts) ++ tail).head? ≠ some ':' := by
      have hc : c ≠ ':' := fun h => hplain (h ▸ List.mem_cons_self)
      cases parts <;> simpa [List.intercalate_cons_cons] using hc
    rw [List.intercalate_cons_cons, List.append_assoc, List.append_assoc,
      cutGap_append (h part List.mem_cons_self).2, List.singleton_append,
      cutGap_cons (Or.inr hhead), ih, Option.map_map, Option.map_map]
    simp [Function.comp_def]

/-! ## The longest run of zeros -/

/-- The run that is found is one of zeros. -/
theorem longestZeros_le (gs : List Nat) :
    (longestZeros gs).2 ≤ zerosAt gs (longestZeros gs).1 := by
  unfold longestZeros
  suffices hfold : ∀ (indices : List Nat) (best : Nat × Nat), best.2 ≤ zerosAt gs best.1 →
      (indices.foldl (fun best i => if best.2 < zerosAt gs i then (i, zerosAt gs i) else best)
        best).2 ≤ zerosAt gs (indices.foldl
          (fun best i => if best.2 < zerosAt gs i then (i, zerosAt gs i) else best) best).1 from
    hfold _ _ (Nat.zero_le _)
  intro indices
  induction indices with
  | nil => exact fun _ h => h
  | cons i indices ih =>
    intro best h
    refine ih _ ?_
    show (if _ then _ else _ : Nat × Nat).2 ≤ zerosAt gs (if _ then _ else _ : Nat × Nat).1
    split_ifs
    · exact Nat.le_refl _
    · exact h

/-- **What stands beside a run of zeros**, with the zeros in between, is the whole. -/
theorem eq_append_zeros_append {gs : List Nat} {i n : Nat} (h : n ≤ zerosAt gs i) :
    gs = gs.take i ++ List.replicate n 0 ++ gs.drop (i + n) := by
  have hzeros : ((gs.drop i).takeWhile (· == 0)).take n = List.replicate n 0 := by
    refine List.eq_replicate_iff.mpr ⟨List.length_take_of_le h, fun g hg => ?_⟩
    simpa using List.mem_takeWhile_imp (List.mem_of_mem_take hg)
  have hrun : (gs.drop i).take n = List.replicate n 0 := by
    rw [← hzeros]
    conv => lhs; rw [← List.takeWhile_append_dropWhile (p := (· == 0)) (l := gs.drop i)]
    exact List.take_append_of_le_length h
  rw [← hrun, ← List.drop_drop, List.append_assoc, List.take_append_drop, List.take_append_drop]

/-! ## Numbers with colons -/

theorem lt_of_mem_groups (bits : BitVec 128) : ∀ g ∈ groups bits, g < 65536 := by
  intro g hg
  obtain ⟨i, -, rfl⟩ := List.mem_map.mp hg
  exact Nat.mod_lt _ (by decide)

theorem ofGroups_groups (bits : BitVec 128) : ofGroups (groups bits) = bits := by
  have hbits := bits.isLt
  refine BitVec.eq_of_toNat_eq ?_
  simp only [ofGroups, groups, List.map_cons, List.map_nil, List.foldl_cons, List.foldl_nil,
    BitVec.toNat_ofNat, BitVec.toNat_ushiftRight, Nat.shiftRight_eq_div_pow]
  omega

/-- The bits of a mapped address. -/
theorem toNat_of_mapped? {bits : BitVec 128} {short : BitVec 32} (h : mapped? bits = some short) :
    bits.toNat = 65535 * 2 ^ 32 + short.toNat := by
  unfold mapped? at h
  split_ifs at h with hhigh
  obtain rfl := Option.some.inj h
  have hnat := congrArg BitVec.toNat hhigh
  simp only [BitVec.toNat_ushiftRight, Nat.shiftRight_eq_div_pow, BitVec.toNat_ofNat] at hnat
  rw [BitVec.toNat_setWidth]
  omega

variable {rule : Rule}

theorem no_colon_dotted (bits : BitVec 32) : ':' ∉ dotted bits := by
  intro h
  rcases mem_of_mem_intercalate h with hdot | ⟨part, hpart, hcolon⟩
  · exact absurd hdot (by decide)
  · exact (digits_of_mem (by decide) (by decide) (by decide) _ part hpart).2 hcolon

/-- What stands behind the gap of a mapped address. -/
theorem side?_mapped (rule : Rule) (short : BitVec 32) :
    side? rule true (['f', 'f', 'f', 'f', ':'] ++ dotted short) =
      some [65535, (short >>> 16).toNat, short.toNat % 65536] := by
  have htext : ['f', 'f', 'f', 'f', ':'] ++ dotted short =
      [':'].intercalate [['f', 'f', 'f', 'f'], dotted short] := by
    simp
  have hpieces : pieces (· == ':') (['f', 'f', 'f', 'f', ':'] ++ dotted short) =
      [['f', 'f', 'f', 'f'], dotted short] := by
    rw [htext]
    refine pieces_intercalate rfl (by simp) fun part hpart => beq_false_of_not_mem ?_
    rcases List.mem_pair.mp hpart with rfl | rfl
    · decide
    · exact no_colon_dotted short
  have hgroup : group? ['f', 'f', 'f', 'f'] = some 65535 := by decide
  rw [side?, if_neg (by simp), hpieces]
  simp [groupList?, hgroup, readV4?_dotted]

/-- **A mapped address is read back** from the IPv4 address at its end. -/
theorem readV6?_mapped (hrule : 7 ≤ rule.groupsBesideGap) {bits : BitVec 128} {short : BitVec 32}
    (h : mapped? bits = some short) :
    readV6? rule ([':', ':', 'f', 'f', 'f', 'f', ':'] ++ dotted short) = some bits := by
  have hcut : cutGap ([':', ':', 'f', 'f', 'f', 'f', ':'] ++ dotted short) =
      some ([], ['f', 'f', 'f', 'f', ':'] ++ dotted short) := rfl
  have hfront : side? rule false [] = some [] := rfl
  have hbits : ofGroups [0, 0, 0, 0, 0, 65535, (short >>> 16).toNat, short.toNat % 65536] =
      bits := by
    have hnat := toNat_of_mapped? h
    have hshort := short.isLt
    refine BitVec.eq_of_toNat_eq ?_
    simp only [ofGroups, List.foldl_cons, List.foldl_nil, BitVec.toNat_ofNat,
      BitVec.toNat_ushiftRight, Nat.shiftRight_eq_div_pow]
    omega
  unfold readV6?
  rw [hcut]
  simp only [hfront, side?_mapped, Option.bind_eq_bind, Option.bind_some, List.length_nil]
  rw [if_pos ⟨by decide, by simp; omega⟩]
  exact congrArg some hbits

/-- **An address with a gap is read back**: the zeros that are left out are as many as are missing
beside it. -/
theorem readV6?_gap (hrule : 7 ≤ rule.groupsBesideGap) {bits : BitVec 128} {front back : List Nat}
    {n : Nat} (hn : 1 < n) (h : groups bits = front ++ List.replicate n 0 ++ back) :
    readV6? rule (colons front ++ [':', ':'] ++ colons back) = some bits := by
  have hcut : cutGap (colons front ++ [':', ':'] ++ colons back) =
      some (colons front, colons back) := by
    have hgap := cutGap_intercalate_append ([':', ':'] ++ colons back)
      (no_colon_of_mem_groups front)
    rw [List.append_assoc, colons, hgap]
    simp [cutGap]
  have hlength : front.length + n + back.length = 8 := by
    simpa [groups, Nat.add_assoc] using (congrArg List.length h).symm
  have hless (g : Nat) (hg : g ∈ front ++ List.replicate n 0 ++ back) : g < 65536 :=
    lt_of_mem_groups bits g (h ▸ hg)
  have hfront : side? rule false (colons front) = some front :=
    side?_colons rule false fun g hg => hless g (by simp [hg])
  have hback : side? rule true (colons back) = some back :=
    side?_colons rule true fun g hg => hless g (by simp [hg])
  have hmissing : 8 - front.length - back.length = n := by omega
  unfold readV6?
  rw [hcut]
  simp only [hfront, hback, Option.bind_eq_bind, Option.bind_some]
  rw [if_pos ⟨by omega, by omega⟩, hmissing, ← h, ofGroups_groups]

/-- **An IPv6 address is read back.** -/
theorem readV6?_colonText (hrule : 7 ≤ rule.groupsBesideGap) (bits : BitVec 128) :
    readV6? rule (colonText bits) = some bits := by
  unfold colonText
  cases hmapped : mapped? bits with
  | some short => exact readV6?_mapped hrule hmapped
  | none =>
    simp only
    split_ifs with hlong
    · exact readV6?_gap hrule hlong (eq_append_zeros_append (longestZeros_le (groups bits)))
    · have hcut : cutGap (colons (groups bits)) = none := by
        have hnone := cutGap_intercalate_append [] (no_colon_of_mem_groups (groups bits))
        rwa [List.append_nil] at hnone
      have hlength : (groups bits).length = 8 := rfl
      unfold readV6?
      rw [hcut]
      simp [side?_colons rule true (lt_of_mem_groups bits), hlength, ofGroups_groups]

/-! ## Addresses -/

/-- An IPv6 address is printed with a colon. -/
theorem colon_mem_colonText (bits : BitVec 128) : ':' ∈ colonText bits := by
  unfold colonText
  cases mapped? bits with
  | some short => simp
  | none =>
    simp only
    split_ifs
    · simp
    · simp [groups, colons, List.intercalate_cons_cons]

/-- **Every address is read back from its printed form**, under the rule for addresses that stand
alone and under the one for networks. -/
theorem read?_toChars (hrule : 7 ≤ rule.groupsBesideGap) (a : Address) :
    read? rule a.toChars = some a := by
  cases a with
  | v4 bits =>
    show read? rule (dotted bits) = _
    rw [read?, readV4?_dotted]
  | v6 bits =>
    show read? rule (colonText bits) = _
    rw [read?, readV4?_eq_none rule (colon_mem_colonText bits), readV6?_colonText hrule]
    rfl

theorem Address.ofChars?_toChars (a : Address) : Address.ofChars? a.toChars = some a :=
  read?_toChars (by decide) a

/-- What addresses are printed with. -/
def printable : List Char :=
  '.' :: ':' :: hexDigits

theorem mem_printable_of_mem_intercalate {separator : Char} (hsep : separator ∈ printable) {b : Nat}
    (hb : 1 < b) (hb' : b ≤ 16) {ns : List Nat} {c : Char}
    (h : c ∈ [separator].intercalate (ns.map (Nat.toDigits b))) : c ∈ printable := by
  rcases mem_of_mem_intercalate h with h | ⟨part, hpart, h⟩
  · rwa [List.mem_singleton.mp h]
  · obtain ⟨n, -, rfl⟩ := List.mem_map.mp hpart
    exact List.mem_cons_of_mem _ (List.mem_cons_of_mem _ (mem_hexDigits_of_mem_toDigits hb hb' h))

/-- **An address is printed with digits, dots and colons.** -/
theorem mem_printable_of_mem_toChars {a : Address} {c : Char} (h : c ∈ a.toChars) :
    c ∈ printable := by
  have hdotted {bits : BitVec 32} (h : c ∈ dotted bits) : c ∈ printable :=
    mem_printable_of_mem_intercalate (by decide) (by decide) (by decide) h
  have hcolons {gs : List Nat} (h : c ∈ colons gs) : c ∈ printable :=
    mem_printable_of_mem_intercalate (by decide) (by decide) (by decide) h
  have hmark : [':', ':', 'f', 'f', 'f', 'f', ':'] ⊆ printable := by decide
  have hgap : [':', ':'] ⊆ printable := by decide
  cases a with
  | v4 bits => exact hdotted h
  | v6 bits =>
    change c ∈ colonText bits at h
    unfold colonText at h
    cases hmapped : mapped? bits with
    | some short =>
      rw [hmapped, List.mem_append] at h
      rcases h with h | h
      · exact hmark h
      · exact hdotted h
    | none =>
      rw [hmapped] at h
      simp only at h
      split_ifs at h
      · rw [List.mem_append, List.mem_append] at h
        rcases h with (h | h) | h
        · exact hcolons h
        · exact hgap h
        · exact hcolons h
      · exact hcolons h

theorem mem_hexDigits_of_getLast? {separator : Char} {b : Nat} (hb : 1 < b) (hb' : b ≤ 16)
    {ns : List Nat} {c : Char}
    (h : ([separator].intercalate (ns.map (Nat.toDigits b))).getLast? = some c) :
    c ∈ hexDigits := by
  rcases List.eq_nil_or_concat ns with rfl | ⟨front, n, rfl⟩
  · simp at h
  · rw [List.map_concat, List.concat_eq_append, intercalate_append_cons, List.flatMap_nil,
      List.append_nil, List.getLast?_append,
      Option.or_of_isSome (List.getLast?_isSome.mpr Nat.toDigits_ne_nil)] at h
    exact mem_hexDigits_of_mem_toDigits hb hb' (List.mem_of_getLast? h)

/-- **An address ends in a digit or a colon.** -/
theorem getLast?_toChars {a : Address} {c : Char} (h : a.toChars.getLast? = some c) :
    c ∈ ':' :: hexDigits := by
  have hdotted {bits : BitVec 32} (h : (dotted bits).getLast? = some c) : c ∈ ':' :: hexDigits :=
    List.mem_cons_of_mem _ (mem_hexDigits_of_getLast? (by decide) (by decide) h)
  have hcolons {gs : List Nat} (h : (colons gs).getLast? = some c) : c ∈ ':' :: hexDigits :=
    List.mem_cons_of_mem _ (mem_hexDigits_of_getLast? (by decide) (by decide) h)
  have hbehind {front back : List Char} (hfront : front.getLast? = some ':')
      (hback : back.getLast? = some c → c ∈ ':' :: hexDigits)
      (h : (front ++ back).getLast? = some c) : c ∈ ':' :: hexDigits := by
    rw [List.getLast?_append, Option.or_eq_some_iff] at h
    rcases h with h | ⟨-, h⟩
    · exact hback h
    · rw [hfront, Option.some.injEq] at h
      exact h ▸ List.mem_cons_self
  cases a with
  | v4 bits => exact hdotted h
  | v6 bits =>
    change (colonText bits).getLast? = some c at h
    unfold colonText at h
    cases hmapped : mapped? bits with
    | some short =>
      rw [hmapped] at h
      exact hbehind rfl hdotted h
    | none =>
      rw [hmapped] at h
      simp only at h
      split_ifs at h
      · exact hbehind (by simp) hcolons h
      · exact hcolons h

/-! ## Networks -/

namespace Network

/-- **A network is read back from its written form.** -/
theorem ofChars?_toChars (net : Network) : ofChars? net.toChars = some net := by
  obtain ⟨address, length, hle⟩ := net
  have hslash : ∀ c ∈ address.toChars, (c == '/') = false := beq_false_of_not_mem fun h =>
    absurd (mem_printable_of_mem_toChars h) (by decide)
  have hcut : cutFirst (· == '/') (address.toChars ++ '/' :: Nat.toDigits 10 length) =
      some (address.toChars, Nat.toDigits 10 length) :=
    cutFirst_append_cons rfl hslash _
  have hread : read? .network address.toChars = some address := read?_toChars (by decide) address
  have hlength (digits : Nat) (hpos : 0 < digits) (h : length < 10 ^ digits) :
      length? digits (Nat.toDigits 10 length) = some length := by
    have hempty : (Nat.toDigits 10 length).isEmpty = false :=
      List.isEmpty_eq_false_iff.mpr Nat.toDigits_ne_nil
    have hshort := (Nat.length_toDigits_le_iff (by decide) hpos).mpr h
    rw [length?, if_neg (by simpa [hempty] using hshort), digitsValue?_toDigits]
  unfold ofChars? toChars
  rw [hcut]
  simp only [Option.bind_eq_bind, Option.bind_some, hread]
  cases address with
  | v4 bits =>
    have hle' : length ≤ 32 := hle
    simp [hlength 2 (by decide) (by omega), ofAddress?, hle]
  | v6 bits =>
    have hle' : length ≤ 128 := hle
    simp [hlength 3 (by decide) (by omega), ofAddress?, hle]

/-- **Different networks are written differently.** -/
theorem toText_injective {net net' : Network} (h : net.toText = net'.toText) : net = net' := by
  have hchars : net.toChars = net'.toChars := String.ofList_injective h
  have hread := congrArg ofChars? hchars
  rw [ofChars?_toChars, ofChars?_toChars] at hread
  exact Option.some.inj hread

end Network

end MailScreen.Ip
