import Mathlib.Tactic.SplitIfs
import JsonCompanion.Proofs.Number.Digits
import JsonCompanion.Script.Scan
import JsonCompanion.Text.Quoted

/-!
# Reading quoted text

What `Text.quote` writes is scanned as a string with the same value.

* `ofDigits?_hexDigits` reads the four hexadecimal digits of a code unit.
* `stringAt?_escapeAll` goes through the units between the quotes.
-/

namespace JsonCompanion

/-! ### Hexadecimal digits -/

/-- The four hexadecimal digits of a code unit. -/
def Text.hexDigits (n : Nat) : List Char :=
  [Nat.digitChar (n / 4096 % 16), Nat.digitChar (n / 256 % 16), Nat.digitChar (n / 16 % 16),
   Nat.digitChar (n % 16)]

private theorem padded_toDigits (n : Nat) (hn : n < 65536) :
    List.replicate (4 - (Nat.toDigits 16 n).length) '0' ++ Nat.toDigits 16 n = Text.hexDigits n := by
  have hzero : Nat.digitChar 0 = '0' := rfl
  have hmod : ∀ m, m < 16 → Nat.toDigits 16 m = [Nat.digitChar m] := fun m h => Nat.toDigits_of_lt_base h
  have hstep : ∀ m, 16 ≤ m → Nat.toDigits 16 m = Nat.toDigits 16 (m / 16) ++ [Nat.digitChar (m % 16)] :=
    fun m h => Nat.toDigits_of_base_le (by decide) h
  have h2 : n / 16 / 16 = n / 256 := Nat.div_div_eq_div_mul n 16 16
  have h3 : n / 16 / 16 / 16 = n / 4096 := by rw [h2, Nat.div_div_eq_div_mul]
  unfold Text.hexDigits
  rcases Nat.lt_or_ge n 16 with h | h
  · rw [hmod n h, show n / 4096 = 0 by omega, show n / 256 = 0 by omega, show n / 16 = 0 by omega,
      Nat.mod_eq_of_lt h]
    rfl
  · rcases Nat.lt_or_ge n 256 with h' | h'
    · rw [hstep n h, hmod _ (by omega), show n / 4096 = 0 by omega, show n / 256 = 0 by omega,
        Nat.mod_eq_of_lt (show n / 16 < 16 by omega)]
      rfl
    · rcases Nat.lt_or_ge n 4096 with h'' | h''
      · rw [hstep n h, hstep (n / 16) (by omega), hmod _ (by omega), show n / 4096 = 0 by omega, h2,
          Nat.mod_eq_of_lt (show n / 256 < 16 by omega)]
        rfl
      · rw [hstep n h, hstep (n / 16) (by omega), hstep (n / 16 / 16) (by omega),
          hmod _ (by omega), h3, h2, Nat.mod_eq_of_lt (show n / 4096 < 16 by omega)]
        rfl

theorem Number.ofDigits?_hexDigits {n : Nat} (hn : n < 65536) :
    Number.ofDigits? 16 ((Text.hexDigits n).map CodeUnit.ofChar) = some n := by
  have hdigit (m : Nat) : CodeUnit.digitValue? (CodeUnit.ofChar (Nat.digitChar (m % 16))) =
      some (m % 16) :=
    CodeUnit.digitValue?_digitChar _ (Nat.mod_lt _ (by decide))
  have hlt (m : Nat) : m % 16 < 16 := Nat.mod_lt _ (by decide)
  simp only [Number.ofDigits?, Text.hexDigits, List.map_cons, List.map_nil, List.isEmpty_cons,
    Bool.false_eq_true, if_false, List.foldl_cons, List.foldl_nil, Option.bind_eq_bind,
    Option.bind_some, hdigit, hlt, if_true, Option.some.injEq]
  omega

namespace Script

/-! ### Strings -/

private theorem stringAt?_plain {q u : CodeUnit} {t : Text} {scanned : Scanned}
    (h : stringAt? q 0 t = some scanned) (hq : u ≠ q) (hslash : u ≠ CodeUnit.ofChar '\\')
    (hline : u ≠ 0x0A) (hreturn : u ≠ 0x0D) :
    stringAt? q 0 (u :: t) =
      some { scanned with value := u :: scanned.value, width := scanned.width + 1 } := by
  rw [stringAt?]
  simp only [beq_iff_eq, hq, hslash, hline, hreturn, if_false, h, Option.map_some, Bool.or_eq_true,
    or_self]

/-- Behind a hexadecimal escape the string goes on. -/
private theorem stringAt?_hexEscape {u : CodeUnit} {t : Text} {scanned : Scanned}
    (h : stringAt? '"' 0 t = some scanned) :
    stringAt? '"' 0 (Text.hexEscape u ++ t) =
      some { scanned with value := u :: scanned.value, width :=
      scanned.width + (Text.hexEscape u).length } := by
  have hu : u.toNat < 65536 := u.toNat_lt
  have htext : Text.hexEscape u = [92, 117] ++ (Text.hexDigits u.toNat).map CodeUnit.ofChar := by
    show Text.ofString "\\u" ++ _ = _
    rw [padded_toDigits _ hu]
    rfl
  -- four digits, of which the first is no brace
  obtain ⟨a, b, c, d, hdigits⟩ : ∃ a b c d,
    (Text.hexDigits u.toNat).map CodeUnit.ofChar = [a, b, c, d] :=
    ⟨_, _, _, _, rfl⟩
  have hvalue : Number.ofDigits? 16 [a, b, c, d] = some u.toNat :=
    hdigits ▸ Number.ofDigits?_hexDigits hu
  have hbrace : (a == CodeUnit.ofChar '\x7b') = false := by
    have ha : a = CodeUnit.ofChar (Nat.digitChar (u.toNat / 4096 % 16)) := (List.cons.inj hdigits).1.symm
    have hall : ∀ n < 16,
        (CodeUnit.ofChar (Nat.digitChar n) == CodeUnit.ofChar '\x7b') = false := by decide
    rw [ha]
    exact hall _ (Nat.mod_lt _ (by decide))
  have hescape :
      escapeAt? (117 :: a :: b :: c :: d :: t) = some ⟨Text.ofCodePoint u.toNat, 5, false⟩ := by
    have hunicode : unicodeEscapeAt? (117 :: a :: b :: c :: d :: t) = some (u.toNat, 5) := by
      rw [unicodeEscapeAt?]
      simp only [hbrace, List.take_succ_cons, List.take_zero, List.length_cons, List.length_nil,
        hvalue, Option.map_some, Bool.false_eq_true, if_false, if_true]
      rfl
    have hbegins : Text.beginsWith (a :: b :: c :: d :: t) "\x7b\x7d" = false := by
      have hopen : (CodeUnit.ofChar '\x7b' == a) = false := by rwa [BEq.comm]
      show (Text.dropBeginning? (CodeUnit.ofChar '\x7b' :: [CodeUnit.ofChar '\x7d'])
        (a :: b :: c :: d :: t)).isSome = false
      rw [Text.dropBeginning?]
      simp only [hopen, Bool.false_eq_true, if_false, Option.isSome_none]
    have hplain : escapeAt? (117 :: a :: b :: c :: d :: t) =
        if Text.beginsWith (a :: b :: c :: d :: t) "\x7b\x7d" then some ⟨[0], 3, false⟩
        else (unicodeEscapeAt? (117 :: a :: b :: c :: d :: t)).map fun found =>
          ⟨Text.ofCodePoint found.1, found.2, false⟩ := rfl
    rw [hplain, hbegins, hunicode]
    rfl
  have hunits : Text.ofCodePoint u.toNat = [u] := by
    simp only [Text.ofCodePoint, if_pos hu, UInt16.ofNat_toNat]
  rw [htext, hdigits]
  show stringAt? _ 0 (92 :: 117 :: a :: b :: c :: d :: t) = _
  rw [stringAt?]
  simp only [hescape, hunits, stringAt?, h, Option.map_some, List.cons_append, List.nil_append,
    Bool.false_or]
  rfl

/-- Behind a unit with a letter of its own the string goes on. -/
private theorem stringAt?_letter (u letter : CodeUnit) {t : Text} {scanned : Scanned}
    (h : stringAt? '"' 0 t = some scanned) (hescape : escapeAt? (letter :: t) = some ⟨[u], 1, false⟩) :
    stringAt? '"' 0 (92 :: letter :: t) =
      some { scanned with value := u :: scanned.value, width := scanned.width + 2 } := by
  rw [stringAt?]
  simp only [hescape, stringAt?, h, Option.map_some, List.cons_append, List.nil_append, Bool.false_or]
  rfl

/-- Behind a unit as it stands between quotes the string goes on. -/
private theorem stringAt?_escape {u : CodeUnit} {t : Text} {scanned : Scanned}
    (h : stringAt? '"' 0 t = some scanned) :
    stringAt? '"' 0 (Text.escape u ++ t) =
      some { scanned with value := u :: scanned.value, width :=
      scanned.width + (Text.escape u).length } := by
  unfold Text.escape
  split_ifs with hquote hslash hback hfeed hline hreturn htab hcontrol hsurrogate
  · obtain rfl := eq_of_beq hquote
    exact stringAt?_letter 34 34 h rfl
  · obtain rfl := eq_of_beq hslash
    exact stringAt?_letter 92 92 h rfl
  · obtain rfl := eq_of_beq hback
    exact stringAt?_letter 8 98 h rfl
  · obtain rfl := eq_of_beq hfeed
    exact stringAt?_letter 12 102 h rfl
  · obtain rfl := eq_of_beq hline
    exact stringAt?_letter 10 110 h rfl
  · obtain rfl := eq_of_beq hreturn
    exact stringAt?_letter 13 114 h rfl
  · obtain rfl := eq_of_beq htab
    exact stringAt?_letter 9 116 h rfl
  · exact stringAt?_hexEscape h
  · exact stringAt?_hexEscape h
  · exact stringAt?_plain h (hquote ∘ beq_of_eq) (hslash ∘ beq_of_eq) (hline ∘ beq_of_eq)
      (hreturn ∘ beq_of_eq)

/-- Between quotes a text is read back, and the string ends at the closing quote. -/
theorem stringAt?_escapeAll (t rest : Text) :
    stringAt? '"' 0 (Text.escapeAll t ++ CodeUnit.ofChar '"' :: rest) =
      some ⟨t, (Text.escapeAll t).length + 1, false⟩ := by
  fun_induction Text.escapeAll t with
  | case1 => rfl
  | case2 u =>
    have hend : stringAt? '"' 0 (CodeUnit.ofChar '"' :: rest) = some ⟨[], 1, false⟩ := rfl
    rw [stringAt?_escape hend, Nat.add_comm]
  | case3 u v r hpair ih =>
    have hlead : 0xD800 ≤ u.toNat := by
      simp only [CodeUnit.isLeading, CodeUnit.isTrailing, Bool.and_eq_true, decide_eq_true_eq] at hpair
      exact hpair.1.1
    have htrail : 0xD800 ≤ v.toNat := by
      simp only [CodeUnit.isLeading, CodeUnit.isTrailing, Bool.and_eq_true, decide_eq_true_eq] at hpair
      exact Nat.le_trans (by decide) hpair.2.1
    have hne (w small : CodeUnit) (hw : 0xD800 ≤ w.toNat) (hsmall : small.toNat < 0xD800) : w ≠ small :=
      fun heq => Nat.not_lt.mpr hw (heq ▸ hsmall)
    have hrest := stringAt?_plain ih (hne v _ htrail (by decide)) (hne v _ htrail (by decide))
      (hne v _ htrail (by decide)) (hne v _ htrail (by decide))
    exact stringAt?_plain hrest (hne u _ hlead (by decide)) (hne u _ hlead (by decide))
      (hne u _ hlead (by decide)) (hne u _ hlead (by decide))
  | case4 u v r hpair ih =>
    rw [List.append_assoc, stringAt?_escape ih, List.length_append]
    simp only [Option.some.injEq, Scanned.mk.injEq, and_true, true_and]
    omega

end Script

end JsonCompanion
