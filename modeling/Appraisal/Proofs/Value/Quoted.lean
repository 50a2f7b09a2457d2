import Appraisal.Value.Canonical
import Appraisal.Value.Reader

/-! Texts in quotes. Reading a quoted text gives the text back, with what follows the closing quote (`text_quoted`), so
    a quoted text ends where it is seen to end, and different texts are quoted differently (`quoted_append`). -/

namespace Appraisal.Value
open Reader

/-- Characters from `#` up to the backslash are not escaped. -/
theorem escapeChar_of_bounds {c : Char} (hlow : 0x23 ≤ c.toNat) (hhigh : c.toNat < 0x5C) : escapeChar c = [c] := by
  have hne : ∀ d : Char, d.toNat < 0x23 ∨ 0x5C ≤ d.toNat → c ≠ d := by
    rintro d hd rfl
    omega
  rw [escapeChar, if_neg (hne _ (by decide)), if_neg (hne _ (by decide)), if_neg (hne _ (by decide)),
    if_neg (hne _ (by decide)), if_neg (hne _ (by decide)), if_neg (hne _ (by decide)), if_neg (hne _ (by decide)),
    if_neg (by omega)]

theorem textBody_escapeChar (c : Char) (cs : List Char) :
    textBody (escapeChar c ++ cs) = prepend c.toNat (textBody cs) := by
  unfold escapeChar
  iterate 7
    split
    · rename_i h
      subst h
      rfl
  split
  · rename_i hcontrol
    have hread : Text.ofHex? (Text.hex 4 c.toNat) = some c.toNat := Text.ofHex?_hex (by simp; omega)
    simp only [Text.hex, List.nil_append, List.cons_append] at hread ⊢
    rw [textBody, hread]
  · rename_i hquote hbackslash _ _ _ _ _ hvisible
    rw [List.singleton_append, textBody, if_neg hvisible]
    · simpa using hquote
    · simp [hbackslash]
    · simp [hbackslash]

theorem textBody_quoted (cs rest : List Char) :
    textBody (cs.flatMap escapeChar ++ '"' :: rest) = .ok (cs.map Char.toNat, rest) := by
  induction cs with
  | nil => rfl
  | cons c cs ih =>
    rw [List.flatMap_cons, List.append_assoc, textBody_escapeChar, ih]
    rfl

theorem isSurrogate_toNat (c : Char) : isHighSurrogate c.toNat = false ∧ isLowSurrogate c.toNat = false := by
  have hvalid : c.toNat < 0xD800 ∨ 0xDFFF < c.toNat ∧ c.toNat < 0x110000 := c.valid
  constructor
  · simp only [isHighSurrogate, Bool.and_eq_false_iff, decide_eq_false_iff_not]
    omega
  · simp only [isLowSurrogate, Bool.and_eq_false_iff, decide_eq_false_iff_not]
    omega

theorem joinSurrogates_cons_toNat (c : Char) (ns : List Nat) :
    joinSurrogates (c.toNat :: ns) = c :: joinSurrogates ns := by
  obtain ⟨hhigh, hlow⟩ := isSurrogate_toNat c
  cases ns <;> simp [joinSurrogates, hhigh, hlow]

theorem joinSurrogates_map_toNat (cs : List Char) : joinSurrogates (cs.map Char.toNat) = cs := by
  induction cs with
  | nil => rfl
  | cons c cs ih => rw [List.map_cons, joinSurrogates_cons_toNat, ih]

theorem text_quoted (s : String) (rest : List Char) :
    Reader.text (s.toList.flatMap escapeChar ++ '"' :: rest) = .ok (s, rest) := by
  rw [Reader.text, textBody_quoted]
  simp [Except.map, joinSurrogates_map_toNat]

/-- A quoted text is told from what follows it. -/
theorem quoted_append {s t : String} {r r' : List Char} (h : quoted s ++ r = quoted t ++ r') : s = t ∧ r = r' := by
  simp only [quoted, List.cons_append, List.append_assoc, List.nil_append, List.cons.injEq, true_and] at h
  have hs := text_quoted s r
  rw [h, text_quoted t r'] at hs
  injection hs with hs
  exact ⟨(congrArg Prod.fst hs).symm, (congrArg Prod.snd hs).symm⟩

end Appraisal.Value
