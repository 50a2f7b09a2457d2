/-! Hexadecimal text of a fixed width, in lower case, and back. Main fact: a number below `16 ^ width` is read
    back from its text. -/

namespace Appraisal.Text

/-- The lower case hexadecimal digit of a number below 16. -/
def hexDigit (n : Nat) : Char := if n < 10 then Char.ofNat (48 + n) else Char.ofNat (87 + n)

/-- The last `width` hexadecimal digits of `n`, the most significant first. -/
def hex : (width : Nat) → Nat → List Char
  | 0, _ => []
  | width + 1, n => hex width (n / 16) ++ [hexDigit (n % 16)]

/-- The number that a hexadecimal digit of either case stands for. -/
def hexValue? (c : Char) : Option Nat :=
  if '0' ≤ c ∧ c ≤ '9' then some (c.toNat - 48)
  else if 'a' ≤ c ∧ c ≤ 'f' then some (c.toNat - 87)
  else if 'A' ≤ c ∧ c ≤ 'F' then some (c.toNat - 55)
  else none

/-- The number that a text of hexadecimal digits stands for; the empty text stands for zero. -/
def ofHex? (cs : List Char) : Option Nat :=
  cs.foldlM (fun n c => (hexValue? c).map (16 * n + ·)) 0

@[simp] theorem length_hex (width n : Nat) : (hex width n).length = width := by
  induction width generalizing n with
  | zero => rfl
  | succ w ih => simp [hex, ih]

theorem hexValue?_hexDigit {n : Nat} (h : n < 16) : hexValue? (hexDigit n) = some n := by
  have : ∀ m : Fin 16, hexValue? (hexDigit m.val) = some m.val := by decide
  exact this ⟨n, h⟩

theorem ofHex?_hex {width n : Nat} (h : n < Nat.pow 16 width) : ofHex? (hex width n) = some n := by
  induction width generalizing n with
  | zero => rw [Nat.lt_one_iff.1 h]; rfl
  | succ w ih =>
    have hq : n / 16 < Nat.pow 16 w := Nat.div_lt_of_lt_mul (Nat.mul_comm _ _ ▸ h)
    have := ih hq
    simp only [ofHex?] at this ⊢
    simp only [hex, List.foldlM_append, this, List.foldlM_cons, List.foldlM_nil, Option.bind_eq_bind, Option.bind_some,
      hexValue?_hexDigit (Nat.mod_lt n (by decide : 0 < 16))]
    simp [Nat.div_add_mod]

end Appraisal.Text
