import Appraisal.Number.Numeral
import Mathlib.Algebra.Order.Ring.Nat
import Mathlib.Data.Char
import Mathlib.Data.List.Lex
import Mathlib.Order.Monotone.Basic

/-! Runs of digits and texts made of them. Among runs of one length the order by code points is the order of the
    numbers they stand for (`strictMonoOn_natural`). A text that writes numbers in fields of fixed widths (`Fields`)
    has a fixed length, and of two texts with the same fields the one with the smaller numbers comes first
    (`Fields.lt_iff`). -/

namespace Appraisal.Numeral

/-! ### Runs of one length -/

def digitRuns (width : Nat) : Set (List Char) := {ds | ds.length = width ∧ ∀ c ∈ ds, c.isDigit = true}

variable {width : Nat} {c d : Char} {cs ds : List Char}

theorem cons_mem_digitRuns_iff :
    c :: cs ∈ digitRuns (width + 1) ↔ c.isDigit = true ∧ cs ∈ digitRuns width := by
  simp only [digitRuns, Set.mem_ofPred_eq, List.length_cons, Nat.succ_inj, List.forall_mem_cons]
  exact and_left_comm

theorem natural_cons (c : Char) (cs : List Char) :
    natural (c :: cs) = 10 ^ cs.length * (c.toNat - '0'.toNat) + natural cs := by
  rw [natural, Nat.ofDigitChars_cons, Nat.mul_zero, Nat.zero_add, Nat.ofDigitChars_eq_ofDigitChars_zero, natural]

theorem natural_lt (h : cs ∈ digitRuns width) : natural cs < 10 ^ width := by
  induction width generalizing cs with
  | zero =>
    obtain rfl := List.length_eq_zero_iff.1 h.1
    exact Nat.one_pos
  | succ width ih =>
    obtain ⟨c, cs, rfl⟩ := List.exists_cons_of_length_eq_add_one h.1
    obtain ⟨hc, hcs⟩ := cons_mem_digitRuns_iff.1 h
    have hrest := ih hcs
    have hdigit : c.toNat - '0'.toNat ≤ 9 := Nat.sub_le_of_le_add (Char.isDigit_iff_toNat.1 hc).2
    have hfirst := Nat.mul_le_mul_left (10 ^ width) hdigit
    rw [natural_cons, hcs.1, Nat.pow_succ]
    omega

/-- The first digit decides. -/
theorem natural_cons_lt (hc : c.isDigit = true) (hcs : cs ∈ digitRuns width) (hds : ds ∈ digitRuns width)
    (h : c < d) : natural (c :: cs) < natural (d :: ds) := by
  have hcd : c.toNat < d.toNat := h
  have hzero := (Char.isDigit_iff_toNat.1 hc).1
  have hdigit : c.toNat - '0'.toNat + 1 ≤ d.toNat - '0'.toNat := by omega
  rw [natural_cons, natural_cons, hcs.1, hds.1]
  calc 10 ^ width * (c.toNat - '0'.toNat) + natural cs
      < 10 ^ width * (c.toNat - '0'.toNat) + 10 ^ width := Nat.add_lt_add_left (natural_lt hcs) _
    _ = 10 ^ width * (c.toNat - '0'.toNat + 1) := (Nat.mul_succ _ _).symm
    _ ≤ 10 ^ width * (d.toNat - '0'.toNat) := Nat.mul_le_mul_left _ hdigit
    _ ≤ 10 ^ width * (d.toNat - '0'.toNat) + natural ds := Nat.le_add_right _ _

theorem strictMonoOn_natural (width : Nat) : StrictMonoOn natural (digitRuns width) := by
  induction width with
  | zero =>
    intro cs hcs ds hds h
    obtain rfl := List.length_eq_zero_iff.1 hds.1
    exact absurd h (List.not_lt_nil _)
  | succ width ih =>
    intro cs hcs ds hds h
    obtain ⟨c, cs, rfl⟩ := List.exists_cons_of_length_eq_add_one hcs.1
    obtain ⟨d, ds, rfl⟩ := List.exists_cons_of_length_eq_add_one hds.1
    obtain ⟨hc, hcs'⟩ := cons_mem_digitRuns_iff.1 hcs
    obtain ⟨-, hds'⟩ := cons_mem_digitRuns_iff.1 hds
    rcases List.cons_lt_cons_iff.1 h with hfirst | ⟨rfl, hrest⟩
    · exact natural_cons_lt hc hcs' hds' hfirst
    · rw [natural_cons, natural_cons, hcs'.1, hds'.1]
      exact Nat.add_lt_add_left (ih hcs' hds' hrest) _

/-! ### Fields -/

theorem append_lt_append_iff {α : Type} [LT α] [Std.Irrefl (· < · : α → α → Prop)] {xs ys us vs : List α}
    (hlength : xs.length = ys.length) : xs ++ us < ys ++ vs ↔ xs < ys ∨ xs = ys ∧ us < vs := by
  induction xs generalizing ys with
  | nil =>
    obtain rfl := List.length_eq_zero_iff.1 hlength.symm
    simp
  | cons x xs ih =>
    cases ys with
    | nil => cases hlength
    | cons y ys =>
      have hrest := ih (Nat.succ.inj hlength)
      simp only [List.cons_append, List.cons_lt_cons_iff, hrest, List.cons.injEq, and_or_left, or_assoc, and_assoc]

/-- A text that writes numbers in fields: for every field its width in digits and the mark after it. -/
inductive Fields : List (Nat × Char) → List Nat → List Char → Prop
  | nil : Fields [] [] []
  | cons {width : Nat} {mark : Char} {fields : List (Nat × Char)} {ns : List Nat} {ds cs : List Char}
      (run : ds ∈ digitRuns width) (rest : Fields fields ns cs) :
      Fields ((width, mark) :: fields) (natural ds :: ns) (ds ++ mark :: cs)

namespace Fields

variable {fields : List (Nat × Char)} {ns ms : List Nat}

theorem length_eq (h : Fields fields ns cs) : cs.length = (fields.map (·.1 + 1)).sum := by
  induction h with
  | nil => rfl
  | cons run rest ih =>
    rw [List.length_append, List.length_cons, ih, run.1, List.map_cons, List.sum_cons]
    omega

/-- The texts compare as the numbers do, the first ones first. -/
theorem lt_iff (h : Fields fields ns cs) (h' : Fields fields ms ds) : cs < ds ↔ ns < ms := by
  induction h generalizing ms ds with
  | nil =>
    cases h'
    simp
  | @cons width mark fields ns xs us run rest ih =>
    cases h' with
    | cons run' rest' =>
      have hmono := strictMonoOn_natural width
      rw [append_lt_append_iff (run.1.trans run'.1.symm), List.cons_lt_cons_iff, List.cons_lt_cons_iff, ih rest',
        hmono.lt_iff_lt run run', hmono.eq_iff_eq run run']
      simp

theorem eq_iff (h : Fields fields ns cs) (h' : Fields fields ms ds) : cs = ds ↔ ns = ms := by
  rw [le_antisymm_iff, ← not_lt, ← not_lt, h.lt_iff h', h'.lt_iff h, not_lt, not_lt, ← le_antisymm_iff]

end Fields
end Appraisal.Numeral
