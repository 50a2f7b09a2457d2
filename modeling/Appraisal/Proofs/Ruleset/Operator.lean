import Appraisal.Ruleset.Operator
import Mathlib.Order.Compare
import Mathlib.Order.Lattice

/-! What the operators say. Of the outcome of a comparison in an order an operator says what it says of the two elements
    (`holds_cmp`), and of two things without an order it only says whether they are the same. -/

namespace Appraisal.Operator

/-- The operator that says the same of two things the other way round. -/
def mirror : Operator → Operator
  | gt => lt
  | ge => le
  | lt => gt
  | le => ge
  | op => op

theorem holds_ne (o : Ordering) : ne.holds o = !eq.holds o := rfl

theorem holds_swap (op : Operator) (o : Ordering) : op.holds o.swap = op.mirror.holds o := by
  cases op <;> cases o <;> rfl

def ofOutcome : Ordering → Operator
  | .lt => lt
  | .eq => eq
  | .gt => gt

/-- Exactly one of less, equal and greater. -/
theorem existsUnique_holds (o : Ordering) : ∃! op : Operator, op ∈ [lt, eq, gt] ∧ op.holds o = true := by
  refine ⟨ofOutcome o, ?_, ?_⟩
  · cases o <;> simp [ofOutcome, holds]
  · rintro op ⟨hop, h⟩
    simp only [List.mem_cons, List.not_mem_nil, or_false] at hop
    rcases hop with rfl | rfl | rfl <;> cases o <;> first | rfl | cases h

/-! ### In an order -/

section
variable {α : Type} [LinearOrder α]

def Between : Operator → α → α → Prop
  | eq, a, b => a = b
  | ne, a, b => a ≠ b
  | gt, a, b => b < a
  | ge, a, b => b ≤ a
  | lt, a, b => a < b
  | le, a, b => a ≤ b

theorem holds_cmp (op : Operator) (a b : α) : op.holds (cmp a b) = true ↔ op.Between a b := by
  rcases lt_trichotomy a b with h | rfl | h
  · rw [(cmp_eq_lt_iff a b).2 h]
    cases op <;> simp [holds, Between, h, h.le, h.ne, h.not_gt, h.not_ge]
  · rw [(cmp_eq_eq_iff a a).2 rfl]
    cases op <;> simp [holds, Between]
  · rw [(cmp_eq_gt_iff a b).2 h]
    cases op <;> simp [holds, Between, h, h.le, h.ne', h.not_gt, h.not_ge]

end

/-! ### Without an order -/

/-- What an operator says of two things without an order, which are the same or not. -/
def unordered (same : Bool) : Operator → Bool
  | eq => same
  | ne => !same
  | _ => false

theorem unordered_of_order {op : Operator} (h : op ∈ [lt, le, gt, ge]) (same : Bool) : op.unordered same = false := by
  simp only [List.mem_cons, List.not_mem_nil, or_false] at h
  rcases h with rfl | rfl | rfl | rfl <;> rfl

theorem unordered_eq (op : Operator) (p : Prop) [Decidable p] : (match op with
    | .eq => decide p
    | .ne => decide (¬ p)
    | _ => false) = op.unordered p := by
  cases op <;> simp [unordered]

theorem elim_order (op : Operator) (o : Option Ordering) : (match o with
    | some o => op.holds o
    | none => decide (op = .ne)) = o.elim (op.unordered false) op.holds := by
  cases o with
  | some o => rfl
  | none => cases op <;> rfl

end Appraisal.Operator
