import Appraisal.Proofs.OrderedMap
import Appraisal.Proofs.Text.Blank
import Appraisal.Submission.Basic
import Mathlib.Data.List.Forall2

/-! What a text in the line notation says. Every line makes a binding or none, and the fields are the bindings put one
    after another (`fields_eq_bindings`). The lines of a text of two parts, with a line break between them, are those
    of the parts, except that a carriage return at the end of the first part goes with the line break; a line makes
    the same binding with and without it (`bindings_append_line`). -/

namespace Appraisal.Submission.Lines
open Text

/-! ### Bindings -/

/-- The binding that a line makes, if it makes one. -/
def binding? (v : Vocabulary) (line : List Char) : Except Numeral.Fault (Option (String × Value)) :=
  match divide (strip line) with
  | none => .ok none
  | some (name, text) => (value (dropBackticks text)).map fun x => some (v.resolve (String.ofList name), x)

/-- The bindings that some lines make. -/
def bindings (v : Vocabulary) : List (List Char) → Except Numeral.Fault (List (String × Value))
  | [] => .ok []
  | line :: lines => do
    let e ← binding? v line
    let es ← bindings v lines
    return e.toList ++ es

variable {v : Vocabulary}

theorem assign_eq_binding? (m : OrderedMap Value) (line : List Char) :
    assign v m line = (binding? v line).map fun e => m.putAll e.toList := by
  unfold assign binding?
  cases divide (strip line) with
  | none => rfl
  | some p =>
    obtain ⟨name, text⟩ := p
    dsimp only
    cases value (dropBackticks text) <;> rfl

theorem foldlM_assign (lines : List (List Char)) (m : OrderedMap Value) :
    lines.foldlM (assign v) m = (bindings v lines).map m.putAll := by
  induction lines generalizing m with
  | nil => rfl
  | cons line lines ih =>
    rw [List.foldlM_cons, assign_eq_binding?, bindings]
    cases binding? v line with
    | error f => rfl
    | ok e =>
      show lines.foldlM (assign v) (m.putAll e.toList) = _
      rw [ih]
      cases bindings v lines with
      | error f => rfl
      | ok es =>
        show Except.ok _ = Except.ok _
        rw [OrderedMap.putAll_append]

/-- The fields of a text are the bindings of its lines one after another. -/
theorem fields_eq_bindings (text : List Char) : fields v text = (bindings v (split text)).map .ofList :=
  foldlM_assign (split text) .empty

theorem bindings_append {ls ms : List (List Char)} {es fs : List (String × Value)} (hl : bindings v ls = .ok es)
    (hm : bindings v ms = .ok fs) : bindings v (ls ++ ms) = .ok (es ++ fs) := by
  induction ls generalizing es with
  | nil =>
    cases hl
    exact hm
  | cons line ls ih =>
    obtain ⟨e, he, hl⟩ := Outcome.bind_eq_ok_iff.1 hl
    obtain ⟨es', hes, hl⟩ := Outcome.bind_eq_ok_iff.1 hl
    cases hl
    rw [List.cons_append, bindings, he, ih hes, List.append_assoc]
    rfl

/-! ### Lines -/

/-- The second line is the first one, perhaps with a carriage return after it. -/
def Returned (line line' : List Char) : Prop := line' = line ∨ line' = line ++ ['\r']

theorem Returned.strip_eq {line line' : List Char} (h : Returned line line') : strip line' = strip line := by
  rcases h with rfl | rfl
  · rfl
  · exact strip_append (List.forall_mem_singleton.2 rfl)

theorem Returned.cons {line line' : List Char} (c : Char) (h : Returned line line') :
    Returned (c :: line) (c :: line') := by
  rcases h with rfl | rfl
  · exact Or.inl rfl
  · exact Or.inr rfl

theorem bindings_eq_of_returned {ls ms : List (List Char)} (h : List.Forall₂ Returned ls ms) :
    bindings v ls = bindings v ms := by
  induction h with
  | nil => rfl
  | cons h _ ih => rw [bindings, bindings, binding?, binding?, h.strip_eq, ih]

theorem split_ne_nil (cs : List Char) : split cs ≠ [] := by
  unfold split
  split
  · simp
  · simp
  · simp
  · split <;> simp

/-- The lines of a text whose first character ends no line. -/
theorem split_cons {c : Char} {cs line : List Char} {lines : List (List Char)} (hc : c ≠ '\n')
    (hreturn : c = '\r' → ∀ rest, cs ≠ '\n' :: rest) (h : split cs = line :: lines) :
    split (c :: cs) = (c :: line) :: lines := by
  rw [split]
  · rw [h]
  · exact fun rest hr => hreturn hr rest
  · exact hc

theorem split_of_oneLine {line : List Char} (h : '\n' ∉ line) : split line = [line] := by
  induction line with
  | nil => rfl
  | cons c cs ih =>
    obtain ⟨hc, hcs⟩ := List.ne_and_not_mem_of_not_mem_cons h
    refine split_cons (Ne.symm hc) ?_ (ih hcs)
    rintro - rest rfl
    exact hcs List.mem_cons_self

theorem split_append_line (a b : List Char) :
    List.Forall₂ Returned (split (a ++ '\n' :: b)) (split a ++ split b) := by
  have same : ∀ ls : List (List Char), List.Forall₂ Returned ls ls := fun ls =>
    List.forall₂_same.2 fun line _ => Or.inl rfl
  fun_induction split a with
  | case1 => exact same _
  | case2 cs ih => exact .cons (Or.inl rfl) ih
  | case3 cs ih => exact .cons (Or.inl rfl) ih
  | case4 c cs _ _ hnil => exact absurd hnil (split_ne_nil cs)
  | case5 c cs hreturn hc line lines hlines ih =>
    by_cases hend : c = '\r' ∧ cs = []
    · -- A carriage return at the end of the first part goes with the line break.
      obtain ⟨rfl, rfl⟩ := hend
      cases hlines
      exact .cons (Or.inr rfl) (same _)
    · cases hmore : split (cs ++ '\n' :: b) with
      | nil => exact absurd hmore (split_ne_nil _)
      | cons line' lines' =>
        rw [hlines, hmore] at ih
        obtain ⟨hline, hrest⟩ := List.forall₂_cons.1 ih
        rw [List.cons_append, split_cons hc ?_ hmore]
        · exact .cons (hline.cons c) hrest
        · rintro rfl rest hrest
          cases cs with
          | nil => exact hend ⟨rfl, rfl⟩
          | cons d cs =>
            cases hrest
            exact hreturn cs rfl rfl

theorem bindings_append_line (a b : List Char) :
    bindings v (split (a ++ '\n' :: b)) = bindings v (split a ++ split b) :=
  bindings_eq_of_returned (split_append_line a b)

/-! ### Reading a text -/

theorem ofLines_eq_bindings (text : List Char) : ofLines v text = match bindings v (split text) with
    | .ok es => .ok ⟨.lines, .ofList es, false⟩
    | .error f => .error (.numeral f) := by
  rw [ofLines, fields_eq_bindings]
  cases bindings v (split text) <;> rfl

theorem ofLines_eq_ok_iff {text : List Char} {s : Submission} :
    ofLines v text = .ok s ↔ ∃ es, bindings v (split text) = .ok es ∧ ⟨.lines, .ofList es, false⟩ = s := by
  rw [ofLines_eq_bindings]
  cases bindings v (split text) <;> simp

end Appraisal.Submission.Lines
