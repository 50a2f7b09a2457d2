import Appraisal.Text.Class
import Mathlib.Data.List.TakeWhile

/-! Runs of characters. A run of a class is followed by nothing or by a character outside the class, so the run and
    what follows it are found again in the text: taking characters of the class gives the run (`takeWhile_run`),
    dropping them gives the rest (`dropWhile_run`), and no longer run of the class stands there (`run_longest`). -/

namespace Appraisal.Text

/-- No character of the class `p` stands at the head of the text. -/
def Stops (p : Char → Bool) (cs : List Char) : Prop := ∀ c ∈ cs.head?, p c = false

section
variable {p : Char → Bool} {run rest : List Char}

@[simp] theorem stops_nil : Stops p [] := by simp [Stops]

@[simp] theorem stops_cons {c : Char} {cs : List Char} : Stops p (c :: cs) ↔ p c = false := by simp [Stops]

theorem stops_dropWhile (cs : List Char) : Stops p (cs.dropWhile p) := by
  intro c hc
  have := List.head?_dropWhile_not p cs
  rw [Option.mem_def.1 hc] at this
  exact this

theorem takeWhile_run (hrun : ∀ c ∈ run, p c = true) (hrest : Stops p rest) : (run ++ rest).takeWhile p = run := by
  rw [List.takeWhile_append_of_pos hrun]
  cases rest with
  | nil => simp
  | cons c cs => simp [stops_cons.1 hrest]

theorem dropWhile_run (hrun : ∀ c ∈ run, p c = true) (hrest : Stops p rest) : (run ++ rest).dropWhile p = rest := by
  rw [List.dropWhile_append_of_pos hrun]
  cases rest with
  | nil => rfl
  | cons c cs => simp [stops_cons.1 hrest]

theorem stops_append {c : Char} {cs : List Char} (h : Stops p cs) (hc : p c = false) (more : List Char) :
    Stops p (cs ++ c :: more) := by
  cases cs with
  | nil => exact stops_cons.2 hc
  | cons d ds => exact stops_cons.2 (stops_cons.1 h)

theorem stops_of_append {cs more : List Char} (h : Stops p (cs ++ more)) : Stops p cs := by
  cases cs with
  | nil => exact stops_nil
  | cons c cs => exact stops_cons.2 (stops_cons.1 h)

/-- The run at the head of a text does not reach over a character outside the class. -/
theorem takeWhile_append_stop {d : Char} (hd : p d = false) (cs more : List Char) :
    (cs ++ d :: more).takeWhile p = cs.takeWhile p := by
  induction cs with
  | nil => simp [hd]
  | cons c cs ih => rw [List.cons_append, List.takeWhile_cons, List.takeWhile_cons, ih]

theorem dropWhile_append_stop {d : Char} (hd : p d = false) (cs more : List Char) :
    (cs ++ d :: more).dropWhile p = cs.dropWhile p ++ d :: more := by
  induction cs with
  | nil => simp [hd]
  | cons c cs ih =>
    rw [List.cons_append, List.dropWhile_cons, List.dropWhile_cons, ih]
    split <;> rfl

theorem dropWhile_eq_self (h : Stops p rest) : rest.dropWhile p = rest := @dropWhile_run p [] rest (by simp) h

/-- Characters of the class at the head of the text are among those of the run. -/
theorem run_longest {other : List Char} (hrest : Stops p rest) (hother : ∀ c ∈ other, p c = true)
    (h : other <+: run ++ rest) : other <+: run := by
  induction run generalizing other with
  | nil =>
    cases other with
    | nil => exact List.nil_prefix
    | cons c cs =>
      obtain ⟨more, rfl⟩ := h
      have := stops_cons.1 hrest
      rw [hother c (by simp)] at this
      cases this
  | cons d run ih =>
    cases other with
    | nil => exact List.nil_prefix
    | cons c cs =>
      obtain ⟨rfl, htail⟩ := List.cons_prefix_cons.1 h
      exact List.cons_prefix_cons.2 ⟨rfl, ih (fun e he => hother e (List.mem_cons_of_mem _ he)) htail⟩

theorem ne_of_class {c d : Char} (hc : p c = true) (hd : p d = false) : c ≠ d := by
  rintro rfl
  rw [hc] at hd
  cases hd

end

/-! ### Digits -/

/-- Plain digits are their own plain form. -/
theorem plainDigits?_of_digits {ds : List Char} (hne : ds ≠ []) (h : ∀ c ∈ ds, c.isDigit = true) :
    plainDigits? ds = some ds := by
  fun_induction plainDigits? ds with
  | case1 => exact absurd rfl hne
  | case2 c => simp [plainDigit?_of_isDigit (h c (by simp))]
  | case3 c cs =>
    have := h '_' (by simp)
    cases this
  | case4 c d cs _ ih =>
    rw [plainDigit?_of_isDigit (h c (by simp)), ih (by simp) fun x hx => h x (List.mem_cons_of_mem _ hx)]
    rfl

end Appraisal.Text
