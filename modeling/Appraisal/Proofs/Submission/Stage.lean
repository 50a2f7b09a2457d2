import Appraisal.Proofs.Submission.Grammar

/-! How far kinds of tokens may go. The grammar of programs is recognised from left to right with finitely many
    stages: between statements, in a path, before a value, before a semicolon. Kinds are those of a program exactly
    if they lead from the start back to it (`run_eq_start_iff`). A stage can always be completed (`run_completion`),
    so kinds that lead to a stage begin a program, and kinds that lead to none begin no program
    (`exists_program_iff`). -/

namespace Appraisal.Submission.Grammar

/-- Where a path stands in an assignment. -/
inductive Side where
  | key
  | value
  deriving DecidableEq

/-- What has been read of the current statement. -/
inductive Stage where
  /-- Nothing: a statement may begin here. -/
  | start
  | word (side : Side)
  | dot (side : Side)
  | separator
  /-- All but the semicolon, where the statement is a query or has a value that is no path. -/
  | finish
  deriving DecidableEq

namespace Stage

/-- The stage after a kind, if it may stand there. -/
def step : Stage → Kind → Option Stage
  | start, .word => some (word .key)
  | start, .check | start, .eval => some finish
  | word side, .dot => some (dot side)
  | dot side, .word => some (word side)
  | word .key, .colon | word .key, .equal => some separator
  | separator, .number | separator, .string | separator, .symbol => some finish
  | separator, .word => some (word .value)
  | word .value, .semicolon | finish, .semicolon => some start
  | _, _ => none

theorem step_word_dot (side : Side) : (word side).step .dot = some (dot side) := by
  cases side <;> rfl

theorem step_dot_of_ne {side : Side} {k : Kind} (h : k ≠ .word) : (dot side).step k = none := by
  cases k with
  | word => exact absurd rfl h
  | _ => rfl

theorem step_value_of_ne {k : Kind} (hdot : k ≠ .dot) (hsemi : k ≠ .semicolon) : (word .value).step k = none := by
  cases k with
  | dot => exact absurd rfl hdot
  | semicolon => exact absurd rfl hsemi
  | _ => rfl

theorem step_finish_of_ne {k : Kind} (h : k ≠ .semicolon) : finish.step k = none := by
  cases k with
  | semicolon => exact absurd rfl h
  | _ => rfl

def run (q : Stage) : List Kind → Option Stage
  | [] => some q
  | k :: ks => (q.step k).bind fun q' => q'.run ks

@[simp] theorem run_nil (q : Stage) : q.run [] = some q := rfl

@[simp] theorem run_cons (q : Stage) (k : Kind) (ks : List Kind) :
    q.run (k :: ks) = (q.step k).bind fun q' => q'.run ks := rfl

theorem run_append (q : Stage) (ks ls : List Kind) : q.run (ks ++ ls) = (q.run ks).bind fun q' => q'.run ls := by
  induction ks generalizing q with
  | nil => rfl
  | cons k ks ih =>
    rw [List.cons_append, run_cons, run_cons]
    cases q.step k with
    | none => rfl
    | some q' => exact ih q'

/-! ### Programs lead back to the start -/

theorem run_pathTail {ks : List Kind} (h : IsPathTail ks) (side : Side) : (word side).run ks = some (word side) := by
  induction h with
  | nil => rfl
  | cons _ ih => exact ih

theorem run_value {ks : List Kind} (h : IsValue ks) : separator.run (ks ++ [.semicolon]) = some start := by
  cases h with
  | number => rfl
  | string => rfl
  | symbol => rfl
  | path hp =>
    obtain @⟨ks, tail⟩ := hp
    show (word .value).run (ks ++ [.semicolon]) = some start
    rw [run_append, run_pathTail tail .value]
    rfl

theorem run_statement {ks : List Kind} (h : IsStatement ks) : start.run ks = some start := by
  cases h with
  | @assignment _ value mark hp hs hv =>
    obtain @⟨ks, tail⟩ := hp
    show (word .key).run (ks ++ mark :: (value ++ [.semicolon])) = some start
    rw [run_append, run_pathTail tail .key]
    rcases hs with rfl | rfl
    · exact run_value hv
    · exact run_value hv
  | query hk =>
    rcases hk with rfl | rfl
    · rfl
    · rfl

theorem run_program {ks : List Kind} (h : IsProgram ks) : start.run ks = some start := by
  induction h with
  | nil => rfl
  | cons first _ ih =>
    rw [run_append, run_statement first]
    exact ih

/-! ### What leads back to the start is a program -/

/-- The kinds complete a program after a word. -/
def CompletesWord : Side → List Kind → Prop
  | .key, ks => ∃ tail mark value more, ks = tail ++ mark :: (value ++ .semicolon :: more) ∧ IsPathTail tail ∧
      (mark = .colon ∨ mark = .equal) ∧ IsValue value ∧ IsProgram more
  | .value, ks => ∃ tail more, ks = tail ++ .semicolon :: more ∧ IsPathTail tail ∧ IsProgram more

/-- The kinds complete a program from the stage. -/
def Completes : Stage → List Kind → Prop
  | start, ks => IsProgram ks
  | word side, ks => CompletesWord side ks
  | dot side, ks => ∃ more, ks = .word :: more ∧ CompletesWord side more
  | separator, ks => ∃ value more, ks = value ++ .semicolon :: more ∧ IsValue value ∧ IsProgram more
  | finish, ks => ∃ more, ks = .semicolon :: more ∧ IsProgram more

theorem completesWord_dot {side : Side} {ks : List Kind} (h : CompletesWord side ks) :
    CompletesWord side (.dot :: .word :: ks) := by
  cases side with
  | key =>
    obtain ⟨tail, mark, value, more, rfl, htail, hrest⟩ := h
    exact ⟨.dot :: .word :: tail, mark, value, more, rfl, .cons htail, hrest⟩
  | value =>
    obtain ⟨tail, more, rfl, htail, hmore⟩ := h
    exact ⟨.dot :: .word :: tail, more, rfl, .cons htail, hmore⟩

theorem completes_cons {q q' : Stage} {k : Kind} {ks : List Kind} (hstep : q.step k = some q') (h : q'.Completes ks) :
    q.Completes (k :: ks) := by
  unfold step at hstep
  split at hstep <;> cases hstep
  · obtain ⟨tail, sep, value, more, rfl, htail, hsep, hvalue, hmore⟩ := h
    have hprogram := IsProgram.cons (IsStatement.assignment (.path htail) hsep hvalue) hmore
    simp only [List.cons_append, List.append_assoc, List.nil_append] at hprogram
    exact hprogram
  · obtain ⟨more, rfl, hmore⟩ := h
    exact .cons (.query (Or.inl rfl)) hmore
  · obtain ⟨more, rfl, hmore⟩ := h
    exact .cons (.query (Or.inr rfl)) hmore
  · obtain ⟨more, rfl, h⟩ := h
    exact completesWord_dot h
  · exact ⟨ks, rfl, h⟩
  · obtain ⟨value, more, rfl, hvalue, hmore⟩ := h
    exact ⟨[], .colon, value, more, rfl, .nil, Or.inl rfl, hvalue, hmore⟩
  · obtain ⟨value, more, rfl, hvalue, hmore⟩ := h
    exact ⟨[], .equal, value, more, rfl, .nil, Or.inr rfl, hvalue, hmore⟩
  · obtain ⟨more, rfl, hmore⟩ := h
    exact ⟨[.number], more, rfl, .number, hmore⟩
  · obtain ⟨more, rfl, hmore⟩ := h
    exact ⟨[.string], more, rfl, .string, hmore⟩
  · obtain ⟨more, rfl, hmore⟩ := h
    exact ⟨[.symbol], more, rfl, .symbol, hmore⟩
  · obtain ⟨tail, more, rfl, htail, hmore⟩ := h
    exact ⟨.word :: tail, more, rfl, .path (.path htail), hmore⟩
  · exact ⟨[], ks, rfl, .nil, h⟩
  · exact ⟨ks, rfl, h⟩

theorem completes_of_run {q : Stage} {ks : List Kind} (h : q.run ks = some start) : q.Completes ks := by
  induction ks generalizing q with
  | nil =>
    cases h
    exact .nil
  | cons k ks ih =>
    obtain ⟨q', hstep, hrun⟩ := Option.bind_eq_some_iff.1 h
    exact completes_cons hstep (ih hrun)

theorem run_eq_start_iff {ks : List Kind} : start.run ks = some start ↔ IsProgram ks :=
  ⟨completes_of_run, run_program⟩

instance : DecidablePred IsProgram := fun _ => decidable_of_iff _ run_eq_start_iff

/-! ### Beginnings of programs -/

/-- Kinds that complete a program from the stage. -/
def completion : Stage → List Kind
  | start => []
  | word .key => [.colon, .number, .semicolon]
  | word .value => [.semicolon]
  | dot .key => [.word, .colon, .number, .semicolon]
  | dot .value => [.word, .semicolon]
  | separator => [.number, .semicolon]
  | finish => [.semicolon]

theorem run_completion (q : Stage) : q.run q.completion = some start := by
  cases q with
  | word side => cases side <;> rfl
  | dot side => cases side <;> rfl
  | _ => rfl

/-- Kinds begin a program exactly if they lead to a stage. -/
theorem exists_program_iff {ks : List Kind} : (∃ more, IsProgram (ks ++ more)) ↔ ∃ q, start.run ks = some q := by
  constructor
  · rintro ⟨more, h⟩
    rw [← run_eq_start_iff, run_append] at h
    obtain ⟨q, hq, -⟩ := Option.bind_eq_some_iff.1 h
    exact ⟨q, hq⟩
  · rintro ⟨q, hq⟩
    refine ⟨q.completion, ?_⟩
    rw [← run_eq_start_iff, run_append, hq]
    exact run_completion q

/-! ### Where statements end -/

/-- Only a semicolon leads to the start. -/
theorem semicolon_mem_of_run {q : Stage} {ks : List Kind} (hne : ks ≠ []) (h : q.run ks = some start) :
    .semicolon ∈ ks := by
  induction ks generalizing q with
  | nil => exact absurd rfl hne
  | cons k ks ih =>
    obtain ⟨q', hstep, hrun⟩ := Option.bind_eq_some_iff.1 h
    cases ks with
    | nil =>
      cases hrun
      unfold step at hstep
      split at hstep <;> cases hstep
      · exact List.mem_cons_self
      · exact List.mem_cons_self
    | cons l ls => exact List.mem_cons_of_mem k (ih (List.cons_ne_nil l ls) hrun)

end Stage
end Appraisal.Submission.Grammar
