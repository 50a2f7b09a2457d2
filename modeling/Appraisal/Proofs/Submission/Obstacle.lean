import Appraisal.Proofs.Submission.Reading

/-! Where reading stops. Each reader of the statement notation leaves a suffix of its tokens where it succeeds, and where
    it fails the obstacle is about a suffix of them; so what stops the reading of all statements is about some of the
    last tokens (`leftOf_of_readAll`). -/

namespace Appraisal.Submission
open Scan Statement Grammar

/-- The tokens that an obstacle is about are the last ones of `ts`. -/
def Statement.Obstacle.LeftOf (ts : List Token) : Obstacle → Prop
  | .grammar _ rest => rest <:+ ts
  | .numeral _ => True

theorem Statement.Obstacle.LeftOf.trans {ts us : List Token} {o : Obstacle} (h : o.LeftOf ts) (hts : ts <:+ us) :
    o.LeftOf us := by
  cases o with
  | grammar f rest => exact List.IsSuffix.trans h hts
  | numeral f => trivial

variable {ts rest : List Token} {o : Obstacle}

/-! ### Parts of a statement -/

theorem suffix_of_pathTail {names : List String} (h : pathTail ts = .ok (names, rest)) : rest <:+ ts := by
  obtain ⟨us, rfl, -, -⟩ := pathTail_eq_ok_iff.1 h
  exact List.suffix_append us rest

theorem leftOf_of_pathTail (h : pathTail ts = .error o) : o.LeftOf ts := by
  fun_induction pathTail ts with
  | case1 q name q' ts ih =>
    exact (ih (Outcome.map_eq_error_iff.1 h)).trans ((List.suffix_cons _ _).trans (List.suffix_cons _ _))
  | case2 q ts =>
    cases h
    exact List.suffix_cons _ _
  | case3 => cases h

theorem suffix_of_afterSeparator (h : afterSeparator ts = .ok rest) : rest <:+ ts := by
  obtain ⟨q, s, rfl⟩ := afterSeparator_eq_ok_iff.1 h
  exact List.suffix_cons _ _

theorem leftOf_of_afterSeparator (h : afterSeparator ts = .error o) : o.LeftOf ts := by
  unfold afterSeparator at h
  split at h <;> cases h
  exact List.suffix_rfl

theorem suffix_of_afterSemicolon (h : afterSemicolon ts = .ok rest) : rest <:+ ts := by
  obtain ⟨q, rfl⟩ := afterSemicolon_eq_ok_iff.1 h
  exact List.suffix_cons _ _

theorem leftOf_of_afterSemicolon (h : afterSemicolon ts = .error o) : o.LeftOf ts := by
  unfold afterSemicolon at h
  split at h <;> cases h
  exact List.suffix_rfl

theorem suffix_of_literal {x : Literal} (h : literal ts = .ok (x, rest)) : rest <:+ ts := by
  unfold literal at h
  split at h
  · split at h <;> cases h
    exact List.suffix_cons _ _
  · cases h
    exact List.suffix_cons _ _
  · cases h
    exact List.suffix_cons _ _
  · obtain ⟨⟨names, rest'⟩, htail, he⟩ := Outcome.map_eq_ok_iff.1 h
    cases he
    exact (suffix_of_pathTail htail).trans (List.suffix_cons _ _)
  · cases h

theorem leftOf_of_literal (h : literal ts = .error o) : o.LeftOf ts := by
  unfold literal at h
  split at h
  · split at h <;> cases h
    trivial
  · cases h
  · cases h
  · exact (leftOf_of_pathTail (Outcome.map_eq_error_iff.1 h)).trans (List.suffix_cons _ _)
  · cases h
    exact List.suffix_rfl

/-! ### Statements -/

theorem leftOf_of_assignment {name : String} (h : assignment name ts = .error o) : o.LeftOf ts := by
  unfold assignment at h
  rcases Outcome.bind_eq_error_iff.1 h with h | ⟨⟨names, t₁⟩, h₁, h⟩
  · exact leftOf_of_pathTail h
  have hsuffix := suffix_of_pathTail h₁
  rcases Outcome.bind_eq_error_iff.1 h with h | ⟨t₂, h₂, h⟩
  · exact (leftOf_of_afterSeparator h).trans hsuffix
  replace hsuffix := (suffix_of_afterSeparator h₂).trans hsuffix
  rcases Outcome.bind_eq_error_iff.1 h with h | ⟨⟨x, t₃⟩, h₃, h⟩
  · exact (leftOf_of_literal h).trans hsuffix
  replace hsuffix := (suffix_of_literal h₃).trans hsuffix
  rcases Outcome.bind_eq_error_iff.1 h with h | ⟨t₄, h₄, h⟩
  · exact (leftOf_of_afterSemicolon h).trans hsuffix
  · cases h

theorem suffix_of_statement {s : Statement} (h : statement ts = .ok (s, rest)) : rest <:+ ts := by
  unfold statement at h
  split at h
  · obtain ⟨_, _, _, _, _, h₁, h₂, h₃, h₄, -⟩ := assignment_eq_ok_iff.1 h
    have hpath := (suffix_of_afterSeparator h₂).trans (suffix_of_pathTail h₁)
    exact (((suffix_of_afterSemicolon h₄).trans (suffix_of_literal h₃)).trans hpath).trans (List.suffix_cons _ _)
  · obtain ⟨rest', hrest, he⟩ := Outcome.map_eq_ok_iff.1 h
    cases he
    exact (suffix_of_afterSemicolon hrest).trans (List.suffix_cons _ _)
  · cases h

theorem leftOf_of_statement (h : statement ts = .error o) : o.LeftOf ts := by
  unfold statement at h
  split at h
  · exact (leftOf_of_assignment h).trans (List.suffix_cons _ _)
  · exact (leftOf_of_afterSemicolon (Outcome.map_eq_error_iff.1 h)).trans (List.suffix_cons _ _)
  · cases h
    exact List.suffix_rfl

theorem leftOf_of_readAll (h : (readAll ts).obstacle = some o) : o.LeftOf ts := by
  fun_induction readAll ts with
  | case1 => cases h
  | case2 ts hne s rest hs ih => exact (ih h).trans (suffix_of_statement hs)
  | case3 ts hne o' hs =>
    cases h
    exact leftOf_of_statement hs

end Appraisal.Submission
