import Appraisal.Appraise
import Appraisal.Proofs.Citation.Record
import Appraisal.Proofs.Citation.Stamp

/-! Appraising is reproducible. The moment and the beginning of the ids go into the trace only: the same text fails in
    the same way at any two moments, or is decided in the same way (`appraise_reproducible`). The fingerprint knows
    nothing of the moment; the trace id depends on its stamp alone, and notices every change of one character. -/

namespace Appraisal

open Citation

/-! ### The stamp in a trace id -/

/-- The texts differ in exactly one character. -/
def DifferInOne (s t : String) : Prop :=
  ∃ before c e after, c ≠ e ∧ s.toList = before ++ c :: after ∧ t.toList = before ++ e :: after

theorem Citation.unescaped_of_mem_stamp {m : Moment} {s : String} (h : m.stamp = .ok s) {c : Char}
    (hc : c ∈ s.toList) : Unescaped c := by
  obtain ⟨hlow, hhigh⟩ := Moment.bounds_of_isStampChar (Moment.isStampChar_of_mem h hc)
  exact ⟨Value.escapeChar_of_bounds (by omega) (by omega), by omega⟩

theorem Citation.hash_record_ne_of_stamps {m₁ m₂ : Moment} {s₁ s₂ : String} (h₁ : m₁.stamp = .ok s₁)
    (h₂ : m₂.stamp = .ok s₂) (hdiffer : DifferInOne s₁ s₂) (d : Decision) (r : Ruleset) :
    hash (record d r (some s₁)).canonical ≠ hash (record d r (some s₂)).canonical := by
  obtain ⟨before, c, e, after, hce, hs₁, hs₂⟩ := hdiffer
  have hc : Unescaped c := unescaped_of_mem_stamp h₁ (by simp [hs₁])
  have he : Unescaped e := unescaped_of_mem_stamp h₂ (by simp [hs₂])
  exact hash_record_ne d r hs₁ hs₂ hce hc he

/-! ### Two moments -/

/-- Appraisals of the same submission: alike but for the trace, and in the trace alike but for the stamp and what
    depends on it. -/
structure Alike (head₁ head₂ : String) (a₁ a₂ : Appraised) : Prop where
  decision : a₁.decision = a₂.decision
  dialect : a₁.dialect = a₂.dialect
  seenQuery : a₁.seenQuery = a₂.seenQuery
  fingerprint : ∃ digits, IsHashDigits digits ∧
    a₁.trace.fingerprint = head₁ ++ digits ∧ a₂.trace.fingerprint = head₂ ++ digits
  traceId : ∃ digits₁ digits₂, IsHashDigits digits₁ ∧ IsHashDigits digits₂ ∧
    a₁.trace.traceId = head₁ ++ digits₁ ∧ a₂.trace.traceId = head₂ ++ digits₂ ∧
    (a₁.trace.submittedAt = a₂.trace.submittedAt → digits₁ = digits₂) ∧
    (DifferInOne a₁.trace.submittedAt a₂.trace.submittedAt → digits₁ ≠ digits₂)

namespace Ruleset

/-- What the rules decide on a submission. -/
def decided (r : Ruleset) (s : Submission) : Decision :=
  let (fields, derivations) := Rating.derive r.vocabulary s.fields
  r.decide fields derivations

/-- What the rules decide on some fields and what is derived from them. -/
def decidedOn (r : Ruleset) (fields : OrderedMap Value) : Decision :=
  r.decide (Rating.derive r.vocabulary fields).1 (Rating.derive r.vocabulary fields).2

/-- The appraisal of a submission with the given stamp. -/
def appraised (r : Ruleset) (s : Submission) (stamp head : String) : Appraised where
  decision := r.decided s
  dialect := s.dialect
  seenQuery := s.seenQuery
  trace :=
    { submittedAt := stamp
      fingerprint := recordId head (record (r.decided s) r none)
      traceId := recordId head (record (r.decided s) r (some stamp)) }

theorem appraise_of_stamp (r : Ruleset) (text : List Char) {now : Moment} {stamp : String} (h : now.stamp = .ok stamp)
    (head : String) : r.appraise text now head =
      match Submission.read r.vocabulary text with
      | .error f => .error (.submission f)
      | .ok s => .ok (r.appraised s stamp head) := by
  unfold appraise
  cases Submission.read r.vocabulary text with
  | error f => rfl
  | ok s =>
    simp only [trace, h, Except.map]
    rfl

theorem appraise_of_read (r : Ruleset) {text : List Char} {s : Submission} (h : Submission.read r.vocabulary text = .ok s)
    (now : Moment) (head : String) : r.appraise text now head =
      match now.stamp with
      | .error e => .error (.outOfCalendar e)
      | .ok stamp => .ok (r.appraised s stamp head) := by
  simp only [appraise, h, trace]
  cases now.stamp <;> rfl

theorem appraise_eq_ok {r : Ruleset} {text : List Char} {now : Moment} {head : String} {a : Appraised}
    (h : r.appraise text now head = .ok a) :
    ∃ s, Submission.read r.vocabulary text = .ok s ∧ a.decision = r.decided s ∧ a.dialect = s.dialect := by
  cases hread : Submission.read r.vocabulary text with
  | error f =>
    rw [appraise, hread] at h
    cases h
  | ok s =>
    rw [r.appraise_of_read hread] at h
    split at h
    · cases h
    · cases h
      exact ⟨s, rfl, rfl, rfl⟩

theorem appraise_eq_submission_iff {r : Ruleset} {text : List Char} {now : Moment} {head : String} {f : Submission.Fault} :
    r.appraise text now head = .error (.submission f) ↔ Submission.read r.vocabulary text = .error f := by
  cases hread : Submission.read r.vocabulary text with
  | error g => simp [appraise, hread]
  | ok s =>
    rw [r.appraise_of_read hread]
    split <;> simp

/-- Texts that say the same for the rules are appraised alike. -/
theorem appraise_congr (r : Ruleset) {text₁ text₂ : List Char} {s₁ s₂ : Submission}
    (h₁ : Submission.read r.vocabulary text₁ = .ok s₁) (h₂ : Submission.read r.vocabulary text₂ = .ok s₂)
    (hdecided : r.decided s₁ = r.decided s₂) (hdialect : s₁.dialect = s₂.dialect)
    (hquery : s₁.seenQuery = s₂.seenQuery) (now : Moment) (head : String) :
    r.appraise text₁ now head = r.appraise text₂ now head := by
  simp only [r.appraise_of_read h₁, r.appraise_of_read h₂, appraised, hdecided, hdialect, hquery]

theorem appraised_alike (r : Ruleset) (s : Submission) {m₁ m₂ : Moment} {s₁ s₂ : String} (h₁ : m₁.stamp = .ok s₁)
    (h₂ : m₂.stamp = .ok s₂) (head₁ head₂ : String) :
    Alike head₁ head₂ (r.appraised s s₁ head₁) (r.appraised s s₂ head₂) where
  decision := rfl
  dialect := rfl
  seenQuery := rfl
  fingerprint := ⟨_, isHashDigits _, rfl, rfl⟩
  traceId := by
    refine ⟨_, _, isHashDigits _, isHashDigits _, rfl, rfl, ?_, ?_⟩
    · intro hstamps
      have hstamps : s₁ = s₂ := hstamps
      rw [hstamps]
    · intro hdiffer hdigits
      exact hash_record_ne_of_stamps h₁ h₂ hdiffer _ r (hashDigits_inj.1 hdigits)

/-- The same text at two moments: the same failure to read it, or the same decision with traces that tell no more apart
    than the stamps do. -/
theorem appraise_reproducible (r : Ruleset) (text : List Char) {now₁ now₂ : Moment} (h₁ : now₁.InRange)
    (h₂ : now₂.InRange) (head₁ head₂ : String) :
    (∃ f, Submission.read r.vocabulary text = .error f ∧ r.appraise text now₁ head₁ = .error (.submission f) ∧
      r.appraise text now₂ head₂ = .error (.submission f)) ∨
    ∃ a₁ a₂, r.appraise text now₁ head₁ = .ok a₁ ∧ r.appraise text now₂ head₂ = .ok a₂ ∧
      now₁.stamp = .ok a₁.trace.submittedAt ∧ now₂.stamp = .ok a₂.trace.submittedAt ∧ Alike head₁ head₂ a₁ a₂ := by
  obtain ⟨s₁, hs₁⟩ := Moment.exists_stamp h₁
  obtain ⟨s₂, hs₂⟩ := Moment.exists_stamp h₂
  rw [appraise_of_stamp r text hs₁, appraise_of_stamp r text hs₂]
  cases Submission.read r.vocabulary text with
  | error f => exact .inl ⟨f, rfl, rfl, rfl⟩
  | ok s => exact .inr ⟨_, _, rfl, rfl, hs₁, hs₂, appraised_alike r s hs₁ hs₂ head₁ head₂⟩

/-- A millisecond later the fingerprint is the same and the trace id another. -/
theorem appraise_reproducible_millisecond :
    let r : Ruleset := ⟨"SSE", "1.0", "notes", .standard, .empty, .empty, [], .empty⟩
    let now (ms : Nat) : Moment := ⟨⟨2024, 5, 1⟩, 10, 0, 0, 1000 * ms, some 7200⟩
    ∃ a₁ a₂, r.appraise "A: 1".toList (now 250) "SSE-" = .ok a₁ ∧ r.appraise "A: 1".toList (now 251) "SSE-" = .ok a₂ ∧
      a₁.trace.submittedAt = "2024-05-01T08:00:00.250Z" ∧ a₂.trace.submittedAt = "2024-05-01T08:00:00.251Z" ∧
      a₁.trace.fingerprint = a₂.trace.fingerprint ∧ a₁.trace.traceId ≠ a₂.trace.traceId := by
  intro r now
  have hdate : Date.Valid ⟨2024, 5, 1⟩ := by
    unfold Date.Valid
    decide
  have hends : (⟨2024, 5, 1⟩ : Date) ≠ ⟨1, 1, 1⟩ ∧ (⟨2024, 5, 1⟩ : Date) ≠ ⟨9999, 12, 31⟩ := by decide
  have hnow : ∀ ms, (now ms).InRange := fun ms => ⟨hdate, (absurd · hends.1), (absurd · hends.2)⟩
  have hread : (Submission.read r.vocabulary "A: 1".toList).isOk = true := by decide +kernel
  have hstamp₁ : (now 250).stamp = .ok "2024-05-01T08:00:00.250Z" := by decide +kernel
  have hstamp₂ : (now 251).stamp = .ok "2024-05-01T08:00:00.251Z" := by decide +kernel
  rcases appraise_reproducible r "A: 1".toList (hnow 250) (hnow 251) "SSE-" "SSE-" with
    ⟨f, hfault, -⟩ | ⟨a₁, a₂, ha₁, ha₂, hs₁, hs₂, halike⟩
  · rw [hfault] at hread
    cases hread
  · rw [hstamp₁] at hs₁
    rw [hstamp₂] at hs₂
    injection hs₁ with hs₁
    injection hs₂ with hs₂
    obtain ⟨digits, -, hf₁, hf₂⟩ := halike.fingerprint
    obtain ⟨digits₁, digits₂, -, -, ht₁, ht₂, -, hdiffer⟩ := halike.traceId
    refine ⟨a₁, a₂, ha₁, ha₂, hs₁.symm, hs₂.symm, hf₁.trans hf₂.symm, ?_⟩
    rw [ht₁, ht₂, ne_eq, String.append_right_inj]
    refine hdiffer ?_
    rw [← hs₁, ← hs₂]
    exact ⟨"2024-05-01T08:00:00.25".toList, '0', '1', ['Z'], by decide, rfl, rfl⟩

end Ruleset
end Appraisal
