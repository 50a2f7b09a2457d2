import Appraisal.Proofs.Submission.Bindings
import Appraisal.Proofs.Submission.FirstSeparator
import Appraisal.Proofs.Submission.Normalize
import Appraisal.Proofs.Vocabulary

/-! What the fields of a submission are, in either notation. Every value is a number or a text in normal form, since a
    text is put in lower case and loses its backticks when it is bound; and every key is a canonical name or a name that
    no canonical name stands for, since keys are resolved when they are bound (`fields_settled`). -/

namespace Appraisal.Submission
open Text

/-! ### Values -/

/-- A value of a field: a number, or a text in normal form. -/
inductive Settled : Value → Prop
  | number (n : Number) : Settled (.number n)
  | text {s : String} (noBacktick : '\x60' ∉ s.toList) (lower : lowerText s = s) (normal : normalize s = s) :
      Settled (.text s)

theorem settled_normalize (s : String) : Settled (.text (normalize s)) := by
  have hlower : ∀ c ∈ (normalize s).toList, Case.IsLower c := by
    intro c hc
    rw [normalize, String.toList_ofList] at hc
    exact Case.isLower_of_mem_lower (List.mem_of_mem_filter hc)
  have hbacktick : '\x60' ∉ (normalize s).toList := by
    rw [normalize, String.toList_ofList]
    exact backtick_not_mem_dropBackticks
  refine .text hbacktick ?_ ?_
  · rw [lowerText, Case.lower_of_isLower hlower, String.ofList_toList]
  · rw [normalize, Case.lower_of_isLower hlower, dropBackticks_eq_self hbacktick, String.ofList_toList]

theorem settled_literal (x : Literal) : Settled x.value := by
  cases x with
  | number n => exact .number n
  | text s => exact settled_normalize s

theorem Lines.Denotes.settled {cs : List Char} {x : Value} (h : Denotes cs x) (noBacktick : '\x60' ∉ cs) : Settled x := by
  cases h with
  | number n within => exact .number n.value
  | text noNumeral =>
    have hnormal := settled_normalize (String.ofList cs)
    rwa [normalize, String.toList_ofList, dropBackticks_lower, dropBackticks_eq_self noBacktick] at hnormal

/-! ### Bindings -/

theorem Lines.Binds.settled {v : Vocabulary} {lines : List (List Char)} {es : List (String × Value)}
    (h : Binds v lines es) : ∀ e ∈ es, Settled e.2 := by
  induction h with
  | nil => exact fun e he => absurd he List.not_mem_nil
  | skip _ _ ih => exact ih
  | bind _ denotes _ ih => exact List.forall_mem_cons.2 ⟨denotes.settled backtick_not_mem_dropBackticks, ih⟩

theorem settled_of_bindings {text : List Char} {es : List (String × Value)} (h : bindings text = .ok es) :
    ∀ e ∈ es, Settled e.2 := by
  unfold bindings at h
  split at h
  · obtain ⟨ss, -, rfl⟩ := Outcome.map_eq_ok_iff.1 h
    intro e he
    obtain ⟨s, -, hs⟩ := List.mem_filterMap.1 he
    cases s with
    | query q => cases hs
    | assign path x =>
      cases hs
      exact settled_literal x
  · split at h <;> cases h
    rename_i hlines
    exact (Lines.bindings_eq_ok_iff.1 hlines).settled

/-! ### Fields -/

/-- The keys of what is read are distinct, and each of them is a canonical name or a name that stands for nothing; the
    values are numbers and texts in normal form. -/
theorem fields_settled (aliases : OrderedMap (List String)) (text : List Char) (s : Submission)
    (h : read (.ofAliases aliases) text = .ok s) :
    s.fields.keys.Nodup ∧
    (∀ key ∈ s.fields.keys, key ∈ aliases.keys ∨ Vocabulary.lookupKey key ∉ (Vocabulary.ofAliases aliases).keys) ∧
    ∀ e ∈ s.fields.entries, Settled e.2 := by
  obtain ⟨es, hes, hfields⟩ := exists_bindings_of_read h
  have hentries : ∀ e ∈ s.fields.entries, ∃ f ∈ es, (Vocabulary.ofAliases aliases).rename f = e := by
    rw [hfields]
    exact fun e he => List.mem_map.1 (OrderedMap.mem_of_mem_ofList he)
  refine ⟨s.fields.keys_nodup, fun key hkey => ?_, fun e he => ?_⟩
  · obtain ⟨e, he, rfl⟩ := List.mem_map.1 hkey
    obtain ⟨f, -, rfl⟩ := hentries e he
    exact Vocabulary.resolve_mem_or_unknown aliases f.1
  · obtain ⟨f, hf, rfl⟩ := hentries e he
    exact settled_of_bindings hes f hf

/-- A synonym that is read as its canonical name, a key that is not known, and a text with capital sigmas, of which the
    last one stands at the end of a word before a backtick. -/
theorem fields_settled_sigma : ∃ s,
    read (.ofAliases Vocabulary.crossed.aliases) "state: \"ΣΑΣ\x60 İ\"; Free: 1;".toList = .ok s ∧
    s.fields.keys = ["Phase", "Free"] ∧ (s.fields.get? "Phase").map Value.display = some "σας i̇" ∧
    s.fields.keys.Nodup ∧
    (∀ key ∈ s.fields.keys, key ∈ Vocabulary.crossed.aliases.keys ∨
      Vocabulary.lookupKey key ∉ (Vocabulary.ofAliases Vocabulary.crossed.aliases).keys) ∧
    ∀ e ∈ s.fields.entries, Settled e.2 := by
  let one : Numeral.Plain := ⟨false, ['1'], none, by simp, by simp, by simp, by simp⟩
  have hlexes : Lexes (List.flatMap Grammar.Clause.lexemes [.assign ⟨"state", []⟩ .colon (.string "ΣΑΣ\x60 İ"),
      .assign ⟨"Free", []⟩ .colon (.number one)]) "state: \"ΣΑΣ\x60 İ\"; Free: 1;".toList :=
    Outcome.map_eq_ok_iff.1 (by decide +kernel)
  have hread := Grammar.ofProgram_eq_ok_iff_lexes (v := .ofAliases Vocabulary.crossed.aliases).2
    ⟨_, hlexes, by simp [Grammar.Clause.Within, Grammar.Operand.Within, Numeral.Plain.Within, one, digitLimit], rfl⟩
  rw [← read_of_statements (by decide +kernel)] at hread
  exact ⟨_, hread, by decide +kernel, by decide +kernel, fields_settled _ _ _ hread⟩

end Appraisal.Submission
