import Appraisal.Proofs.Submission.Grammar

/-! What the readers of the statement notation take: each of them takes exactly the lexemes of what it reads, which
    its lemma says in both directions. Paths go on as long as dots follow, so a path ends where none does. -/

namespace Appraisal.Submission.Grammar
open Scan Statement Numeral

/-! ### Tokens by their lexemes -/

theorem exists_cons_of_lexemes {ts : List Token} {l : Lexeme} {ls : List Lexeme}
    (h : ts.map Token.lexeme = l :: ls) : ∃ q ts', ts = ⟨l, q⟩ :: ts' ∧ ts'.map Token.lexeme = ls := by
  obtain ⟨⟨l', q⟩, ts', rfl, hl, hls⟩ := List.map_eq_cons_iff.1 h
  exact ⟨q, ts', by rw [← hl], hls⟩

theorem exists_of_headKind_dot {ts : List Token} (h : headKind ts = .dot) : ∃ q ts', ts = ⟨.mark .dot, q⟩ :: ts' := by
  cases ts with
  | nil => cases h
  | cons t ts =>
    obtain ⟨l, q⟩ := t
    have hl : l = .mark .dot := by
      have := admits_kind l
      rw [show l.kind = .dot from h] at this
      exact this
    exact ⟨q, ts, by rw [hl]⟩

/-! ### Paths -/

theorem pathTail_of_ne_dot {ts : List Token} (h : headKind ts ≠ .dot) : pathTail ts = .ok ([], ts) := by
  unfold pathTail
  split
  · exact absurd rfl h
  · exact absurd rfl h
  · rfl

theorem pathTail_eq_ok_iff {ts rest : List Token} {names : List String} : pathTail ts = .ok (names, rest) ↔
    ∃ us, ts = us ++ rest ∧ us.map Token.lexeme = Path.tailLexemes names ∧ headKind rest ≠ .dot := by
  constructor
  · intro h
    fun_induction pathTail ts generalizing names with
    | case1 q name q' ts ih =>
      obtain ⟨⟨more, r⟩, hp, he⟩ := Outcome.map_eq_ok_iff.1 h
      cases he
      obtain ⟨us, rfl, hus, hrest⟩ := ih hp
      exact ⟨⟨.mark .dot, q⟩ :: ⟨.word name, q'⟩ :: us, rfl, by simp [Path.tailLexemes, hus], hrest⟩
    | case2 => cases h
    | case3 ts _ hnot =>
      cases h
      refine ⟨[], rfl, rfl, fun hdot => ?_⟩
      obtain ⟨q, ts', rfl⟩ := exists_of_headKind_dot hdot
      exact hnot q ts' rfl
  · rintro ⟨us, rfl, hus, hrest⟩
    induction names generalizing us with
    | nil =>
      obtain rfl := List.map_eq_nil_iff.1 hus
      exact pathTail_of_ne_dot hrest
    | cons name more ih =>
      obtain ⟨q, us₁, rfl, h₁⟩ := exists_cons_of_lexemes hus
      obtain ⟨q', us₂, rfl, h₂⟩ := exists_cons_of_lexemes h₁
      rw [List.cons_append, List.cons_append, pathTail, ih us₂ h₂]
      rfl

/-! ### Marks -/

theorem afterSeparator_eq_ok_iff {ts rest : List Token} : afterSeparator ts = .ok rest ↔
    ∃ q, ∃ s : Separator, ts = ⟨.mark s.mark, q⟩ :: rest := by
  constructor
  · intro h
    unfold afterSeparator at h
    split at h
    · cases h
      exact ⟨_, .colon, rfl⟩
    · cases h
      exact ⟨_, .equal, rfl⟩
    · cases h
  · rintro ⟨q, s, rfl⟩
    cases s <;> rfl

theorem afterSemicolon_eq_ok_iff {ts rest : List Token} : afterSemicolon ts = .ok rest ↔
    ∃ q, ts = ⟨.mark .semicolon, q⟩ :: rest := by
  constructor
  · intro h
    unfold afterSemicolon at h
    split at h
    · cases h
      exact ⟨_, rfl⟩
    · cases h
  · rintro ⟨q, rfl⟩
    rfl

/-! ### Values -/

theorem read_eq_ok_iff {n : Plain} {x : Number} : Numeral.read n.chars = .ok x ↔ n.Within ∧ n.value = x := by
  constructor
  · intro h
    rw [read_chars] at h
    split at h
    · cases h
    · rename_i hlimit
      cases h
      exact ⟨fun hf => Nat.not_lt.1 fun hlt => hlimit ⟨hf, hlt⟩, rfl⟩
  · rintro ⟨h, rfl⟩
    exact read_of_within h

theorem literal_eq_ok_iff {ts rest : List Token} {x : Literal} (hplain : ∀ t ∈ ts, PlainNumber t.lexeme) :
    literal ts = .ok (x, rest) ↔ ∃ us, ∃ o : Operand, ts = us ++ rest ∧ us.map Token.lexeme = o.lexemes ∧ o.Within ∧
      o.literal = x ∧ ((∃ p, o = .path p) → headKind rest ≠ .dot) := by
  constructor
  · intro h
    unfold literal at h
    split at h
    · rename_i numeral q ts
      obtain ⟨n, hn⟩ := hplain _ List.mem_cons_self numeral rfl
      rw [← hn] at h
      split at h
      · rename_i y hread
        cases h
        obtain ⟨hwithin, rfl⟩ := read_eq_ok_iff.1 hread
        exact ⟨[⟨.number numeral, q⟩], .number n, rfl, by simp [Operand.lexemes, hn], hwithin, rfl, by simp⟩
      · cases h
    · cases h
      exact ⟨[_], .string _, rfl, rfl, trivial, rfl, by simp⟩
    · cases h
      exact ⟨[_], .symbol _, rfl, rfl, trivial, rfl, by simp⟩
    · rename_i name q ts
      obtain ⟨⟨more, r⟩, hp, he⟩ := Outcome.map_eq_ok_iff.1 h
      cases he
      obtain ⟨us, rfl, hus, hrest⟩ := pathTail_eq_ok_iff.1 hp
      exact ⟨⟨.word name, q⟩ :: us, .path ⟨name, more⟩, rfl, by simp [Operand.lexemes, Path.lexemes, hus], trivial, rfl,
        fun _ => hrest⟩
    · cases h
  · rintro ⟨us, o, rfl, hus, hwithin, rfl, hpath⟩
    cases o with
    | number n =>
      obtain ⟨q, us₁, rfl, h₁⟩ := exists_cons_of_lexemes hus
      obtain rfl := List.map_eq_nil_iff.1 h₁
      simp [literal, String.toList_ofList, read_eq_ok_iff.2 ⟨hwithin, rfl⟩, Operand.literal]
    | string s =>
      obtain ⟨q, us₁, rfl, h₁⟩ := exists_cons_of_lexemes hus
      obtain rfl := List.map_eq_nil_iff.1 h₁
      rfl
    | symbol s =>
      obtain ⟨q, us₁, rfl, h₁⟩ := exists_cons_of_lexemes hus
      obtain rfl := List.map_eq_nil_iff.1 h₁
      rfl
    | path p =>
      obtain ⟨q, us₁, rfl, h₁⟩ := exists_cons_of_lexemes hus
      have htail := pathTail_eq_ok_iff.2 ⟨us₁, rfl, h₁, hpath ⟨p, rfl⟩⟩
      rw [List.cons_append, literal, htail]
      rfl

/-! ### Statements -/

theorem statement_eq_ok_iff {ts rest : List Token} {s : Statement} (hplain : ∀ t ∈ ts, PlainNumber t.lexeme) :
    statement ts = .ok (s, rest) ↔ ∃ us, ∃ c : Clause, ts = us ++ rest ∧ us.map Token.lexeme = c.lexemes ∧ c.Within ∧
      c.statement = s := by
  constructor
  · intro h
    unfold statement at h
    split at h
    · rename_i name q ts
      obtain ⟨names, t₁, t₂, x, t₃, h₁, h₂, h₃, h₄, rfl⟩ := assignment_eq_ok_iff.1 h
      obtain ⟨us₁, rfl, hus₁, -⟩ := pathTail_eq_ok_iff.1 h₁
      obtain ⟨q₂, sep, rfl⟩ := afterSeparator_eq_ok_iff.1 h₂
      obtain ⟨us₃, o, rfl, hus₃, hwithin, rfl, -⟩ := (literal_eq_ok_iff fun t ht => hplain t (by simp [ht])).1 h₃
      obtain ⟨q₄, rfl⟩ := afterSemicolon_eq_ok_iff.1 h₄
      refine ⟨⟨.word name, q⟩ :: (us₁ ++ ⟨.mark sep.mark, q₂⟩ :: (us₃ ++ [⟨.mark .semicolon, q₄⟩])),
        .assign ⟨name, names⟩ sep o, by simp, ?_, hwithin, rfl⟩
      simp [Clause.lexemes, Path.lexemes, hus₁, hus₃]
    · rename_i query q ts
      obtain ⟨r, h₁, he⟩ := Outcome.map_eq_ok_iff.1 h
      cases he
      obtain ⟨q', rfl⟩ := afterSemicolon_eq_ok_iff.1 h₁
      exact ⟨[⟨.query query, q⟩, ⟨.mark .semicolon, q'⟩], .query query, rfl, rfl, trivial, rfl⟩
    · cases h
  · rintro ⟨us, c, rfl, hus, hwithin, rfl⟩
    cases c with
    | assign p sep o =>
      obtain ⟨q, us₁, rfl, h₁⟩ := exists_cons_of_lexemes hus
      obtain ⟨us₂, us₃, rfl, h₂, h₃⟩ := List.map_eq_append_iff.1 h₁
      obtain ⟨q₃, us₄, rfl, h₄⟩ := exists_cons_of_lexemes h₃
      obtain ⟨us₅, us₆, rfl, h₅, h₆⟩ := List.map_eq_append_iff.1 h₄
      obtain ⟨q₆, us₇, rfl, h₇⟩ := exists_cons_of_lexemes h₆
      obtain rfl := List.map_eq_nil_iff.1 h₇
      -- The separator ends the path on the left, and the semicolon a path on the right.
      have hsep : headKind (⟨.mark sep.mark, q₃⟩ :: (us₅ ++ ⟨.mark .semicolon, q₆⟩ :: rest)) ≠ .dot := by
        cases sep <;> simp [headKind, Separator.mark, Lexeme.kind]
      have hsemi : headKind (⟨.mark .semicolon, q₆⟩ :: rest) ≠ .dot := by simp [headKind, Lexeme.kind]
      have hvalue : literal (us₅ ++ ⟨.mark .semicolon, q₆⟩ :: rest) =
          .ok (o.literal, ⟨.mark .semicolon, q₆⟩ :: rest) := by
        refine (literal_eq_ok_iff fun t ht => hplain t ?_).2 ⟨us₅, o, rfl, h₅, hwithin, rfl, fun _ => hsemi⟩
        have hsuffix : us₅ ++ ⟨.mark .semicolon, q₆⟩ :: rest <:+ ⟨.word p.first, q⟩ ::
            (us₂ ++ ⟨.mark sep.mark, q₃⟩ :: (us₅ ++ [⟨.mark .semicolon, q₆⟩])) ++ rest :=
          ⟨⟨.word p.first, q⟩ :: (us₂ ++ [⟨.mark sep.mark, q₃⟩]), by simp⟩
        exact hsuffix.subset ht
      exact assignment_eq_ok_iff.2 ⟨p.more, _, _, o.literal, _, pathTail_eq_ok_iff.2 ⟨us₂, by simp, h₂, hsep⟩,
        afterSeparator_eq_ok_iff.2 ⟨q₃, sep, rfl⟩, hvalue, rfl, rfl⟩
    | query query =>
      obtain ⟨q, us₁, rfl, h₁⟩ := exists_cons_of_lexemes hus
      obtain ⟨q', us₂, rfl, h₂⟩ := exists_cons_of_lexemes h₁
      obtain rfl := List.map_eq_nil_iff.1 h₂
      rfl

/-! ### Programs -/

/-- All tokens are read as statements exactly if their lexemes are those of clauses with numbers that can be read. -/
theorem readAll_eq_iff {ts : List Token} {ss : List Statement} (hplain : ∀ t ∈ ts, PlainNumber t.lexeme) :
    readAll ts = ⟨ss, none⟩ ↔ ∃ cs : List Clause, ts.map Token.lexeme = cs.flatMap Clause.lexemes ∧
      (∀ c ∈ cs, c.Within) ∧ cs.map Clause.statement = ss := by
  constructor
  · intro h
    fun_induction readAll ts generalizing ss with
    | case1 ts hempty =>
      cases h
      obtain rfl := List.isEmpty_iff.1 hempty
      exact ⟨[], rfl, by simp, rfl⟩
    | case2 ts hne s rest hs ih =>
      obtain ⟨us, c, rfl, hus, hwithin, rfl⟩ := (statement_eq_ok_iff hplain).1 hs
      have hrest : readAll rest = ⟨(readAll rest).statements, none⟩ := by
        have hnone := congrArg Reading.obstacle h
        rw [← show (readAll rest).obstacle = none from hnone]
      obtain ⟨cs, hcs, hall, hmap⟩ := ih (fun t ht => hplain t (List.mem_append_right _ ht)) hrest
      refine ⟨c :: cs, by rw [List.map_append, hus, hcs, List.flatMap_cons], ?_, ?_⟩
      · exact List.forall_mem_cons.2 ⟨hwithin, hall⟩
      · rw [List.map_cons, hmap]
        exact congrArg Reading.statements h
    | case3 ts hne o hs => cases h
  · rintro ⟨cs, hcs, hall, rfl⟩
    induction cs generalizing ts with
    | nil =>
      obtain rfl := List.map_eq_nil_iff.1 hcs
      exact readAll_nil
    | cons c cs ih =>
      obtain ⟨us, rest, rfl, hus, hrest⟩ := List.map_eq_append_iff.1 hcs
      obtain ⟨hwithin, hall⟩ := List.forall_mem_cons.1 hall
      have hs := (statement_eq_ok_iff hplain).2 ⟨us, c, rfl, hus, hwithin, rfl⟩
      rw [readAll_of_ok hs, ih (fun t ht => hplain t (List.mem_append_right _ ht)) hrest hall]
      rfl

end Appraisal.Submission.Grammar
