import Appraisal.Proofs.Submission.Obstacle
import Appraisal.Proofs.Submission.Program
import Appraisal.Proofs.Submission.Stage

/-! Where reading meets a token that does not fit. What a reader takes leads from one stage of the grammar to another,
    and where a reader fails, the tokens before the misfit lead to a stage at which the misfit may not stand. So the
    misfit is the first token with which no program goes on (`stops_at_first_misfit`), and the statements that were
    read are those of the longest program at the head of the tokens. -/

namespace Appraisal.Submission

/-- The fault names the kind that was found, if it names one. -/
def GrammarFault.Names : GrammarFault → Kind → Prop
  | .expected _ found, k | .unexpected found, k => found = k
  | .expectedSeparator, _ | .expectedValue, _ => True

namespace Grammar
open Scan Statement Stage

def kinds (ts : List Token) : List Kind := ts.map fun t => t.lexeme.kind

@[simp] theorem kinds_append (ts us : List Token) : kinds (ts ++ us) = kinds ts ++ kinds us := List.map_append

theorem kinds_eq_map_lexemes (ts : List Token) : kinds ts = (ts.map Token.lexeme).map Lexeme.kind := by
  rw [kinds, List.map_map]
  rfl

/-! ### Ways from stage to stage -/

/-- The tokens before `rest` lead from one stage to another within a statement. -/
def Leads (q q' : Stage) (ts rest : List Token) : Prop :=
  ∃ us, ts = us ++ rest ∧ q.run (kinds us) = some q' ∧ .semicolon ∉ kinds us

/-- The tokens before `rest` lead to a stage at which what follows may not stand, as the fault says. -/
def Sticks (q : Stage) (ts : List Token) (f : GrammarFault) (rest : List Token) : Prop :=
  ∃ q', Leads q q' ts rest ∧ q'.step (headKind rest) = none ∧ f.Names (headKind rest)

variable {q q' q'' : Stage} {ts us rest : List Token} {f : GrammarFault}

theorem Leads.refl (q : Stage) (ts : List Token) : Leads q q ts ts := ⟨[], rfl, rfl, List.not_mem_nil⟩

theorem Leads.trans (h : Leads q q' ts us) (h' : Leads q' q'' us rest) : Leads q q'' ts rest := by
  obtain ⟨vs, rfl, hrun, hvs⟩ := h
  obtain ⟨ws, rfl, hrun', hws⟩ := h'
  refine ⟨vs ++ ws, (List.append_assoc ..).symm, ?_, ?_⟩
  · rw [kinds_append, run_append, hrun]
    exact hrun'
  · rw [kinds_append, List.mem_append]
    exact fun h => h.elim hvs hws

theorem Leads.one {t : Token} (hstep : q.step t.lexeme.kind = some q') (ht : t.lexeme.kind ≠ .semicolon) :
    Leads q q' (t :: ts) ts :=
  ⟨[t], rfl, by simp [kinds, hstep], by simpa [kinds] using ht.symm⟩

theorem Leads.name {name : String} {p : Position} (hstep : q.step .word = some q') :
    Leads q q' (⟨.word name, p⟩ :: ts) ts :=
  .one hstep (by simp [Lexeme.kind])

theorem Leads.sticks (h : Leads q q' ts us) (h' : Sticks q' us f rest) : Sticks q ts f rest := by
  obtain ⟨q'', hleads, hstep⟩ := h'
  exact ⟨q'', h.trans hleads, hstep⟩

theorem Sticks.here (hstep : q.step (headKind ts) = none) (hf : f.Names (headKind ts)) : Sticks q ts f ts :=
  ⟨q, .refl q ts, hstep, hf⟩

/-! ### Parts of a statement -/

/-- Tokens whose first kind is not the end begin with a token of that kind. -/
theorem exists_of_headKind {k : Kind} (h : headKind ts = k) (hk : k ≠ .finish) :
    ∃ l p ts', ts = ⟨l, p⟩ :: ts' ∧ Admits k l := by
  cases ts with
  | nil => exact absurd h.symm hk
  | cons t ts =>
    obtain ⟨l, p⟩ := t
    obtain rfl : l.kind = k := h
    exact ⟨l, p, ts, rfl, admits_kind l⟩

theorem semicolon_not_mem_pathTail {ks : List Kind} (h : IsPathTail ks) : .semicolon ∉ ks := by
  induction h with
  | nil => exact List.not_mem_nil
  | cons _ ih => simpa using ih

theorem leads_of_pathTail {names : List String} (h : pathTail ts = .ok (names, rest)) (side : Side) :
    Leads (word side) (word side) ts rest := by
  obtain ⟨us, rfl, hus, -⟩ := pathTail_eq_ok_iff.1 h
  have htail : IsPathTail (kinds us) := by
    rw [kinds_eq_map_lexemes, hus]
    exact isPathTail_tailLexemes names
  exact ⟨us, rfl, run_pathTail htail side, semicolon_not_mem_pathTail htail⟩

theorem sticks_of_pathTail (h : pathTail ts = .error (.grammar f rest)) (side : Side) :
    Sticks (word side) ts f rest := by
  have hdot : ∀ {p us}, Leads (word side) (dot side) (⟨.mark .dot, p⟩ :: us) us :=
    .one (step_word_dot side) (by simp [Lexeme.kind])
  fun_induction pathTail ts with
  | case1 p name p' ts ih =>
    exact (hdot.trans (.name rfl)).sticks (ih (Outcome.map_eq_error_iff.1 h))
  | case2 p ts hnot =>
    have hne : headKind ts ≠ .word := by
      intro hword
      obtain ⟨_, p', ts', rfl, name, rfl⟩ := exists_of_headKind hword (by decide)
      exact hnot name p' ts' rfl
    cases h
    exact hdot.sticks (.here (step_dot_of_ne hne) rfl)
  | case3 => cases h

theorem leads_of_afterSeparator (h : afterSeparator ts = .ok rest) : Leads (word .key) separator ts rest := by
  obtain ⟨p, s, rfl⟩ := afterSeparator_eq_ok_iff.1 h
  cases s with
  | colon => exact .one rfl (by simp [Separator.mark, Lexeme.kind])
  | equal => exact .one rfl (by simp [Separator.mark, Lexeme.kind])

theorem sticks_of_afterSeparator (hpath : headKind ts ≠ .dot) (h : afterSeparator ts = .error (.grammar f rest)) :
    Sticks (word .key) ts f rest := by
  unfold afterSeparator at h
  split at h
  · cases h
  · cases h
  · rename_i hcolon hequal
    cases h
    refine .here ?_ trivial
    cases hk : headKind ts with
    | dot => exact absurd hk hpath
    | colon =>
      obtain ⟨_, p, ts', rfl, rfl⟩ := exists_of_headKind hk (by decide)
      exact absurd rfl (hcolon p ts')
    | equal =>
      obtain ⟨_, p, ts', rfl, rfl⟩ := exists_of_headKind hk (by decide)
      exact absurd rfl (hequal p ts')
    | _ => rfl

theorem sticks_of_afterSemicolon (hclosed : headKind ts ≠ .semicolon → q.step (headKind ts) = none)
    (h : afterSemicolon ts = .error (.grammar f rest)) : Sticks q ts f rest := by
  unfold afterSemicolon at h
  split at h
  · cases h
  · rename_i hnot
    cases h
    refine .here (hclosed fun hsemi => ?_) rfl
    obtain ⟨_, p, ts', rfl, rfl⟩ := exists_of_headKind hsemi (by decide)
    exact hnot p ts' rfl

/-- After a value only a semicolon may stand, for where the value is a path, reading has gone on to its end. -/
theorem leads_of_literal {x : Literal} (h : literal ts = .ok (x, rest)) :
    ∃ q, Leads separator q ts rest ∧ q.step .semicolon = some start ∧
      (headKind rest ≠ .semicolon → q.step (headKind rest) = none) := by
  unfold literal at h
  split at h
  · split at h <;> cases h
    exact ⟨finish, .one rfl (by simp [Lexeme.kind]), rfl, step_finish_of_ne⟩
  · cases h
    exact ⟨finish, .one rfl (by simp [Lexeme.kind]), rfl, step_finish_of_ne⟩
  · cases h
    exact ⟨finish, .one rfl (by simp [Lexeme.kind]), rfl, step_finish_of_ne⟩
  · obtain ⟨⟨names, rest'⟩, htail, he⟩ := Outcome.map_eq_ok_iff.1 h
    cases he
    obtain ⟨-, -, -, hdot⟩ := pathTail_eq_ok_iff.1 htail
    exact ⟨word .value, (Leads.name rfl).trans (leads_of_pathTail htail .value), rfl, step_value_of_ne hdot⟩
  · cases h

theorem sticks_of_literal (h : literal ts = .error (.grammar f rest)) : Sticks separator ts f rest := by
  unfold literal at h
  split at h
  · split at h <;> cases h
  · cases h
  · cases h
  · exact (Leads.name rfl).sticks (sticks_of_pathTail (Outcome.map_eq_error_iff.1 h) .value)
  · rename_i hnumber hstring hsymbol hword
    cases h
    refine .here ?_ trivial
    cases hk : headKind ts with
    | number =>
      obtain ⟨_, p, ts', rfl, numeral, rfl⟩ := exists_of_headKind hk (by decide)
      exact absurd rfl (hnumber numeral p ts')
    | string =>
      obtain ⟨_, p, ts', rfl, s, rfl⟩ := exists_of_headKind hk (by decide)
      exact absurd rfl (hstring s p ts')
    | symbol =>
      obtain ⟨_, p, ts', rfl, s, rfl⟩ := exists_of_headKind hk (by decide)
      exact absurd rfl (hsymbol s p ts')
    | word =>
      obtain ⟨_, p, ts', rfl, name, rfl⟩ := exists_of_headKind hk (by decide)
      exact absurd rfl (hword name p ts')
    | _ => rfl

/-! ### Statements -/

theorem leads_of_query (query : Query) (p : Position) (ts : List Token) :
    Leads start finish (⟨.query query, p⟩ :: ts) ts := by
  cases query with
  | check => exact .one rfl (by simp [Lexeme.kind])
  | eval => exact .one rfl (by simp [Lexeme.kind])

theorem run_of_afterSemicolon (hleads : Leads start q ts us) (hsemi : q.step .semicolon = some start)
    (h : afterSemicolon us = .ok rest) : ∃ vs, ts = vs ++ rest ∧ start.run (kinds vs) = some start := by
  obtain ⟨vs, rfl, hrun, -⟩ := hleads
  obtain ⟨p, rfl⟩ := afterSemicolon_eq_ok_iff.1 h
  refine ⟨vs ++ [⟨.mark .semicolon, p⟩], by simp, ?_⟩
  rw [kinds_append, run_append, hrun]
  show (q.step .semicolon).bind _ = _
  rw [hsemi]
  rfl

theorem run_of_statement {s : Statement} (h : statement ts = .ok (s, rest)) :
    ∃ us, ts = us ++ rest ∧ start.run (kinds us) = some start := by
  unfold statement at h
  split at h
  · obtain ⟨names, t₁, t₂, x, t₃, h₁, h₂, h₃, h₄, -⟩ := assignment_eq_ok_iff.1 h
    obtain ⟨q, hvalue, hsemi, -⟩ := leads_of_literal h₃
    have hkey := (leads_of_pathTail h₁ .key).trans (leads_of_afterSeparator h₂)
    exact run_of_afterSemicolon ((Leads.name rfl).trans (hkey.trans hvalue)) hsemi h₄
  · obtain ⟨rest', h₁, he⟩ := Outcome.map_eq_ok_iff.1 h
    cases he
    exact run_of_afterSemicolon (leads_of_query _ _ _) rfl h₁
  · cases h

theorem sticks_of_assignment {name : String} (h : assignment name ts = .error (.grammar f rest)) :
    Sticks (word .key) ts f rest := by
  unfold assignment at h
  rcases Outcome.bind_eq_error_iff.1 h with h | ⟨⟨names, t₁⟩, h₁, h⟩
  · exact sticks_of_pathTail h .key
  have hpath := leads_of_pathTail h₁ .key
  rcases Outcome.bind_eq_error_iff.1 h with h | ⟨t₂, h₂, h⟩
  · obtain ⟨-, -, -, hdot⟩ := pathTail_eq_ok_iff.1 h₁
    exact hpath.sticks (sticks_of_afterSeparator hdot h)
  have hseparator := hpath.trans (leads_of_afterSeparator h₂)
  rcases Outcome.bind_eq_error_iff.1 h with h | ⟨⟨x, t₃⟩, h₃, h⟩
  · exact hseparator.sticks (sticks_of_literal h)
  obtain ⟨q, hvalue, -, hclosed⟩ := leads_of_literal h₃
  rcases Outcome.bind_eq_error_iff.1 h with h | ⟨t₄, h₄, h⟩
  · exact (hseparator.trans hvalue).sticks (sticks_of_afterSemicolon hclosed h)
  · cases h

theorem sticks_of_statement (h : statement ts = .error (.grammar f rest)) : Sticks start ts f rest := by
  unfold statement at h
  split at h
  · exact (Leads.name rfl).sticks (sticks_of_assignment h)
  · refine (leads_of_query _ _ _).sticks (sticks_of_afterSemicolon (fun hsemi => ?_) (Outcome.map_eq_error_iff.1 h))
    exact step_finish_of_ne hsemi
  · rename_i hword hquery
    cases h
    refine .here ?_ rfl
    cases hk : headKind ts with
    | word =>
      obtain ⟨_, p, ts', rfl, name, rfl⟩ := exists_of_headKind hk (by decide)
      exact absurd rfl (hword name p ts')
    | check =>
      obtain ⟨_, p, ts', rfl, rfl⟩ := exists_of_headKind hk (by decide)
      exact absurd rfl (hquery .check p ts')
    | eval =>
      obtain ⟨_, p, ts', rfl, rfl⟩ := exists_of_headKind hk (by decide)
      exact absurd rfl (hquery .eval p ts')
    | _ => rfl

/-! ### What a statement says does not depend on what follows it -/

theorem literal_append {x : Literal} (h : literal ts = .ok (x, rest)) :
    ∃ us, ts = us ++ rest ∧ ∀ rest', headKind rest' ≠ .dot → literal (us ++ rest') = .ok (x, rest') := by
  unfold literal at h
  split at h
  · split at h <;> cases h
    rename_i hread
    exact ⟨[_], rfl, fun rest' _ => by simp [literal, hread]⟩
  · cases h
    exact ⟨[_], rfl, fun _ _ => rfl⟩
  · cases h
    exact ⟨[_], rfl, fun _ _ => rfl⟩
  · rename_i name p ts
    obtain ⟨⟨names, rest₁⟩, htail, he⟩ := Outcome.map_eq_ok_iff.1 h
    cases he
    obtain ⟨us, rfl, hus, -⟩ := pathTail_eq_ok_iff.1 htail
    refine ⟨⟨.word name, p⟩ :: us, rfl, fun rest' hdot => ?_⟩
    rw [List.cons_append, literal, pathTail_eq_ok_iff.2 ⟨us, rfl, hus, hdot⟩]
    rfl
  · cases h

theorem statement_append {s : Statement} (h : statement ts = .ok (s, rest)) :
    ∃ us, ts = us ++ rest ∧ ∀ rest', statement (us ++ rest') = .ok (s, rest') := by
  unfold statement at h
  split at h
  · rename_i name p ts
    obtain ⟨names, t₁, t₂, x, t₃, h₁, h₂, h₃, h₄, rfl⟩ := assignment_eq_ok_iff.1 h
    obtain ⟨us, rfl, hus, -⟩ := pathTail_eq_ok_iff.1 h₁
    obtain ⟨p₂, mark, rfl⟩ := afterSeparator_eq_ok_iff.1 h₂
    obtain ⟨vs, rfl, hvalue⟩ := literal_append h₃
    obtain ⟨p₄, rfl⟩ := afterSemicolon_eq_ok_iff.1 h₄
    refine ⟨⟨.word name, p⟩ :: (us ++ ⟨.mark mark.mark, p₂⟩ :: (vs ++ [⟨.mark .semicolon, p₄⟩])), by simp,
      fun rest' => ?_⟩
    have hmark : headKind (⟨.mark mark.mark, p₂⟩ :: (vs ++ ⟨.mark .semicolon, p₄⟩ :: rest')) ≠ .dot := by
      cases mark <;> simp [headKind, Separator.mark, Lexeme.kind]
    have hliteral := hvalue (⟨.mark .semicolon, p₄⟩ :: rest') (by simp [headKind, Lexeme.kind])
    exact assignment_eq_ok_iff.2 ⟨names, _, _, x, _, pathTail_eq_ok_iff.2 ⟨us, by simp, hus, hmark⟩,
      afterSeparator_eq_ok_iff.2 ⟨p₂, mark, rfl⟩, hliteral, rfl, rfl⟩
  · rename_i query p ts
    obtain ⟨rest₁, h₁, he⟩ := Outcome.map_eq_ok_iff.1 h
    cases he
    obtain ⟨p', rfl⟩ := afterSemicolon_eq_ok_iff.1 h₁
    exact ⟨[⟨.query query, p⟩, ⟨.mark .semicolon, p'⟩], rfl, fun _ => rfl⟩
  · cases h

/-! ### Only numbers stop reading otherwise -/

/-- A number in the lexeme can be read. -/
def Readable : Lexeme → Prop
  | .number numeral => ∃ x, Numeral.read numeral.toList = .ok x
  | _ => True

theorem readable_of_short {l : Lexeme} (hplain : PlainNumber l) (hshort : Short l) : Readable l := by
  cases l with
  | number numeral =>
    obtain ⟨n, hn⟩ := hplain numeral rfl
    have hwithin : n.Within := by
      intro hf
      have hpoint : '.' ∉ n.chars := by simp [Numeral.point_mem_iff, hf]
      rw [Short, ← hn, Numeral.digits_of_integer hf] at hshort
      exact hshort hpoint
    exact ⟨n.value, hn ▸ Numeral.read_of_within hwithin⟩
  | _ => trivial

/-- The obstacle is a token that does not fit. -/
def IsMisfit : Obstacle → Prop
  | .grammar _ _ => True
  | .numeral _ => False

theorem isMisfit_of_pathTail {o : Obstacle} (h : pathTail ts = .error o) : IsMisfit o := by
  fun_induction pathTail ts with
  | case1 p name p' ts ih => exact ih (Outcome.map_eq_error_iff.1 h)
  | case2 => cases h; trivial
  | case3 => cases h

theorem isMisfit_of_literal {o : Obstacle} (hread : ∀ t ∈ ts, Readable t.lexeme) (h : literal ts = .error o) :
    IsMisfit o := by
  unfold literal at h
  split at h
  · obtain ⟨x, hx⟩ := hread _ List.mem_cons_self
    rw [hx] at h
    cases h
  · cases h
  · cases h
  · exact isMisfit_of_pathTail (Outcome.map_eq_error_iff.1 h)
  · cases h; trivial

theorem isMisfit_of_afterSemicolon {o : Obstacle} (h : afterSemicolon ts = .error o) : IsMisfit o := by
  unfold afterSemicolon at h
  split at h <;> cases h
  trivial

theorem isMisfit_of_statement {o : Obstacle} (hread : ∀ t ∈ ts, Readable t.lexeme) (h : statement ts = .error o) :
    IsMisfit o := by
  unfold statement at h
  split at h
  · rename_i name p ts
    unfold assignment at h
    rcases Outcome.bind_eq_error_iff.1 h with h | ⟨⟨names, t₁⟩, h₁, h⟩
    · exact isMisfit_of_pathTail h
    rcases Outcome.bind_eq_error_iff.1 h with h | ⟨t₂, h₂, h⟩
    · unfold afterSeparator at h
      split at h <;> cases h
      trivial
    rcases Outcome.bind_eq_error_iff.1 h with h | ⟨⟨x, t₃⟩, h₃, h⟩
    · have hsuffix := (suffix_of_afterSeparator h₂).trans (suffix_of_pathTail h₁)
      exact isMisfit_of_literal (fun t ht => hread t (List.mem_cons_of_mem _ (hsuffix.subset ht))) h
    rcases Outcome.bind_eq_error_iff.1 h with h | ⟨t₄, h₄, h⟩
    · exact isMisfit_of_afterSemicolon h
    · cases h
  · exact isMisfit_of_afterSemicolon (Outcome.map_eq_error_iff.1 h)
  · cases h; trivial

theorem isMisfit_of_readAll {o : Obstacle} (hread : ∀ t ∈ ts, Readable t.lexeme)
    (h : (readAll ts).obstacle = some o) : IsMisfit o := by
  fun_induction readAll ts with
  | case1 => cases h
  | case2 ts hne s rest hs ih => exact ih (fun t ht => hread t ((suffix_of_statement hs).subset ht)) h
  | case3 ts hne o' hs =>
    cases h
    exact isMisfit_of_statement hread hs

/-! ### All statements -/

/-- Where a token does not fit, reading has taken the statements before it, and no part of the one that fails. -/
theorem sticks_of_readAll (h : (readAll ts).obstacle = some (.grammar f rest)) :
    ∃ done failing, ts = done ++ failing ∧ failing ≠ [] ∧ start.run (kinds done) = some start ∧
      readAll done = ⟨(readAll ts).statements, none⟩ ∧ Sticks start failing f rest := by
  fun_induction readAll ts with
  | case1 => cases h
  | case2 ts hne s rest' hs ih =>
    obtain ⟨done, failing, rfl, hfailing, hrun, hdone, hsticks⟩ := ih h
    obtain ⟨us, rfl, hus⟩ := run_of_statement hs
    obtain ⟨us', hcancel, hsame⟩ := statement_append hs
    obtain rfl := List.append_cancel_right hcancel
    refine ⟨us ++ done, failing, (List.append_assoc ..).symm, hfailing, ?_, ?_, hsticks⟩
    · rw [kinds_append, run_append, hus]
      exact hrun
    · rw [readAll_of_ok (hsame done), hdone]
      rfl
  | case3 ts hne o hs =>
    cases h
    have hnil : ts ≠ [] := by simpa using hne
    exact ⟨[], ts, rfl, hnil, rfl, readAll_nil, sticks_of_statement hs⟩

/-! ### The first misfit -/

/-- The place of token `k`, or the end of the text if there are no more tokens. -/
def place (ts : TokenList) (k : Nat) : Position := (ts.tokens[k]?.map Token.position).getD ts.stop

/-- Reading stops at token `k`, or at the end, with `f`, and the first `j` tokens are complete statements. -/
structure StopsAt (ts : TokenList) (f : GrammarFault) (k j : Nat) : Prop where
  within : k ≤ ts.tokens.length
  found : f.Names (headKind (ts.tokens.drop k))
  report : ∀ text, tokens text = .ok ts →
    Program.read text = .error (.malformed (.about text (.grammar f) (place ts k)))
  taken : (readAll ts.tokens).consumed ts.tokens = if f.taken then min (k + 1) ts.tokens.length else k
  before : ∃ more, IsProgram (kinds (ts.tokens.take k) ++ more)
  misfit : k < ts.tokens.length → ∀ more, ¬ IsProgram (kinds (ts.tokens.take (k + 1)) ++ more)
  unfinished : k = ts.tokens.length → ¬ IsProgram (kinds ts.tokens)
  complete : j ≤ k ∧ IsProgram (kinds (ts.tokens.take j))
  longest : ∀ i, j < i → i ≤ ts.tokens.length → ¬ IsProgram (kinds (ts.tokens.take i))
  /-- So the fields and the query are those of the complete statements. -/
  kept : readAll (ts.tokens.take j) = ⟨(readAll ts.tokens).statements, none⟩

theorem headPosition_drop (ts : TokenList) (k : Nat) : headPosition ts.stop (ts.tokens.drop k) = place ts k := by
  rw [place, ← List.head?_drop]
  cases ts.tokens.drop k with
  | nil => rfl
  | cons t us => rfl

theorem consumed_of_drop {r : Reading} {k : Nat} (hk : k ≤ ts.length) (h : r.obstacle = some (.grammar f (ts.drop k))) :
    r.consumed ts = if f.taken then min (k + 1) ts.length else k := by
  have hempty : (ts.drop k).isEmpty = decide (ts.length ≤ k) := by
    rw [Bool.eq_iff_iff, List.isEmpty_iff, List.drop_eq_nil_iff, decide_eq_true_eq]
  simp only [Reading.consumed, h, List.length_drop, hempty]
  cases f.taken with
  | false =>
    simp only [Bool.false_and, Bool.false_eq_true, if_false]
    omega
  | true =>
    simp only [Bool.true_and, Bool.not_eq_true', decide_eq_false_iff_not, if_true]
    split <;> omega

/-- Kinds that lead to a stage begin no program together with a kind that may not stand there. -/
theorem not_isProgram_of_step {ks : List Kind} {k : Kind} (hrun : start.run ks = some q) (hstep : q.step k = none)
    (more : List Kind) : ¬ IsProgram (ks ++ k :: more) := by
  rw [← run_eq_start_iff, run_append, hrun]
  show (q.step k).bind _ ≠ some start
  rw [hstep]
  exact fun h => nomatch h

/-- Tokens within a statement, at least one, are no program. -/
theorem not_isProgram_of_semicolon {done us : List Token} (hdone : start.run (kinds done) = some start)
    (hne : us ≠ []) (hsemi : .semicolon ∉ kinds us) : ¬ IsProgram (kinds (done ++ us)) := by
  rw [← run_eq_start_iff, kinds_append, run_append, hdone]
  intro hrun
  have hkinds : kinds us ≠ [] := fun h => hne (List.map_eq_nil_iff.1 h)
  exact hsemi (semicolon_mem_of_run hkinds hrun)

/-- The beginnings that end within a statement are no programs. -/
theorem not_isProgram_take {done us : List Token} (hdone : start.run (kinds done) = some start)
    (hsemi : .semicolon ∉ kinds us) {i : Nat} (hi : done.length < i) (hle : i ≤ (done ++ us).length) :
    ¬ IsProgram (kinds ((done ++ us).take i)) := by
  obtain ⟨n, rfl⟩ := Nat.exists_eq_add_of_lt hi
  rw [Nat.add_assoc, List.take_length_add_append]
  have hne : us.take (n + 1) ≠ [] := by
    intro hnil
    have hlength := congrArg List.length hnil
    simp only [List.length_take, List.length_nil, List.length_append] at hlength hle
    omega
  exact not_isProgram_of_semicolon hdone hne fun hmem => hsemi (((List.take_sublist _ us).map _).subset hmem)

theorem stopsAt_of_obstacle {ts : TokenList} (h : (readAll ts.tokens).obstacle = some (.grammar f rest)) :
    ∃ k j, rest = ts.tokens.drop k ∧ StopsAt ts f k j := by
  obtain ⟨done, failing, hts, hne, hdone, hkept, q, ⟨us, rfl, hrun, hsemi⟩, hstep, hfound⟩ := sticks_of_readAll h
  rw [← List.append_assoc] at hts
  have hleft : ts.tokens.drop (done ++ us).length = rest := by rw [hts, List.drop_left]
  have htakeDone : ts.tokens.take done.length = done := by rw [hts, List.append_assoc, List.take_left]
  have hlength : ts.tokens.length = (done ++ us).length + rest.length := by rw [hts, List.length_append]
  have hbefore : start.run (kinds (done ++ us)) = some q := by
    rw [kinds_append, run_append, hdone]
    exact hrun
  -- Beyond the tokens before the misfit, every beginning goes through it.
  have hmisfit : ∀ n, n < rest.length → ∀ more,
      ¬ IsProgram (kinds (ts.tokens.take ((done ++ us).length + n + 1)) ++ more) := by
    intro n hn more
    rw [hts, Nat.add_assoc, List.take_length_add_append]
    obtain ⟨t, rest', rfl⟩ := List.exists_cons_of_length_pos (Nat.zero_lt_of_lt hn)
    rw [List.take_succ_cons, kinds_append, List.append_assoc]
    exact not_isProgram_of_step hbefore hstep _
  refine ⟨(done ++ us).length, done.length, hleft.symm, ?_⟩
  constructor
  case within => omega
  case found => exact hleft.symm ▸ hfound
  case report =>
    intro text htext
    simp only [Program.read, htext, h, ← headPosition_drop, hleft]
  case taken => exact consumed_of_drop (by omega) (hleft.symm ▸ h)
  case before =>
    rw [hts, List.take_left, exists_program_iff]
    exact ⟨q, hbefore⟩
  case misfit =>
    intro hlt
    exact hmisfit 0 (by omega)
  case unfinished =>
    intro hk
    obtain rfl : rest = [] := List.length_eq_zero_iff.1 (by omega)
    rw [List.append_nil] at hts hne
    rw [hts]
    exact not_isProgram_of_semicolon hdone hne hsemi
  case complete =>
    refine ⟨by simp, ?_⟩
    rw [htakeDone, ← run_eq_start_iff]
    exact hdone
  case longest =>
    intro i hji hi
    rcases Nat.lt_or_ge (done ++ us).length i with hlt | hge
    · obtain ⟨n, rfl⟩ := Nat.exists_eq_add_of_lt hlt
      have hn := hmisfit n (by omega) []
      rwa [List.append_nil] at hn
    · rw [hts, List.take_append_of_le_length hge]
      exact not_isProgram_take hdone hsemi hji hge
  case kept => rw [htakeDone, hkept]

theorem isProgram_of_readAll (h : (readAll ts).obstacle = none) : IsProgram (kinds ts) := by
  rw [← run_eq_start_iff]
  fun_induction readAll ts with
  | case1 ts hempty =>
    obtain rfl := List.isEmpty_iff.1 hempty
    rfl
  | case2 ts hne s rest hs ih =>
    obtain ⟨us, rfl, hrun⟩ := run_of_statement hs
    rw [kinds_append, run_append, hrun]
    exact ih h
  | case3 => cases h

theorem StopsAt.not_isProgram {ts : TokenList} {k j : Nat} (h : StopsAt ts f k j) : ¬ IsProgram (kinds ts.tokens) := by
  rcases Nat.lt_or_eq_of_le h.within with hlt | heq
  · have hall := h.misfit hlt (kinds (ts.tokens.drop (k + 1)))
    rwa [← kinds_append, List.take_append_drop] at hall
  · exact h.unfinished heq

/-- Reading takes no more tokens than there are. Where all numbers can be read, tokens that are no program are stopped by
    a misfit and by nothing else. A misfit is the first token with which no program goes on, or the end of what is no
    program; it is reported in its place, and what was read are the complete statements before it. -/
theorem stops_at_first_misfit (ts : TokenList) :
    (readAll ts.tokens).consumed ts.tokens ≤ ts.tokens.length ∧
    ((∀ t ∈ ts.tokens, PlainNumber t.lexeme ∧ Short t.lexeme) →
      (readAll ts.tokens).obstacle = none ∧ IsProgram (kinds ts.tokens) ∨
      (∃ f rest, (readAll ts.tokens).obstacle = some (.grammar f rest)) ∧ ¬ IsProgram (kinds ts.tokens)) ∧
    ∀ f rest, (readAll ts.tokens).obstacle = some (.grammar f rest) →
      ∃ k j, rest = ts.tokens.drop k ∧ headPosition ts.stop rest = place ts k ∧ StopsAt ts f k j := by
  refine ⟨?_, ?_, ?_⟩
  · cases h : (readAll ts.tokens).obstacle with
    | none => simp only [Reading.consumed, h, Nat.le_refl]
    | some o =>
      cases o with
      | numeral nf => simp only [Reading.consumed, h, Nat.le_refl]
      | grammar f rest =>
        obtain ⟨k, j, -, hstops⟩ := stopsAt_of_obstacle h
        rw [hstops.taken]
        have := hstops.within
        split <;> omega
  · intro hnumbers
    cases h : (readAll ts.tokens).obstacle with
    | none => exact Or.inl ⟨rfl, isProgram_of_readAll h⟩
    | some o =>
      cases o with
      | numeral nf =>
        exact absurd (isMisfit_of_readAll (fun t ht => readable_of_short (hnumbers t ht).1 (hnumbers t ht).2) h) id
      | grammar f rest =>
        obtain ⟨k, j, -, hstops⟩ := stopsAt_of_obstacle h
        exact Or.inr ⟨⟨f, rest, rfl⟩, hstops.not_isProgram⟩
  · intro f rest h
    obtain ⟨k, j, hrest, hstops⟩ := stopsAt_of_obstacle h
    exact ⟨k, j, hrest, by rw [hrest, headPosition_drop], hstops⟩

/-- In `A: 1; B = ; CHECK` reading stops at the second semicolon, and keeps the first statement. -/
theorem stops_at_first_misfit_value : ∃ ts, tokens "A: 1;\nB = ; CHECK".toList = .ok ts ∧
    (∀ t ∈ ts.tokens, PlainNumber t.lexeme ∧ Short t.lexeme) ∧ ¬ IsProgram (kinds ts.tokens) ∧
    (readAll ts.tokens).obstacle = some (.grammar .expectedValue (ts.tokens.drop 6)) ∧ place ts 6 = ⟨2, 5, 10⟩ ∧
    ∃ j, StopsAt ts .expectedValue 6 j ∧ (readAll (ts.tokens.take j)).statements = [.assign ["A"] (.number (.int 1))] := by
  have htokens : tokens "A: 1;\nB = ; CHECK".toList = .ok ⟨[⟨.word "A", ⟨1, 1, 0⟩⟩, ⟨.mark .colon, ⟨1, 2, 1⟩⟩,
      ⟨.number "1", ⟨1, 4, 3⟩⟩, ⟨.mark .semicolon, ⟨1, 5, 4⟩⟩, ⟨.word "B", ⟨2, 1, 6⟩⟩, ⟨.mark .equal, ⟨2, 3, 8⟩⟩,
      ⟨.mark .semicolon, ⟨2, 5, 10⟩⟩, ⟨.query .check, ⟨2, 7, 12⟩⟩], ⟨2, 12, 17⟩⟩ := by decide +kernel
  generalize hts : TokenList.mk _ _ = ts at htokens
  have hnumbers : ∀ t ∈ ts.tokens, PlainNumber t.lexeme ∧ Short t.lexeme := by
    intro t ht
    refine ⟨plain_of_mem_tokens htokens t ht, ?_⟩
    revert t
    rw [← List.forall_mem_map (f := Token.lexeme) (P := Short), ← hts]
    decide
  have hread : readAll ts.tokens =
      ⟨[.assign ["A"] (.number (.int 1))], some (.grammar .expectedValue (ts.tokens.drop 6))⟩ := by
    subst hts
    refine (readAll_of_ok rfl).trans ?_
    rw [readAll_of_error (List.cons_ne_nil _ _) rfl]
    rfl
  obtain ⟨-, hstop, hplace⟩ := stops_at_first_misfit ts
  have hobstacle := congrArg Reading.obstacle hread
  obtain ⟨k, j, hrest, -, hstops⟩ := hplace _ _ hobstacle
  obtain rfl : k = 6 := by
    have hlength := congrArg List.length hrest
    have hwithin := hstops.within
    subst hts
    simp at hlength hwithin
    omega
  refine ⟨ts, htokens, hnumbers, ?_, hobstacle, hts ▸ rfl, j, hstops, ?_⟩
  · rcases hstop hnumbers with ⟨hnone, -⟩ | ⟨-, hnot⟩
    · rw [hobstacle] at hnone
      cases hnone
    · exact hnot
  · rw [hstops.kept, hread]

end Grammar
end Appraisal.Submission
