import Appraisal.Proofs.Submission.Writing
import Appraisal.Proofs.Vocabulary

/-! Spellings of names. Of the declared names the last one with the lower case of a spelling counts, and where there is
    none the owner of the last such synonym; so spellings that are looked up alike are resolved alike. In a text the key
    of an assignment may be spelled otherwise, whatever stands around it: the tokens before it end with a semicolon
    and are the same before any text (`Tiled.split`), and a separator follows it (`lexes_respelled`). -/

namespace Appraisal.Submission.Grammar
open Text Scan Vocabulary

/-- The text `lead ++ (key ++ rest)` has the lexemes of clauses, one of which assigns to the path `p`; and `key` begins
    with the first token of this path and ends before the separator. -/
inductive KeyIn (before : List Clause) (p : Path) (sep : Separator) (x : Operand) (after : List Clause)
    (lead key rest : List Char) : Prop
  | intro {us ps vs : List Token} {t s : Token} {stop : Position}
      (tokens : tokens (lead ++ (key ++ rest)) = .ok ⟨us ++ t :: (ps ++ s :: vs), stop⟩)
      (earlier : us.map Token.lexeme = before.flatMap Clause.lexemes)
      (path : (t :: ps).map Token.lexeme = p.lexemes)
      (later : (s :: vs).map Token.lexeme =
        .mark sep.mark :: (x.lexemes ++ [.mark .semicolon]) ++ after.flatMap Clause.lexemes)
      (first : t.position.offset = lead.length)
      (separator : s.position.offset = lead.length + key.length)

section
variable {before after : List Clause} {p : Path} {sep : Separator} {x : Operand} {lead key rest text : List Char}

theorem ended_of_clauses {us : List Token} {cs : List Clause} (h : us.map Token.lexeme = cs.flatMap Clause.lexemes) :
    Ended us := by
  intro t ht
  have hlast : t.lexeme ∈ (us.map Token.lexeme).getLast? := by
    rw [List.getLast?_map]
    exact Option.mem_map_of_mem _ ht
  rw [h] at hlast
  cases cs using List.reverseRecOn with
  | nil => cases hlast
  | append_singleton cs c =>
    have hc : ∃ ls, c.lexemes = ls ++ [.mark .semicolon] := by
      cases c with
      | assign p sep x => exact ⟨p.lexemes ++ .mark sep.mark :: x.lexemes, by simp [Clause.lexemes]⟩
      | query q => exact ⟨[.query q], rfl⟩
    obtain ⟨ls, hls⟩ := hc
    rw [List.flatMap_append, List.flatMap_singleton, hls, ← List.append_assoc, List.getLast?_concat] at hlast
    exact (Option.some.inj hlast).symm

theorem flatMap_lexemes (before after : List Clause) (p : Path) (sep : Separator) (x : Operand) :
    (before ++ .assign p sep x :: after).flatMap Clause.lexemes = before.flatMap Clause.lexemes ++
      (p.lexemes ++ (.mark sep.mark :: (x.lexemes ++ [.mark .semicolon]) ++ after.flatMap Clause.lexemes)) := by
  simp [Clause.lexemes]

/-- Every assignment of a text has a key in it. -/
theorem exists_keyIn (h : Lexes ((before ++ .assign p sep x :: after).flatMap Clause.lexemes) text) :
    ∃ lead key rest, lead ++ (key ++ rest) = text ∧ KeyIn before p sep x after lead key rest := by
  obtain ⟨⟨ts, stop⟩, hts, hlexemes⟩ := h
  rw [flatMap_lexemes] at hlexemes
  obtain ⟨us, _, rfl, hus, h₁⟩ := List.map_eq_append_iff.1 hlexemes
  obtain ⟨_, _, rfl, hpath, h₂⟩ := List.map_eq_append_iff.1 h₁
  obtain ⟨t, ps, rfl, ht, hps⟩ := List.map_eq_cons_iff.1 hpath
  obtain ⟨s, vs, rfl, hs, hvs⟩ := List.map_eq_cons_iff.1 h₂
  have htiled : Tiled .start (us ++ t :: (ps ++ s :: vs)) text := tiled_of_scan hts
  obtain ⟨lead, _, rfl, hlead, hrest, -⟩ := htiled.split
  have hrest : Tiled t.position ((t :: ps) ++ s :: vs) _ := hrest
  obtain ⟨key, rest, rfl, hkey, -, -⟩ := hrest.split
  refine ⟨lead, key, rest, rfl, .intro hts hus hpath h₂ ?_ ?_⟩
  · rw [hlead, Position.offset_after]
    exact Nat.zero_add _
  · rw [hkey, hlead, Position.offset_after, Position.offset_after]
    exact congrArg (· + key.length) (Nat.zero_add _)

theorem KeyIn.lexes (h : KeyIn before p sep x after lead key rest) :
    Lexes ((before ++ .assign p sep x :: after).flatMap Clause.lexemes) (lead ++ (key ++ rest)) := by
  obtain ⟨htokens, hearlier, hpath, hlater, -, -⟩ := h
  refine ⟨_, htokens, ?_⟩
  rw [flatMap_lexemes, ← hearlier, ← hpath, ← hlater]
  simp only [List.map_append, List.map_cons, List.cons_append]

/-- The key may be another path. -/
theorem lexes_respelled (h : KeyIn before p sep x after lead key rest) (k : Key) :
    Lexes ((before ++ .assign k.path sep x :: after).flatMap Clause.lexemes) (lead ++ (k.name.toList ++ rest)) := by
  obtain ⟨htokens, hearlier, hpath, hlater, hfirst, hseparator⟩ := h
  rename_i us ps vs t s stop
  have htiled : Tiled .start (us ++ t :: (ps ++ s :: vs)) (lead ++ (key ++ rest)) := tiled_of_scan htokens
  obtain ⟨hkey, hlead⟩ := htiled.split_at (hfirst.trans (Nat.zero_add _).symm)
  have hkey : Tiled t.position ((t :: ps) ++ s :: vs) (key ++ rest) := hkey
  obtain ⟨hrest, -⟩ := hkey.split_at (by rw [hseparator, hfirst])
  have hstops : Stops isWordChar rest := by
    obtain ⟨cs, more, rfl, hwritten⟩ := hrest.exists_head rfl
    have hs : s.lexeme = .mark sep.mark := (List.cons.inj hlater).1
    rw [hs] at hwritten
    obtain rfl : cs = [sep.mark.char] := hwritten.shape
    cases sep <;> exact stops_cons.2 rfl
  have hlexes : Lexes (k.path.lexemes ++ (s :: vs).map Token.lexeme) (k.name.toList ++ rest) :=
    lexes_key k.words hstops hrest.lexes
  obtain ⟨ws, hws, hlexemes⟩ := (lexes_iff_tiled t.position).1 hlexes
  have hwhole := (hlead (ended_of_clauses hearlier) ws _ hws).lexes
  rwa [List.map_append, hearlier, hlexemes, hlater, ← flatMap_lexemes] at hwhole

/-- Of a key that is looked up another spelling gives the same submission, or the same fault. -/
theorem ofProgram_respelled {v : Vocabulary} (h : KeyIn before p sep x after lead key rest) (k : Key)
    (hkey : lookupKey k.name = lookupKey p.key) (hknown : lookupKey p.key ∈ v.keys) :
    ofProgram v (lead ++ (k.name.toList ++ rest)) = ofProgram v (lead ++ (key ++ rest)) := by
  have hresolve : v.resolve p.key = v.resolve k.path.key := resolve_eq_of_lookupKey hkey.symm hknown
  have hbinding : (Clause.assign k.path sep x).binding? v = (Clause.assign p sep x).binding? v := by
    rw [Clause.binding?, Clause.binding?, ← hresolve]
  have hfault : (Clause.assign k.path sep x).fault? = (Clause.assign p sep x).fault? := by
    cases x <;> rfl
  have hsubmission : Clause.submission v (before ++ .assign k.path sep x :: after) =
      Clause.submission v (before ++ .assign p sep x :: after) := by
    simp only [Clause.submission, List.filterMap_append, List.filterMap_cons, hbinding, List.any_append, List.any_cons,
      Clause.isQuery]
  rw [ofProgram_of_lexes (lexes_respelled h k), ofProgram_of_lexes h.lexes, hsubmission, List.findSome?_append,
    List.findSome?_append, List.findSome?_cons, List.findSome?_cons, hfault]

end

/-- Of the canonical names with the lower case of a key the last one counts; where there is none, the owner of the last
    synonym that is looked up like the key; and where there is none either, the key is left as it is. So keys that are
    looked up alike are resolved alike. Every assignment of a text has a key in it, and if this is known, another
    spelling of it in its place gives the same submission, or the same fault. -/
theorem keys_resolved_by_declaration (r : Ruleset) :
    (∀ k : Value, (∃ c ∈ r.aliases.keys, lowerText c = lookupKey k.display) →
      ∃ before c after, r.aliases.keys = before ++ c :: after ∧ lowerText c = lookupKey k.display ∧
        (∀ d ∈ after, lowerText d ≠ lookupKey k.display) ∧ r.vocabulary.resolveKey k = .text c) ∧
    (∀ k : Value, (∀ c ∈ r.aliases.keys, lowerText c ≠ lookupKey k.display) →
      (∃ e ∈ synonyms r.aliases, lookupKey e.1 = lookupKey k.display) →
      ∃ before e after, synonyms r.aliases = before ++ e :: after ∧ lookupKey e.1 = lookupKey k.display ∧
        (∀ d ∈ after, lookupKey d.1 ≠ lookupKey k.display) ∧ r.vocabulary.resolveKey k = .text e.2) ∧
    (∀ k : Value, (∀ c ∈ r.aliases.keys, lowerText c ≠ lookupKey k.display) →
      (∀ e ∈ synonyms r.aliases, lookupKey e.1 ≠ lookupKey k.display) → r.vocabulary.resolveKey k = k) ∧
    (∀ k k' : Value, lookupKey k.display = lookupKey k'.display →
      (∃ c ∈ r.aliases.keys, r.vocabulary.resolveKey k = .text c ∧ r.vocabulary.resolveKey k' = .text c) ∨
      (r.vocabulary.resolveKey k = k ∧ r.vocabulary.resolveKey k' = k')) ∧
    (∀ before p sep x after text, Lexes ((before ++ .assign p sep x :: after).flatMap Clause.lexemes) text →
      ∃ lead key rest, lead ++ (key ++ rest) = text ∧ KeyIn before p sep x after lead key rest) ∧
    ∀ before p sep x after lead key rest, KeyIn before p sep x after lead key rest → lookupKey p.key ∈ r.vocabulary.keys →
      ∀ k : Key, lookupKey k.name = lookupKey p.key →
        ofProgram r.vocabulary (lead ++ (k.name.toList ++ rest)) = ofProgram r.vocabulary (lead ++ (key ++ rest)) :=
  ⟨fun _ => resolveKey_canonical, fun _ => resolveKey_synonym, fun _ => resolveKey_unknown, fun _ _ => resolveKey_alike,
    fun _ _ _ _ _ _ => exists_keyIn, fun _ _ _ _ _ _ _ _ h hknown k hkey => ofProgram_respelled h k hkey hknown⟩

/-- A canonical name that is also a synonym of another one, and a key with a comment after it. -/
theorem keys_resolved_by_declaration_crossed :
    crossed.vocabulary.resolveKey (.text " RATING") = .text "Rating" ∧
    ofProgram crossed.vocabulary "a:b;State// c\n:d;".toList = ofProgram crossed.vocabulary "a:b;STATE:d;".toList := by
  obtain ⟨hcanonical, -, -, -, -, htext⟩ := keys_resolved_by_declaration crossed
  constructor
  · obtain ⟨before, c, after, hdeclared, hc, -, hresolved⟩ := hcanonical (.text " RATING") ⟨"Rating", by decide +kernel⟩
    have hmem : c ∈ crossed.aliases.keys := by simp [hdeclared]
    have hlower : ∀ d ∈ crossed.aliases.keys, lowerText d = lookupKey " RATING" → d = "Rating" := by decide +kernel
    rw [hresolved, hlower c hmem hc]
  · have htokens : tokens ("a:b;".toList ++ ("State// c\n".toList ++ ":d;".toList)) = .ok ⟨[⟨.word "a", ⟨1, 1, 0⟩⟩,
        ⟨.mark .colon, ⟨1, 2, 1⟩⟩, ⟨.word "b", ⟨1, 3, 2⟩⟩, ⟨.mark .semicolon, ⟨1, 4, 3⟩⟩] ++
        ⟨.word "State", ⟨1, 5, 4⟩⟩ :: ([] ++ ⟨.mark .colon, ⟨2, 1, 14⟩⟩ ::
          [⟨.word "d", ⟨2, 2, 15⟩⟩, ⟨.mark .semicolon, ⟨2, 3, 16⟩⟩]), ⟨2, 4, 17⟩⟩ := by decide +kernel
    have hkey : KeyIn [.assign ⟨"a", []⟩ .colon (.path ⟨"b", []⟩)] ⟨"State", []⟩ .colon (.path ⟨"d", []⟩) []
        "a:b;".toList "State// c\n".toList ":d;".toList := .intro htokens rfl rfl rfl rfl rfl
    have hspelled : ofProgram crossed.vocabulary ("a:b;".toList ++ ("STATE".toList ++ ":d;".toList)) = _ :=
      htext _ _ _ _ _ _ _ _ hkey (by decide +kernel) ⟨⟨"STATE", []⟩, by decide +kernel⟩ (by decide +kernel)
    exact hspelled.symm

end Appraisal.Submission.Grammar
