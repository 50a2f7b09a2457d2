import Appraisal.Proofs.Appraise
import Appraisal.Proofs.Decision
import Appraisal.Proofs.Service.Deferred
import Appraisal.Proofs.Submission.Faults

/-! Replies of one service agree. As long as every reloading succeeds, all routes that tell of the rules do so from the
    ruleset that was read last (`Tells`), and from no other until the next reloading. So a check shows rules that are
    listed, in their order and as they are listed, and names the notation that its text is said to be in
    (`Reply.Agrees`). Together these are `routes_agree`. -/

namespace Appraisal.Service

/-! ### What replies say -/

/-- What a reply says under a key. -/
def Reply.field? (reply : Reply) (key : String) : Option Value := reply.body.bind (·.field? key)

/-- What replies say of a rule. -/
structure RuleHead where
  id : String
  severity : String
  judgement : String

def RuleHead.ofValue? (v : Value) : Option RuleHead :=
  match v.field? "id", v.field? "severity", v.field? "judgement" with
  | some (.text id), some (.text severity), some (.text judgement) => some ⟨id, severity, judgement⟩
  | _, _, _ => none

/-- Under the key the reply has a list of documents about these rules. -/
def Reply.Lists (reply : Reply) (key : String) (heads : List RuleHead) : Prop :=
  ∃ items, reply.field? key = some (.list items) ∧ items.map RuleHead.ofValue? = heads.map some

def headOf (r : Ruleset) (rule : Rule) : RuleHead := ⟨rule.id, (r.severityOf rule).name, rule.judgement⟩

/-- The reply about the notation of a text. -/
def dialectReply (text : String) : Reply :=
  ok (.map [("dialect", .text (Submission.Dialect.detect text.toList).name)])

/-- A reply to a check goes with what is listed and with what is told of the notation of the text. A decision shows
    listed rules only, each with the severity and the judgement of the one listed rule that has its id, and knows the
    notation. A text is reported on only if it is in the statement notation. -/
structure Reply.Agrees (checked listing told : Reply) : Prop where
  rules : checked.status = 200 → ∃ listed shown, listing.Lists "rules" listed ∧ checked.Lists "triggered" shown ∧
    shown.Sublist listed ∧ (listed.map (·.id)).Nodup
  dialect : checked.status = 200 →
    ∃ name, checked.field? "dialect" = some (.text name) ∧ told.field? "dialect" = some (.text name)
  report : checked.status = 422 →
    checked.field? "error" = some (.text "lex_error") ∨ checked.field? "error" = some (.text "parse_error") →
      told.field? "dialect" = some (.text "dsl")

/-- The service answers from this ruleset on every route that tells of the rules. -/
structure Tells (s : Service) (r : Ruleset) : Prop where
  root : ∀ now q, q.route? = some .root → (s.handle now q).2 = .ok (rootReply s r)
  rules : ∀ now q, q.route? = some .rules → (s.handle now q).2 = .ok (rulesReply r)
  rule : ∀ now q id, q.route? = some (.rule id) → (s.handle now q).2 = .ok (ruleReply r id)
  check : ∀ now q, q.route? = some .check →
    (s.handle now q).2 = withText q.body (checkReply r now s.settings.traceHead)

theorem ofValue?_ruleSummary (r : Ruleset) (rule : Rule) :
    RuleHead.ofValue? (ruleSummary r rule) = some (headOf r rule) := by
  simp [RuleHead.ofValue?, ruleSummary, Value.field?, Entries.get?, headOf]

theorem ofValue?_cite (r : Ruleset) (rule : Rule) :
    RuleHead.ofValue? (r.cite rule).toValue = some (headOf r rule) := by
  simp [RuleHead.ofValue?, Citation.Ref.toValue, Ruleset.cite, Value.field?, Entries.get?, headOf]

theorem lists_rulesReply (r : Ruleset) : (rulesReply r).Lists "rules" (r.rules.map (headOf r)) := by
  refine ⟨r.rules.map (ruleSummary r), rfl, ?_⟩
  rw [List.map_map, List.map_map]
  exact List.map_congr_left fun rule _ => ofValue?_ruleSummary r rule

theorem lists_decision (r : Ruleset) {a : Appraised} {fields : OrderedMap Value} {derivations : List Derivation}
    (h : a.decision = r.decide fields derivations) :
    (ok a.toValue).Lists "triggered" ((r.triggered fields).map (headOf r)) := by
  refine ⟨a.decision.triggered.map Citation.Ref.toValue, rfl, ?_⟩
  rw [h, Ruleset.decide_triggered, List.map_map, List.map_map, List.map_map]
  exact List.map_congr_left fun rule _ => ofValue?_cite r rule

section
variable {s : Service} {r : Ruleset} {now : Citation.Moment} {q : Request}

/-! ### Replies from a ruleset -/

theorem head_not_mem_methods {route : Route} (h : ∀ p, route ≠ .page p) : .head ∉ route.methods := by
  cases route with
  | page p => exact absurd rfl (h p)
  | _ => simp [Route.methods]

/-- Only pages answer requests for a head alone, so all other replies are sent with their documents. -/
theorem map_sent {route : Route} (h : q.route? = some route) (hpage : ∀ p, route ≠ .page p)
    (result : Except Fault Reply) : result.map (sent q.method) = result := by
  obtain ⟨-, hadmits⟩ := Option.filter_eq_some_iff.1 h
  have hmethod : methodName q.method ≠ "HEAD" := by
    intro heq
    rw [Route.admits, heq, List.contains_iff_mem] at hadmits
    obtain ⟨method, hmem, hname⟩ := List.mem_map.1 hadmits
    cases method with
    | head => exact head_not_mem_methods hpage hmem
    | get | post => exact absurd hname (by decide)
  have hsent : sent q.method = id := by
    funext reply
    exact if_neg hmethod
  rw [hsent]
  cases result <;> rfl

theorem reply_of_route {route : Route} (h : q.route? = some route) (hpage : ∀ p, route ≠ .page p) :
    (s.handle now q).2 = (s.answer now q.body route).2 := by
  rw [handle_of_route h]
  exact map_sent h hpage _

theorem tells_of_current (h : s.current = .ok r) : s.Tells r where
  root now q hroute := by
    rw [reply_of_route hroute (by simp), answer, h]
    rfl
  rules now q hroute := by
    rw [reply_of_route hroute (by simp), answer, h]
    rfl
  rule now q id hroute := by
    rw [reply_of_route hroute (by simp), answer, h]
    rfl
  check now q hroute := by
    have hcheck : s.check now = checkReply r now s.settings.traceHead := by
      funext text
      unfold check
      rw [h]
      rfl
    rw [reply_of_route hroute (by simp), answer, hcheck]

theorem Serves.current {first : Service} {read : FileStore} (h : Serves first read s)
    (hread : first.reading read = .ok r) : s.current = .ok r := by
  unfold Service.current
  rw [h.ruleset, hread]
  rfl

theorem withText_eq_ok_iff {body : Option Value} {answer : String → Except Fault Reply} {reply : Reply} :
    withText body answer = .ok reply ↔ (∃ text, submittedText body = .ok text ∧ answer text = .ok reply) ∨
      ∃ issue, submittedText body = .error issue ∧ refuse issue = reply := by
  unfold withText
  cases submittedText body <;> simp

theorem reloads_eq_nil {more : List Event} (h : ∀ e ∈ more, ¬ e.IsReload) : s.reloads more = [] := by
  induction more generalizing s with
  | nil => rfl
  | cons e rest ih =>
    obtain ⟨he, hrest⟩ := List.forall_mem_cons.1 h
    rw [reloads, if_neg he, ih hrest]
    rfl

theorem nodup_ids_of_reading {read : FileStore} (h : s.reading read = .ok r) : (r.rules.map (·.id)).Nodup := by
  change (Registry.perform _ (.source s.host.readers read none)).2 = .ok r at h
  rcases (Registry.ofSource (Registry.sourceOf (some s.settings.rulesetPath))).perform_cases
    (.source s.host.readers read none) with ⟨x, entries, -, -, hperform⟩ | ⟨lacking, f, -, hperform⟩
  · rw [hperform] at h
    cases h
    exact Ruleset.nodup_ids_of_read x.accepted
  · rw [hperform] at h
    cases h

/-! ### Replies that go together -/

theorem reload_agrees {reply : Reply} (hq : q.route? = some .reload) (h : (s.handle now q).2 = .ok reply) :
    ∃ r n, (s.handle now q).1.Tells r ∧ reply.field? "rules_loaded" = some (.int n) ∧
      (rulesReply r).field? "total" = some (.int n) := by
  have hafter := @handle_of_reload s now q hq
  rw [reply_of_route hq (by simp)] at h
  unfold answer reload at h
  have hruleset := freshRegistry_ruleset s.host.readers s.settings s.files
  generalize freshRegistry s.host.readers s.settings s.files = outcome at h hafter hruleset
  rcases outcome with ⟨g, f | r⟩
  · cases h
  -- The reply counts the rules that were read, and those are in service after it.
  · cases h
    have hcurrent : (s.handle now q).1.current = .ok r := by
      rw [hafter, current, show g.ruleset = some r from hruleset]
    exact ⟨r, r.rules.length, tells_of_current hcurrent, rfl, rfl⟩

theorem agrees_of_appraised {head text : String} {a : Appraised} (hids : (r.rules.map (·.id)).Nodup)
    (h : r.appraise text.toList now head = .ok a) : (ok a.toValue).Agrees (rulesReply r) (dialectReply text) where
  rules _ := by
    obtain ⟨submission, -, hdecision, -⟩ := Ruleset.appraise_eq_ok h
    refine ⟨_, _, lists_rulesReply r, lists_decision r hdecision, List.filter_sublist.map _, ?_⟩
    rwa [List.map_map]
  dialect _ := by
    obtain ⟨submission, hread, -, hdialect⟩ := Ruleset.appraise_eq_ok h
    refine ⟨(Submission.Dialect.detect text.toList).name, ?_, rfl⟩
    rw [← Submission.dialect_of_read hread, ← hdialect]
    rfl
  report hstatus := by
    rw [show (ok a.toValue).status = 200 from rfl] at hstatus
    cases hstatus

theorem agrees_of_report {head text : String} {report : Submission.Report}
    (h : r.appraise text.toList now head = .error (.submission (.malformed report))) :
    (reportReply report).Agrees (rulesReply r) (dialectReply text) where
  rules hstatus := by cases hstatus
  dialect hstatus := by cases hstatus
  report _ _ := by
    have hread := Ruleset.appraise_eq_submission_iff.1 h
    rw [dialectReply, Submission.malformed_only_in_statements hread]
    rfl

theorem agrees_of_refused (issue : Issue) (listing told : Reply) : (refuse issue).Agrees listing told where
  rules hstatus := by cases hstatus
  dialect hstatus := by cases hstatus
  report _ herror := by rcases herror with herror | herror <;> cases herror

theorem agrees_of_check {body : Option Value} {head : String} {checked told : Reply}
    (hids : (r.rules.map (·.id)).Nodup) (hchecked : withText body (checkReply r now head) = .ok checked)
    (htold : withText body (fun text => .ok (dialectReply text)) = .ok told) : checked.Agrees (rulesReply r) told := by
  rcases withText_eq_ok_iff.1 hchecked with ⟨text, htext, hreply⟩ | ⟨issue, -, rfl⟩
  · rw [withText, htext] at htold
    cases htold
    cases happraise : r.appraise text.toList now head with
    | ok a =>
      rw [checkReply, happraise] at hreply
      cases hreply
      exact agrees_of_appraised hids happraise
    | error f =>
      rw [checkReply, happraise] at hreply
      rcases f with (report | f) | e
      · cases hreply
        exact agrees_of_report happraise
      · cases hreply
      · cases hreply
  · exact agrees_of_refused issue _ _

theorem exists_dialect_reply (h : q.route? = some .dialect) :
    ∃ told, (s.handle now q).2 = .ok told ∧ withText q.body (fun text => .ok (dialectReply text)) = .ok told := by
  rw [reply_of_route h (by simp), answer]
  unfold withText
  cases submittedText q.body with
  | ok text => exact ⟨_, rfl, rfl⟩
  | error issue => exact ⟨_, rfl, rfl⟩

/-- As long as every reloading succeeds, all routes that tell of the rules do so from the ruleset that was found in the
    files at the last reading, whatever is written until the next one. A reloading that succeeds names the number of
    rules that the listing right after it has. A reply to a check agrees with the listing and with what is told of the
    notation of its text. All this is so as well if the registry and the appraiser are only made when they are asked
    for. -/
theorem routes_agree {host : Host} {environment : OrderedMap String} {files : FileStore}
    (h : start host environment files = .ok s) (events : List Event)
    (hreloads : ∀ read ∈ s.reloads events, ∃ r, s.reading read = .ok r) :
    let last := (s.reloads events).getLast?.getD files
    let t := s.run events
    (∃ r, s.reading last = .ok r ∧ ∀ more, (∀ e ∈ more, ¬ Event.IsReload e) → (t.run more).Tells r) ∧
      (∀ now q reply, q.route? = some .reload → (t.handle now q).2 = .ok reply →
        ∀ now' ql, ql.route? = some .rules → ∃ listing n, ((t.handle now q).1.handle now' ql).2 = .ok listing ∧
          reply.field? "rules_loaded" = some (.int n) ∧ listing.field? "total" = some (.int n)) ∧
      (∀ now q checked, q.route? = some .check → (t.handle now q).2 = .ok checked →
        ∀ now' ql, ql.route? = some .rules →
        ∀ now'' qd, qd.route? = some .dialect → submittedText qd.body = submittedText q.body →
          ∃ listing told, (t.handle now' ql).2 = .ok listing ∧ (t.handle now'' qd).2 = .ok told ∧
            checked.Agrees listing told) ∧
      ∀ now q, (((Deferred.opened s.host s.settings files).run events).handle now q).2 = (t.handle now q).2 := by
  intro last t
  obtain ⟨hserves, hstart⟩ := serves_of_start h
  obtain ⟨r, hr⟩ : ∃ r, s.reading last = .ok r := exists_of_last hstart hreloads
  have hserves_t : Serves s last t := hserves.run events
  have htells : t.Tells r := tells_of_current (hserves_t.current hr)
  refine ⟨⟨r, hr, fun more hmore => ?_⟩, ?_, ?_, Deferred.handle_run h events⟩
  -- Without a reloading the last reading stays the last one.
  · have hmore_t := hserves_t.run more
    rw [reloads_eq_nil hmore] at hmore_t
    exact tells_of_current (hmore_t.current hr)
  · intro now q reply hq hreply now' ql hql
    obtain ⟨r', n, htells', hloaded, htotal⟩ := reload_agrees hq hreply
    exact ⟨_, n, htells'.rules now' ql hql, hloaded, htotal⟩
  · intro now q checked hq hchecked now' ql hql now'' qd hqd hsame
    rw [htells.check now q hq, withText, ← hsame] at hchecked
    obtain ⟨told, htold, hdialect⟩ := @exists_dialect_reply t now'' qd hqd
    exact ⟨_, told, htells.rules now' ql hql, htold, agrees_of_check (nodup_ids_of_reading hr) hchecked hdialect⟩

end

/-- A file with one rule is written and read, and emptied after that. -/
def exchanged : List Event :=
  [.write (.ofText "r.yaml") "\x7b\"rules\":[\x7b\"id\":\"R1\"\x7d]\x7d".toUTF8.toList, reloading,
    emptied "r.yaml"]

def checking : Request := ⟨"POST", "/check", some (.map [("text", .text "A: 1")])⟩

def naming : Request := { checking with target := "/check/dialect" }

/-- The one rule is listed, as the file was read before it was emptied, and a check agrees with the listing. -/
theorem routes_agree_exchanged : ∃ s, start sampleHost (.ofList [("SSE_RULESET_PATH", "r.yaml")]) sampleFiles = .ok s ∧
    (∀ read ∈ s.reloads exchanged, ∃ r, s.reading read = .ok r) ∧
    ∃ r checked told, r.rules.length = 1 ∧ ((s.run exchanged).handle noon listing).2 = .ok (rulesReply r) ∧
      ((s.run exchanged).handle noon checking).2 = .ok checked ∧ checked.status = 200 ∧
      ((s.run exchanged).handle noon naming).2 = .ok told ∧ checked.Agrees (rulesReply r) told := by
  obtain ⟨s, hs, hp⟩ := exists_start (.ofList [("SSE_RULESET_PATH", "r.yaml")]) (p := fun s =>
    (s.reloads exchanged).map (fun read => (s.reading read).toOption.map (·.rules.length)) == [some 1] &&
      ((s.run exchanged).handle noon checking).2.toOption.any (·.status == 200)) (by decide +kernel)
  obtain ⟨hread, hchecked⟩ := Bool.and_eq_true_iff.1 hp
  obtain ⟨read, hreloads, hlength⟩ := List.map_eq_singleton_iff.1 (eq_of_beq hread)
  obtain ⟨r, hr, hlength⟩ := Option.map_eq_some_iff.1 hlength
  obtain ⟨checked, hchecked, hstatus⟩ := (Option.any_eq_true ..).1 hchecked
  have hsucceeded : ∀ read ∈ s.reloads exchanged, ∃ r, s.reading read = .ok r := by
    rw [hreloads]
    exact List.forall_mem_singleton.2 ⟨r, Outcome.toOption_eq_some_iff.1 hr⟩
  obtain ⟨⟨r', hr', htells⟩, -, hagrees, -⟩ := routes_agree hs exchanged hsucceeded
  have hsame : r' = r := by
    rw [hreloads] at hr'
    exact Except.ok.inj (hr'.symm.trans (Outcome.toOption_eq_some_iff.1 hr))
  have hlisting : listing.route? = some .rules := by decide +kernel
  have hchecking : checking.route? = some .check := by decide +kernel
  have hnaming : naming.route? = some .dialect := by decide +kernel
  have hlisted := (htells [] (by simp)).rules noon listing hlisting
  obtain ⟨listed, told, hlisted', htold, hagrees⟩ := hagrees noon checking checked hchecking
    (Outcome.toOption_eq_some_iff.1 hchecked) noon listing hlisting noon naming hnaming rfl
  obtain rfl := Except.ok.inj (hlisted.symm.trans hlisted')
  subst hsame
  exact ⟨s, hs, hsucceeded, r', checked, told, hlength, hlisted, Outcome.toOption_eq_some_iff.1 hchecked,
    eq_of_beq hstatus, htold, hagrees⟩

end Appraisal.Service
