import Appraisal.Citation.Record
import Appraisal.Submission.Basic

/-! Appraising a submission: it is read, values are derived from its ratings, the rules decide, and the decision is
    traced. A decision is sent as a document with all that is known of it. -/

namespace Appraisal

/-! ### Decisions as documents -/

def Citation.Ref.toValue (r : Citation.Ref) : Value :=
  .map [("id", .text r.id), ("name", .text r.name), ("group", .text r.group), ("cit", .text r.cit),
    ("level", .text r.level), ("severity", .text r.severity.name), ("judgement", .text r.judgement),
    ("rationale", .textOr r.rationale), ("status", .textOr r.status)]

def Derivation.toValue (d : Derivation) : Value :=
  .map [("name", .text d.name), ("value", d.value),
    ("from", d.contributors.elim .null fun cs => .list (cs.map contributorValue))]

namespace Decision

/-- A decision with what is known of its submission and its trace. -/
def toValue (d : Decision) (dialect : Option Submission.Dialect) (seenQuery : Bool)
    (trace : Option Citation.Trace) : Value :=
  .map [("verdict", .text d.verdict.name), ("judgement", .text d.judgement), ("tier", .text d.tier.name),
    ("primary_rule", d.primary.elim .null Citation.Ref.toValue),
    ("triggered", .list (d.triggered.map Citation.Ref.toValue)),
    ("triggered_hard", .list (d.triggeredHard.map Citation.Ref.toValue)),
    ("triggered_soft", .list (d.triggeredSoft.map Citation.Ref.toValue)),
    ("derivations", .list (d.derivations.map Derivation.toValue)),
    ("dialect", .textOr (dialect.map Submission.Dialect.name)), ("seen_query", .bool seenQuery),
    ("submitted_at", .textOr (trace.map (·.submittedAt))), ("fingerprint", .textOr (trace.map (·.fingerprint))),
    ("trace_id", .textOr (trace.map (·.traceId)))]

end Decision

/-! ### Appraising -/

inductive AppraisalFault where
  | submission (f : Submission.Fault)
  | outOfCalendar (e : Citation.OutOfCalendar)
  deriving DecidableEq, Repr

/-- A decision with the submission that asked for it and its trace. -/
structure Appraised where
  decision : Decision
  dialect : Submission.Dialect
  seenQuery : Bool
  trace : Citation.Trace

def Appraised.toValue (a : Appraised) : Value := a.decision.toValue (some a.dialect) a.seenQuery (some a.trace)

namespace Ruleset

/-- Appraises a text at a moment; ids begin with `head`. -/
def appraise (r : Ruleset) (text : List Char) (now : Citation.Moment) (head : String) :
    Except AppraisalFault Appraised :=
  match Submission.read r.vocabulary text with
  | .error f => .error (.submission f)
  | .ok submission =>
    let (fields, derivations) := Rating.derive r.vocabulary submission.fields
    let decision := r.decide fields derivations
    match Citation.trace decision r now head with
    | .error e => .error (.outOfCalendar e)
    | .ok trace => .ok { decision, dialect := submission.dialect, seenQuery := submission.seenQuery, trace }

end Ruleset

end Appraisal
