import Appraisal.Matching
import Appraisal.Rating.Basic

/-! Decisions. The rules that trigger are ranked by tiers: hard rules that judge the matter infeasible, other hard
    rules, soft rules. The first tier with a rule decides the verdict, and its first rule in the order of
    declaration is the primary one. -/

namespace Appraisal

inductive Verdict where
  | no
  | qualified
  | advisory
  | yes
  deriving DecidableEq, Repr

def Verdict.name : Verdict → String
  | no => "NO"
  | qualified => "YES*"
  | advisory => "YES(ADVISORY)"
  | yes => "YES"

/-- The tiers, the strongest first. -/
inductive Tier where
  | hardInfeasible
  | hardOther
  | soft
  | none
  deriving DecidableEq, Repr

namespace Tier

def name : Tier → String
  | hardInfeasible => "hard_infeasible"
  | hardOther => "hard_other"
  | soft => "soft"
  | none => "none"

def verdict : Tier → Verdict
  | hardInfeasible => .no
  | hardOther => .qualified
  | soft => .advisory
  | none => .yes

def all : List Tier := [hardInfeasible, hardOther, soft, none]

end Tier

/-- What a decision says about a rule. -/
structure Citation.Ref where
  id : String
  name : String
  group : String
  cit : String
  level : String
  severity : Severity
  judgement : String
  rationale : Option String
  status : Option String
  deriving DecidableEq, Repr

structure Decision where
  verdict : Verdict
  tier : Tier
  judgement : String
  primary : Option Citation.Ref
  triggered : List Citation.Ref
  triggeredHard : List Citation.Ref
  triggeredSoft : List Citation.Ref
  derivations : List Derivation

namespace Rule

/-- The rule judges the matter infeasible, in any letter case. -/
def isInfeasible (r : Rule) : Bool := lowerText r.judgement = "infeasible"

end Rule

namespace Ruleset

def isSoft (r : Ruleset) (rule : Rule) : Bool := r.severityOf rule = .soft

def cite (r : Ruleset) (rule : Rule) : Citation.Ref where
  id := rule.id
  name := rule.name
  group := rule.group
  cit := rule.cit
  level := rule.level.getD ""
  severity := r.severityOf rule
  judgement := rule.judgement
  rationale := rule.rationale
  status := rule.status

end Ruleset

namespace Decision

/-- The first rule that a tier takes from the hard and the soft rules that triggered. -/
def candidate (hard soft : List Rule) : Tier → Option Rule
  | .hardInfeasible => hard.find? (·.isInfeasible)
  | .hardOther => hard.find? (!·.isInfeasible)
  | .soft => soft.head?
  | .none => none

/-- The first tier with a rule, and that rule. -/
def select (hard soft : List Rule) : Tier × Option Rule :=
  (Tier.all.findSome? fun tier => (candidate hard soft tier).map fun rule => (tier, some rule)).getD (.none, none)

/-- The judgement of a tier with its primary rule. -/
def judgementOf : Tier → Option Rule → String
  | .hardInfeasible, _ => "Infeasible"
  | .hardOther, some rule => rule.judgement
  | .soft, some rule => if rule.judgement.isEmpty then "Advisory flags present" else rule.judgement
  | _, _ => "No hard infeasibility triggered"

def triggeredIds (d : Decision) : List String := d.triggered.map (·.id)

end Decision

namespace Ruleset

def decide (r : Ruleset) (fields : OrderedMap Value) (derivations : List Derivation) : Decision :=
  let triggered := r.triggered fields
  let hard := triggered.filter (!r.isSoft ·)
  let soft := triggered.filter r.isSoft
  let (tier, primary) := Decision.select hard soft
  { verdict := tier.verdict
    tier
    judgement := Decision.judgementOf tier primary
    primary := primary.map r.cite
    triggered := triggered.map r.cite
    triggeredHard := hard.map r.cite
    triggeredSoft := soft.map r.cite
    derivations }

end Ruleset
end Appraisal
