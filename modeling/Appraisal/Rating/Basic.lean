import Appraisal.Ruleset.Checked

/-! Ratings. A field whose name begins with `rating.` rates one attribute on a scale of seven levels. From the
    ratings of a submission two values are derived: how many are moderate or worse, and whether one is critical. The
    tally is also put among the fields, where rules can test it. -/

namespace Appraisal

/-- The levels, the best first. -/
inductive RatingLevel where
  | excellent
  | good
  | fair
  | moderate
  | poor
  | major
  | critical
  deriving DecidableEq, Repr

namespace RatingLevel

def name : RatingLevel → String
  | excellent => "excellent"
  | good => "good"
  | fair => "fair"
  | moderate => "moderate"
  | poor => "poor"
  | major => "major"
  | critical => "critical"

def all : List RatingLevel := [excellent, good, fair, moderate, poor, major, critical]

/-- The place of a level, counted from the best. -/
def rank : RatingLevel → Nat
  | excellent => 0
  | good => 1
  | fair => 2
  | moderate => 3
  | poor => 4
  | major => 5
  | critical => 6

def ofName? (name : String) : Option RatingLevel := all.find? (·.name == name)

/-- The level counts towards the tally. -/
def isModerateOrWorse (l : RatingLevel) : Bool := moderate.rank ≤ l.rank

/-- The name of the level that a value gives, whether it exists or not. -/
def nameIn (v : Value) : String := lowerText (stripText v.display)

/-- The level that a value names; `null` names none. -/
def ofValue? : Value → Option RatingLevel
  | .null => none
  | v => ofName? (nameIn v)

end RatingLevel

/-- A rating that counted towards a derived value. -/
structure Contributor where
  field : String
  level : String
  deriving DecidableEq, Repr

/-- A derived value, or a remark about a rating. -/
structure Derivation where
  name : String
  value : Value
  contributors : Option (List Contributor)

namespace Derivation

def tallyName : String := "ModerateOrWorseCount"
def criticalName : String := "AnyCriticalFlag"
def warningName : String := "RatingParseWarning"

/-- The remark about a rating whose level does not exist. -/
def warning (field level : String) : Derivation :=
  ⟨warningName, .text ("Ignored Rating field '" ++ field ++ "' with unrecognized level '" ++ level ++ "'"), none⟩

def tally (contributors : List Contributor) : Derivation :=
  ⟨tallyName, .int contributors.length, some contributors⟩

def criticalFlag (contributors : List Contributor) : Derivation :=
  ⟨criticalName, .bool (contributors.any (·.level == RatingLevel.critical.name)), none⟩

def isWarning (d : Derivation) : Bool := d.name == warningName

end Derivation

namespace Rating

/-- The beginning of the names of rating fields, in any letter case. -/
def fieldPrefix : String := "rating."

def isRating (field : String) : Bool := fieldPrefix.toList.isPrefixOf (lowerText field).toList

def ratings (fields : OrderedMap Value) : List (String × Value) := fields.entries.filter fun e => isRating e.1

/-- The remark about a rating, if its level does not exist. -/
def warning? (e : String × Value) : Option Derivation :=
  let name := RatingLevel.nameIn e.2
  if (RatingLevel.ofName? name).isNone then some (.warning e.1 name) else none

/-- A rating as a contributor to the tally, if it counts. -/
def contributor? (e : String × Value) : Option Contributor :=
  let name := RatingLevel.nameIn e.2
  match RatingLevel.ofName? name with
  | some l => if l.isModerateOrWorse then some ⟨e.1, name⟩ else none
  | none => none

/-- Spellings of the tally in a vocabulary, the preferred one first. -/
def tallySpellings : List String := ["moderateorworsecount", "count of attributes rated moderate or worse"]

/-- The field under which the tally is stored. -/
def tallyField (v : Vocabulary) : String := (tallySpellings.findSome? (v.get? ·)).getD Derivation.tallyName

/-- The fields with the tally among them, and what was derived. Without ratings nothing is derived. -/
def derive (v : Vocabulary) (fields : OrderedMap Value) : OrderedMap Value × List Derivation :=
  let rated := ratings fields
  if rated.isEmpty then (fields, [])
  else
    let contributors := rated.filterMap contributor?
    (fields.put (tallyField v) (.int contributors.length),
      rated.filterMap warning? ++ [.tally contributors, .criticalFlag contributors])

end Rating

/-! ### Derivations from documents -/

namespace Contributor

def ofEntries (entries : List (String × Value)) : Checked Contributor :=
  Contributor.mk <$> Checked.field entries "field" (.flawed .missing) Checked.text
    <*> Checked.field entries "level" (.flawed .missing) Checked.text

def read (v : Value) : Checked Contributor := (Checked.record "Contributor" v).andThen ofEntries

end Contributor

namespace Derivation

/-- A list of contributors, or none where `null` stands. -/
def readContributors : Value → Checked (Option (List Contributor))
  | .null => .accepted none
  | v => (Checked.list Contributor.read v).map some

/-- The key that holds the contributors: `from`, or `contributors` where there is no `from`. -/
def contributorsKey (entries : List (String × Value)) : String :=
  if (Entries.get? "from" entries).isNone && (Entries.get? "contributors" entries).isSome then "contributors"
  else "from"

def ofEntries (entries : List (String × Value)) : Checked Derivation :=
  (fun name contributors => ⟨name, (Entries.get? "value" entries).getD .null, contributors⟩)
    <$> Checked.field entries "name" (.flawed .missing) Checked.text
    <*> Checked.field entries (contributorsKey entries) (.accepted none) readContributors

def read (v : Value) : Checked Derivation := (Checked.record "Derivation" v).andThen ofEntries

end Derivation

end Appraisal
