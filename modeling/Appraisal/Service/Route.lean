import Appraisal.Service.Target

/-! Routes of the service. A path names a route, also with one line feed after it, or does so without the slashes at its
    end, which calls for a redirection. -/

namespace Appraisal.Service

/-- The pages on which the service is described. -/
inductive Page where
  /-- The document of all requests and replies. -/
  | schema
  | docs
  /-- Where signing in on the page before leads back to. -/
  | signedIn
  | reference
  deriving DecidableEq, Repr

inductive Route where
  | page (p : Page)
  | root
  | health
  | check
  | dialect
  | reload
  | rules
  | rule (id : String)
  deriving DecidableEq, Repr

inductive Method where
  | get
  | head
  | post
  deriving DecidableEq, Repr

def Method.name : Method → String
  | get => "GET"
  | head => "HEAD"
  | post => "POST"

/-- The name of a method in capitals, as far as it may be that of a known one: beyond ASCII only the long s and its
    ligatures have capitals that occur in those. -/
def methodName (s : String) : String :=
  String.ofList <| s.toList.flatMap fun c =>
    if c = 'ſ' then ['S'] else if c = 'ﬅ' ∨ c = 'ﬆ' then ['S', 'T'] else [c.toUpper]

namespace Route

def methods : Route → List Method
  | page _ => [.get, .head]
  | root | health | rules | rule _ => [.get]
  | check | dialect | reload => [.post]

/-- The route answers requests with this method. -/
def admits (route : Route) (method : String) : Bool := (route.methods.map Method.name).contains (methodName method)

/-- The routes with a path of their own. -/
def fixed : List (List Char × Route) :=
  [("/openapi.json".toList, page .schema), ("/docs".toList, page .docs),
    ("/docs/oauth2-redirect".toList, page .signedIn), ("/redoc".toList, page .reference), ("/".toList, root),
    ("/health".toList, health), ("/check".toList, check), ("/check/dialect".toList, dialect),
    ("/check/reload".toList, reload), ("/rules".toList, rules)]

/-- The route of which this is the path, also with a line feed after it. -/
def ofFixed? (path : List Char) : Option Route :=
  (fixed.find? fun r => path == r.1 || path == r.1 ++ ['\n']).map (·.2)

def ofPath? (path : List Char) : Option Route :=
  (ofFixed? path).or <|
    match Target.partsOf path with
    | [[], part, id] => if part = "rules".toList && !id.isEmpty then some (rule (String.ofList id)) else none
    | _ => none

/-- The path without the slashes at its end. -/
def trimmed (path : List Char) : List Char := (path.reverse.dropWhile (· == '/')).reverse

/-- The path names a route without the slashes at its end, though not with them. -/
def needsRedirection (path : List Char) : Bool :=
  path != ['/'] && path.getLast? == some '/' && (ofPath? (trimmed path)).isSome

end Route
end Appraisal.Service
