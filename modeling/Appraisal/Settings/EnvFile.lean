import Appraisal.OrderedMap
import Appraisal.Text.Class
import Appraisal.Text.Encoding

/-! Files of settings: lines `NAME=value`. A name may follow the word `export` and may stand in single quotes; a value
    may stand in single or double quotes, with escapes, and then may run over several lines. An unquoted value ends
    before a hash that follows white space. A line that does not have this form is passed over. In values,
    `$` and a name in braces stand for the value of that name, with a default after `:-`. -/

namespace Appraisal.Settings.EnvFile

/-- The text without the byte order mark in front. -/
def dropMark : List Char → List Char
  | '\uFEFF' :: cs => cs
  | cs => cs

/-- White space within a line. -/
def isGap (c : Char) : Bool := Text.isBlank c && c != '\n'

def notLineEnd (c : Char) : Bool := c != '\n'

def skipGap (cs : List Char) : List Char := cs.dropWhile isGap

/-- The text after the word `export` and a gap, if it begins so. -/
def skipExport (cs : List Char) : List Char :=
  if "export".toList.isPrefixOf cs then
    let rest := cs.drop 6
    if rest.head?.any isGap then skipGap rest else cs
  else cs

/-- The content of a quoted text after its opening quote, with its escapes, and the rest. The character after a
    backslash does not end it. -/
def quoted (quote : Char) : List Char → Option (List Char × List Char)
  | [] => none
  | '\\' :: c :: rest => (quoted quote rest).map fun p => ('\\' :: c :: p.1, p.2)
  | c :: rest =>
    if c = quote then some ([], rest)
    else if c = '\\' then none
    else (quoted quote rest).map fun p => (c :: p.1, p.2)

/-- What a character after a backslash stands for in single quotes. -/
def singleEscape? (c : Char) : Option Char := if c = '\\' ∨ c = '\'' then some c else none

/-- What a character after a backslash stands for in double quotes. -/
def doubleEscape? (c : Char) : Option Char :=
  if c = '\\' ∨ c = '\'' ∨ c = '"' then some c
  else if c = 'a' then some '\x07'
  else if c = 'b' then some '\x08'
  else if c = 'f' then some '\x0c'
  else if c = 'n' then some '\n'
  else if c = 'r' then some '\r'
  else if c = 't' then some '\t'
  else if c = 'v' then some '\x0b'
  else none

def unescape (escape? : Char → Option Char) : List Char → List Char
  | '\\' :: c :: rest =>
    match escape? c with
    | some x => x :: unescape escape? rest
    | none => '\\' :: unescape escape? (c :: rest)
  | c :: rest => c :: unescape escape? rest
  | [] => []

/-- The part of an unquoted value before a hash that follows white space. -/
def beforeRemark : List Char → List Char
  | [] => []
  | c :: cs => if Text.isBlank c && (cs.dropWhile Text.isBlank).head? == some '#' then [] else c :: beforeRemark cs

/-- A value after its equals sign, and the rest of the text. -/
def value (cs : List Char) : Option (List Char × List Char) :=
  match skipGap cs with
  | '\'' :: rest => (quoted '\'' rest).map fun p => (unescape singleEscape? p.1, p.2)
  | '"' :: rest => (quoted '"' rest).map fun p => (unescape doubleEscape? p.1, p.2)
  | _ => some (Text.strip (beforeRemark (cs.takeWhile notLineEnd)), cs.dropWhile notLineEnd)

/-- A name, and the rest of the text. A line may have no name. -/
def name : List Char → Option (Option (List Char) × List Char)
  | '#' :: cs => some (none, '#' :: cs)
  | '\'' :: cs =>
    let content := cs.takeWhile (· != '\'')
    match content, cs.dropWhile (· != '\'') with
    | _ :: _, _ :: rest => some (some content, rest)
    | _, _ => none
  | cs =>
    let isName (c : Char) := c != '=' && c != '#' && !Text.isBlank c
    let content := cs.takeWhile isName
    if content.isEmpty then none else some (some content, cs.dropWhile isName)

/-- The text after the end of a line, which a remark may precede; `none` if something else stands there. -/
def lineEnd (cs : List Char) : Option (List Char) :=
  let rest := skipGap cs
  match if rest.head? == some '#' then rest.dropWhile notLineEnd else rest with
  | [] => some []
  | c :: after => if notLineEnd c then none else some after

/-- The text after the rest of a line. -/
def skipLine (cs : List Char) : List Char := (cs.dropWhile notLineEnd).drop 1

/-- A binding at the head of a text, and the rest. -/
def binding (cs : List Char) : Option (List Char × Option (List Char)) × List Char :=
  match name (skipExport cs) with
  | none => (none, skipLine (skipExport cs))
  | some (key, rest) =>
    let rest := skipGap rest
    let (bound, rest) : Option (Option (List Char)) × List Char := match rest with
      | '=' :: after =>
        match value after with
        | some (v, rest) => (some (some v), rest)
        | none => (none, after)
      | rest => (some none, rest)
    match bound, lineEnd rest with
    | some v, some after => (key.map (·, v), after)
    | _, _ => (none, skipLine rest)

/-- The bindings of a text, in order; a name without an equals sign has no value. The fuel bounds the lines. -/
def bindingsFrom : Nat → List Char → List (List Char × Option (List Char))
  | 0, _ => []
  | fuel + 1, cs =>
    match cs.dropWhile Text.isBlank with
    | [] => []
    | cs =>
      let (found, rest) := binding cs
      found.toList ++ bindingsFrom fuel rest

/-- A reference after its dollar sign and brace: the name, the default, and the rest. -/
def reference? (cs : List Char) : Option (String × List Char × List Char) :=
  let named := cs.takeWhile fun c => c != '\x7d' && c != ':'
  match cs.drop named.length with
  | '\x7d' :: rest => some (String.ofList named, [], rest)
  | ':' :: '-' :: more =>
    match more.dropWhile (· != '\x7d') with
    | _ :: rest => some (String.ofList named, more.takeWhile (· != '\x7d'), rest)
    | [] => none
  | _ => none

/-- A value with its references replaced. The fuel bounds the length. -/
def resolve (known : String → Option String) : Nat → List Char → List Char
  | 0, cs => cs
  | _ + 1, [] => []
  | fuel + 1, '$' :: '\x7b' :: cs =>
    match reference? cs with
    | some (name, default, rest) =>
      ((known name).elim default String.toList) ++ resolve known fuel rest
    | none => '$' :: resolve known fuel ('\x7b' :: cs)
  | fuel + 1, c :: cs => c :: resolve known fuel cs

/-- The names and values of a text. A reference sees the names before it, and else the environment. -/
def read (environment : OrderedMap String) (text : List Char) : OrderedMap (Option String) :=
  let cs := Text.plainLineEnds (dropMark text)
  (bindingsFrom (cs.length + 1) cs).foldl (fun m b =>
    let known (name : String) : Option String :=
      match m.get? name with
      | some v => some (v.getD "")
      | none => environment.get? name
    m.put (String.ofList b.1) (b.2.map fun v => String.ofList (resolve known (v.length + 1) v))) OrderedMap.empty

end Appraisal.Settings.EnvFile
