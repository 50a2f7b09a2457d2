import Appraisal.Number.Numeral
import Appraisal.Text.Encoding
import Appraisal.Text.Hex

/-! Targets of requests. A target may begin with a scheme and, after two slashes, with a user, a host and a number. Its
    path goes on from there to a query or a fragment, which do not count. Only a target with both a scheme and a
    host stands on its own; any other path gets one slash in front. The path is freed of its dots and
    percent-decoded. -/

namespace Appraisal.Service

/-- Who is asked: what stands between two slashes and the path. -/
structure Authority where
  user : List Char
  host : List Char
  /-- What follows the host, without a colon in front. -/
  number : List Char
  deriving DecidableEq, Repr

namespace Authority

def none : Authority := ⟨[], [], []⟩

/-- A host and the rest of the text. A host in square brackets ends with the last of them, any other before a colon. -/
def splitHost (cs : List Char) : List Char × List Char :=
  let plain := (cs.takeWhile (· != ':'), cs.dropWhile (· != ':'))
  match cs with
  | '[' :: rest =>
    let inner := (rest.reverse.dropWhile (· != ']')).reverse
    if inner.isEmpty then plain else ('[' :: inner, rest.drop inner.length)
  | _ => plain

/-- The authority with a text: a user before the last `@`, a host, and a number. -/
def ofText (cs : List Char) : Authority :=
  let place := (cs.reverse.takeWhile (· != '@')).reverse
  let (host, rest) := splitHost place
  ⟨cs.take (cs.length - place.length - 1), host, if rest.head? == some ':' then rest.drop 1 else rest⟩

/-- What follows the host is a number, if there is anything. -/
def hasPlainNumber (a : Authority) : Bool := a.number.isEmpty || (Numeral.readInteger a.number).isOk

end Authority

structure Target where
  /-- In lower case; empty if the target has none. -/
  scheme : List Char
  host : List Char
  /-- Without dots, not yet decoded. -/
  path : List Char
  deriving DecidableEq, Repr

namespace Target

/-- Why nothing can be asked of a target. -/
inductive Fault where
  /-- The target does not have its form. -/
  | malformed
  /-- The scheme is none of the web. -/
  | unknownScheme
  /-- The scheme is that of a lasting connection. -/
  | connection
  deriving DecidableEq, Repr

/-! ### Parts of a target -/

/-- The most characters of a target, and of its path once it is percent-encoded. -/
def limit : Nat := 65536

/-- A target may be so long and has no ASCII control characters. -/
def isPlain (cs : List Char) : Bool := cs.length ≤ limit && cs.all fun c => 0x20 ≤ c.toNat && c.toNat != 0x7F

/-- A scheme and the rest of the text. A colon in front is an empty scheme. -/
def splitScheme (cs : List Char) : List Char × List Char :=
  let scheme := cs.takeWhile fun c => c.isAlphanum || c = '+' || c = '.' || c = '-'
  match cs.drop scheme.length with
  | ':' :: rest => if scheme.head?.all Char.isAlpha then (scheme.map Char.toLower, rest) else ([], cs)
  | _ => ([], cs)

/-- An authority and the rest of the text. -/
def splitAuthority : List Char → Authority × List Char
  | '/' :: '/' :: cs =>
    let inside (c : Char) : Bool := c != '/' && c != '?' && c != '#'
    (.ofText (cs.takeWhile inside), cs.dropWhile inside)
  | cs => (.none, cs)

/-! ### Paths -/

/-- The parts of a path between its slashes. -/
def partsOf : List Char → List (List Char)
  | [] => [[]]
  | c :: cs =>
    if c = '/' then [] :: partsOf cs
    else match partsOf cs with
      | part :: parts => (c :: part) :: parts
      | [] => [[c]]

def joinParts : List (List Char) → List Char
  | [] => []
  | [part] => part
  | part :: parts => part ++ '/' :: joinParts parts

/-- The parts of a path after one more: a dot adds nothing, and two dots take the last part away. Nothing in front of
    the first slash stays. -/
def addPart (parts : List (List Char)) (part : List Char) : List (List Char) :=
  if part = ['.'] then parts
  else if part = ['.', '.'] then if parts = [[]] then parts else parts.dropLast
  else parts ++ [part]

/-- A path without the parts that are dots. -/
def withoutDots (path : List Char) : List Char := joinParts ((partsOf path).foldl addPart [])

/-- A path with one slash in front. -/
def rooted (path : List Char) : List Char := '/' :: path.dropWhile (· == '/')

/-- How many characters stand for a character that is percent-encoded if it has to be. -/
def encodedSize (c : Char) : Nat :=
  if 0x20 < c.toNat && c.toNat < 0x7F && !"\"#<>?`\x7b\x7d".toList.contains c then 1 else 3 * c.utf8Size

/-- The path is not too long once it is percent-encoded. -/
def fits (path : List Char) : Bool := path.foldl (fun n c => n + encodedSize c) 0 ≤ limit

/-! ### Targets -/

def ofText (text : String) : Except Fault Target :=
  let (scheme, rest) := splitScheme text.toList
  let (authority, rest) := splitAuthority rest
  let path := rest.takeWhile fun c => c != '?' && c != '#'
  let isBare := scheme.isEmpty && authority = .none
  if !isPlain text.toList || !authority.hasPlainNumber then .error .malformed
  else if isBare && (path.take 2 == ['/', '/'] || path.head? == some ':') then .error .malformed
  else
    let path := if isBare then path else withoutDots path
    if !scheme.isEmpty && !authority.host.isEmpty then .ok ⟨scheme, authority.host, path⟩
    else if fits (rooted path) then .ok ⟨scheme, authority.host, withoutDots (rooted path)⟩
    else .error .malformed

/-- Why there is no answer from a target. One without a host is asked of the service itself. -/
def fault? (t : Target) : Option Fault :=
  let scheme := String.ofList t.scheme
  if t.host.isEmpty || ["", "http", "https"].contains scheme then none
  else if ["ws", "wss"].contains scheme then some .connection
  else some .unknownScheme

/-- The bytes of a path, where a percent sign and two hexadecimal digits stand for one. -/
def percentBytes : List Char → List UInt8
  | '%' :: a :: b :: cs =>
    match Text.ofHex? [a, b] with
    | some n => UInt8.ofNat n :: percentBytes cs
    | none => 0x25 :: percentBytes (a :: b :: cs)
  | c :: cs => c.toString.toUTF8.toList ++ percentBytes cs
  | [] => []

/-- The text that a percent-encoded text stands for. -/
def percentDecoded (cs : List Char) : List Char := Text.Utf8.decodeLossy (percentBytes cs)

/-- The path in plain text. It is decoded on sending and again on receiving, so that an encoded percent sign may begin
    an escape. -/
def plainPath (t : Target) : List Char := if t.path.isEmpty then ['/'] else percentDecoded (percentDecoded t.path)

end Target
end Appraisal.Service
