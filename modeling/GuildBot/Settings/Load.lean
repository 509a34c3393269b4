import GuildBot.Document.Toml
import GuildBot.Settings
/-!
# Loading settings

Settings come from the environment and from one file, which wins: the file that was asked for, or
else a hidden one where it is kept by default. Values are merged first and read afterwards, so a
value that is overridden is never looked at.
-/

namespace GuildBot.Settings

structure Sources where
  /-- Names and values of environment variables. -/
  environment : List (String × String) := []
  /-- The contents of the file kept by default, if there is one. -/
  hidden : Option String := none
  /-- The file asked for, if one was, with its contents if it exists. -/
  requested : Option (Option String) := none

inductive LoadError where
  | field (e : FieldError)
  | malformedFile
  | noSuchFile
  | refused (flaw : Flaw)
  deriving DecidableEq, Repr

/-- What the names of the environment variables start with, in any case. -/
def environmentMark : String := "herald_bot_"

/-- A name in lower case. The Kelvin sign is the one character beyond ASCII whose lower case is an ASCII
letter. -/
def caseless (name : String) : List Char :=
  name.toList.map fun c => if c = '\u212a' then 'k' else c.toLower

def environmentKey? (name : String) : Option String :=
  if environmentMark.toList.isPrefixOf (caseless name) then
    some (String.ofList ((caseless name).drop environmentMark.length))
  else none

/-- The value that the environment gives a key. -/
def ofEnvironment? (environment : List (String × String)) (key : String) : Option Document :=
  (environment.findSome? fun (name, value) =>
    if environmentKey? name = some key then some value else none).map .text

def parse (contents : String) : Except LoadError Document :=
  match Document.ofToml? contents with
  | some d => .ok d
  | none => .error .malformedFile

/-- The document of the file that counts, empty if no file does. -/
def Sources.document (s : Sources) : Except LoadError Document :=
  match s.requested with
  | some (some contents) => parse contents
  | some none => .error .noSuchFile
  | none => match s.hidden with
    | some contents => parse contents
    | none => .ok (.record [])

def merged (file : Document) (environment : List (String × String)) (key : String) : Option Document :=
  (file.field? key).or (ofEnvironment? environment key)

def accept : Except FieldError Settings → Except LoadError Settings
  | .error e => .error (.field e)
  | .ok settings => match settings.flaw? with
    | some flaw => .error (.refused flaw)
    | none => .ok settings

/-- Loads settings from what the file and the environment come to. -/
def load (s : Sources) : Except LoadError Settings := do
  let file ← s.document
  accept (ofFields .lenient (merged file s.environment))

end GuildBot.Settings
