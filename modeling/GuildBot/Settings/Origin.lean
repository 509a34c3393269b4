import GuildBot.Document.Toml.Plain
import GuildBot.Settings.Load
/-!
# Where settings come from

Which value wins for a key and what settings the winning values make, said without merging anything and
without reading any other value. At the end stand the edits of the sources that leave every winning value
as it is.
-/

namespace GuildBot.Settings

/-- The name of an environment variable sets the key, in any case. -/
def Sets (name key : String) : Prop := caseless name = environmentMark.toList ++ key.toList

instance (name key : String) : Decidable (Sets name key) := inferInstanceAs (Decidable (_ = _))

/-- No two environment variables have the same name, in any case. -/
def HasDistinctNames (environment : List (String × String)) : Prop :=
  (environment.map fun entry => caseless entry.1).Nodup

instance (environment : List (String × String)) : Decidable (HasDistinctNames environment) :=
  inferInstanceAs (Decidable (List.Nodup _))

namespace Sources

/-- The contents of the file that counts. The hidden one only does if none was asked for. -/
inductive IsFile (s : Sources) (contents : String) : Prop
  | requested (h : s.requested = some (some contents))
  | hidden (hnone : s.requested = none) (h : s.hidden = some contents)

/-- The document of the file that counts, or of no file. -/
inductive Reads (s : Sources) : Document → Prop
  | file {contents : String} {file : Document} (h : s.IsFile contents)
    (hfile : Document.ofToml? contents = some file) : Reads s file
  | nothing (hrequested : s.requested = none) (hhidden : s.hidden = none) : Reads s (.record [])

end Sources

/-- The value that wins for a key: the one in the file, or else the one in the environment, or else none. -/
inductive Wins (file : Document) (environment : List (String × String)) (key : String) :
    Option Document → Prop
  | file {d : Document} (h : file.field? key = some d) : Wins file environment key (some d)
  | environment {name value : String} (hfile : file.field? key = none) (h : (name, value) ∈ environment)
    (hname : Sets name key) : Wins file environment key (some (.text value))
  | nothing (hfile : file.field? key = none) (h : ∀ entry ∈ environment, ¬ Sets entry.1 key) :
    Wins file environment key none

/-- What is made of the value that wins; without one, of the default, if there is one. -/
inductive Makes {α : Type} (reads : Document → α → Prop) (default : Option α) :
    Option Document → α → Prop
  | value {d : Document} {a : α} (h : reads d a) : Makes reads default (some d) a
  | default {a : α} (h : default = some a) : Makes reads default none a

def ReadsText (d : Document) (s : String) : Prop := Reader.lenient.text? d = some s

def ReadsSeconds (d : Document) (n : Nat) : Prop := Reader.lenient.seconds? d = some n

/-- A blank text names no role. -/
inductive ReadsRole : Document → Option String → Prop
  | null : ReadsRole .null none
  | blank {d : Document} {s : String} (h : ReadsText d s) (hs : Text.isBlank s = true) : ReadsRole d none
  | named {d : Document} {s : String} (h : ReadsText d s) (hs : Text.isBlank s = false) :
    ReadsRole d (some s)

def Gives {α : Type} (wins : String → Option Document → Prop) (key : String)
    (reads : Document → α → Prop) (default : Option α) (a : α) : Prop :=
  ∃ value, wins key value ∧ Makes reads default value a

/-- The settings are made of what wins for their keys. Only the token has no default. -/
structure IsMadeOf (wins : String → Option Document → Prop) (s : Settings) : Prop where
  token : Gives wins "discord_bot_token" ReadsText none s.token
  cacheTtl : Gives wins "cache_ttl_secs" ReadsSeconds (some 5) s.cacheTtl
  optInTtl : Gives wins "opt_in_ttl_secs" ReadsSeconds (some 5) s.optInTtl
  eventTimeout : Gives wins "event_timeout_secs" ReadsSeconds (some 5) s.eventTimeout
  logChannel : Gives wins "activity_log_channel" ReadsText (some "activity_log") s.logChannel
  trackingRole : Gives wins "tracking_role" ReadsRole (some (some "Tracked")) s.trackingRole
  failureEmoji : Gives wins "failure_emoji" ReadsText (some "🤯") s.failureEmoji

structure IsFit (s : Settings) : Prop where
  token : Text.isBlank s.token = false
  cacheTtl : 1 ≤ s.cacheTtl
  optInTtl : 1 ≤ s.optInTtl
  eventTimeout : 1 ≤ s.eventTimeout
  logChannel : s.logChannel ≠ ""

/-- An edit of something that no value which wins depends on. -/
inductive Edit : Sources → Sources → Prop
  /-- The value of a variable whose key is in the file. -/
  | overridden {s : Sources} {file : Document} {before after : List (String × String)}
    {name value value' key : String} (hread : s.Reads file) (hfile : file.field? key ≠ none)
    (hname : Sets name key) (h : s.environment = before ++ (name, value) :: after) :
    Edit s { s with environment := before ++ (name, value') :: after }
  /-- The value of a variable that sets nothing. -/
  | foreign {s : Sources} {before after : List (String × String)} {name value value' : String}
    (hname : ∀ key ∈ keys, ¬ Sets name key) (h : s.environment = before ++ (name, value) :: after) :
    Edit s { s with environment := before ++ (name, value') :: after }
  /-- The value in a line that sets nothing, of the file that counts, if it is plain. -/
  | line {s s' : Sources} {contents contents' : String} {before after : List (String × Document)}
    {name : String} {d d' : Document} (hname : name ∉ keys) (hfile : s.IsFile contents)
    (hfile' : s'.IsFile contents')
    (hplain : Document.Toml.IsPlain contents.toList (before ++ (name, d) :: after))
    (hplain' : Document.Toml.IsPlain contents'.toList (before ++ (name, d') :: after))
    (h : s'.environment = s.environment) : Edit s s'
  /-- What the file that counts has in a field that sets nothing, if it stays well-formed. -/
  | field {s s' : Sources} {file file' : Document} {name : String} (hname : name ∉ keys)
    (hread : s.Reads file) (hread' : s'.Reads file')
    (hrest : ∀ key, key ≠ name → file'.field? key = file.field? key)
    (h : s'.environment = s.environment) : Edit s s'
  /-- The hidden file, where another one was asked for. -/
  | hidden {s : Sources} {hidden' : Option String} (h : s.requested ≠ none) :
    Edit s { s with hidden := hidden' }

end GuildBot.Settings
