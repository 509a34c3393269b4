import GuildBot.Decimal.Shortest
import GuildBot.Document
import GuildBot.Text.Integer
import GuildBot.Text.Space
import GuildBot.Time
/-!
# Settings

What can be set about the bot, the defaults, and which settings it refuses to run with. Settings
are read from the fields of a document by a `Reader`, which says how a value of a field is read.
-/

namespace GuildBot

structure Settings where
  token : String
  /-- Seconds for which a looked-up guild, channel or user is kept. -/
  cacheTtl : Nat := 5
  /-- Seconds for which the decision is kept whether a user is tracked. -/
  optInTtl : Nat := 5
  eventTimeout : Nat := 5
  /-- The name of the channel that voice activity is written to. -/
  logChannel : String := "activity_log"
  /-- The role that a user must hold to be tracked; with none, everyone is. -/
  trackingRole : Option String := some "Tracked"
  /-- The reaction to a message that a listener failed on. -/
  failureEmoji : String := "🤯"
  deriving DecidableEq, Repr, Inhabited

namespace Settings

inductive Flaw where
  | noToken
  | noLifetime
  | noTimeout
  | noLogChannel
  deriving DecidableEq, Repr

def Flaw.message : Flaw → String
  | .noToken => "Discord bot token must be set."
  | .noLifetime => "Cache TTLs must be at least one second."
  | .noTimeout => "Event timeout must be at least one second."
  | .noLogChannel => "Activity log channel name must not be empty."

def flaw? (s : Settings) : Option Flaw :=
  if Text.isBlank s.token then some .noToken
  else if s.cacheTtl = 0 ∨ s.optInTtl = 0 then some .noLifetime
  else if s.eventTimeout = 0 then some .noTimeout
  else if s.logChannel.isEmpty then some .noLogChannel
  else none

theorem flaw?_eq_none_iff {s : Settings} :
    s.flaw? = none ↔ Text.isBlank s.token = false ∧ (s.cacheTtl ≠ 0 ∧ s.optInTtl ≠ 0) ∧
      s.eventTimeout ≠ 0 ∧ s.logChannel.isEmpty = false := by
  grind [flaw?]

/-- A blank role is no role. -/
def roleOf (name : String) : Option String := if Text.isBlank name then none else some name

/-- How values are read: as texts and as numbers of seconds. -/
structure Reader where
  text? : Document → Option String
  seconds? : Document → Option Nat

/-- Reads a text from a text and a number from a whole number of 64 bits, nothing else. -/
def Reader.strict : Reader where
  text?
    | .text s => some s
    | _ => none
  seconds?
    | .whole n => if 0 ≤ n ∧ n ≤ Text.max64 then some n.toNat else none
    | _ => none

/-- The words for one and for zero, in any case. -/
def switch? (s : String) : Option Nat :=
  let word := s.map Char.toLower
  if ["true", "on", "yes"].contains word then some 1
  else if ["false", "off", "no"].contains word then some 0
  else none

/-- Reads plain values for one another: numbers and truth values as the texts they are written
as, texts as the numbers they write, truth values as one and zero, fractions rounded. -/
def Reader.lenient : Reader where
  text?
    | .text s => some s
    | .flag b => some (if b then "true" else "false")
    | .whole n => some (toString n)
    | .real x => some x.text
    | _ => none
  seconds?
    | .whole n => if 0 ≤ n ∧ n ≤ Text.max64 then some n.toNat else none
    | .flag b => some b.toNat
    | .real x => some (x.toBoundedNat Text.max64)
    | .text s => switch? s <|> Text.unsigned? Text.max64 s
    | _ => none

inductive FieldError where
  | missing (key : String)
  | unreadable (key : String)
  deriving DecidableEq, Repr

/-- The value of a field as `read` takes it, or the default if the field is not there. -/
def fieldOr {α : Type} (get : String → Option Document) (read : Document → Option α) (key : String)
    (default : α) : Except FieldError α :=
  match get key with
  | none => .ok default
  | some d => match read d with
    | some a => .ok a
    | none => .error (.unreadable key)

def Reader.role? (r : Reader) : Document → Option (Option String)
  | .null => some none
  | d => (r.text? d).map roleOf

/-- The keys of the fields that set something. -/
def keys : List String :=
  ["discord_bot_token", "cache_ttl_secs", "opt_in_ttl_secs", "event_timeout_secs",
    "activity_log_channel", "tracking_role", "failure_emoji"]

/-- Settings from fields. A value that cannot be read is found before a missing token is. -/
def ofFields (r : Reader) (get : String → Option Document) : Except FieldError Settings := do
  let token ← fieldOr get (fun d => (r.text? d).map some) "discord_bot_token" none
  let cacheTtl ← fieldOr get r.seconds? "cache_ttl_secs" 5
  let optInTtl ← fieldOr get r.seconds? "opt_in_ttl_secs" 5
  let eventTimeout ← fieldOr get r.seconds? "event_timeout_secs" 5
  let logChannel ← fieldOr get r.text? "activity_log_channel" "activity_log"
  let trackingRole ← fieldOr get r.role? "tracking_role" (some "Tracked")
  let failureEmoji ← fieldOr get r.text? "failure_emoji" "🤯"
  match token with
  | none => .error (.missing "discord_bot_token")
  | some token =>
    .ok { token, cacheTtl, optInTtl, eventTimeout, logChannel, trackingRole, failureEmoji }

end Settings

end GuildBot
