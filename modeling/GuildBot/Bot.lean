import GuildBot.Activity.Tracker
import GuildBot.Dice.Sampling
import GuildBot.Flow.Work
import GuildBot.Listener.Tools
import GuildBot.Platform.Call
import GuildBot.Settings
/-!
# The state of the bot

Settings, what the bot has cached and whom it tells of events, with the surroundings it works in:
the platform, two clocks and a source of random words. What it does is kept as a record of its
calls and a log.
-/

namespace GuildBot

open Std Platform

structure Response (α : Type) where
  /-- Whether the call was sent at all. -/
  sent : Bool := true
  /-- Milliseconds until the result is there. -/
  duration : Nat := 0
  /-- The result, or none if the client of the platform broke down. -/
  result : Option (Outcome α)

inductive Deed where
  | call (c : Call)
  /-- A scripted listener was told of an event, a message or a change in voice. -/
  | heard (listenerId event : String)
  deriving DecidableEq, Repr

/-- How a platform responds to a call, which may hang on all that was done before. -/
abbrev Platform.Behaviour : Type := List Deed → (c : Call) → Response c.Payload

/-- A client that has no connection: it refuses calls whose ids it cannot read, and all others it
cannot send. -/
def Platform.unconnected : Behaviour := fun _ c =>
  { sent := false
    result := some (match c.checkIds with
      | .error f => .error f
      | .ok _ => .error (.of (.other "refused"))) }

abbrev Platform.Call.Answer (c : Call) : Type := Option (Outcome c.Payload)

/-- A clock that is moved by hand, or the clock on the wall. -/
inductive Clock where
  | hand
  | wall
  deriving DecidableEq, Repr, Inhabited

structure Script where
  delay : Nat := 0
  /-- A channel and a text to send to it. -/
  message : Option (String × String) := none
  /-- How it fails in the end, if it does; with none it panics. -/
  fault : Option (Option Failure) := none
  deriving DecidableEq, Repr, Inhabited

inductive Listener where
  | dice
  | ping
  | activity
  /-- A listener that cares about nothing. -/
  | idle
  /-- A listener that follows a script for messages and one for voice. -/
  | scripted (message voice : Script)
  deriving DecidableEq, Repr, Inhabited

/-- A registered listener. Each has a tracker of its own, which only the activity listener uses. -/
structure Entry where
  id : String
  listener : Listener
  clock : Clock
  tracker : Activity.Tracker

/-- The locks there are: one for each cache. -/
inductive Lock where
  | guilds
  | channels
  | users
  | decisions (listenerId : String)
  deriving DecidableEq, Repr

structure Bot where
  settings : Settings
  platform : Platform.Behaviour
  /-- The clock that the caches of records go by. -/
  clock : Clock
  handClock : Instant
  wallClock : Instant
  guilds : Cache String Guild
  channels : Cache String Channel
  users : Cache UserKey User
  /-- The listeners, in the order in which they were registered. -/
  registry : List Entry := []
  /-- Random words still to be drawn. -/
  words : List Nat := []
  deeds : List Deed := []
  log : List Log.Line := []

abbrev Action (α : Type) : Type := Program Bot Lock Call.Answer α

namespace Bot

def ofSettings (settings : Settings) (platform : Platform.Behaviour) (clock : Clock)
    (handClock wallClock : Instant) : Bot :=
  let lifetime := Duration.ofSeconds settings.cacheTtl
  { settings, platform, clock, handClock, wallClock
    guilds := .ofDuration lifetime
    channels := .ofDuration lifetime
    users := .ofDuration lifetime }

def read (b : Bot) : Clock → Instant
  | .hand => b.handClock
  | .wall => b.wallClock

def now (b : Bot) : Instant := b.read b.clock

def write (level : Log.Level) (message : String) (b : Bot) : Bot :=
  { b with log := b.log ++ [⟨level, message⟩] }

def answer (b : Bot) (c : Call) : c.Answer := (b.platform b.deeds c).result

/-- The bot when it has made a call, which is recorded if it is sent. -/
def asked (b : Bot) (c : Call) : Bot :=
  if (b.platform b.deeds c).sent then { b with deeds := b.deeds ++ [.call c] } else b

def respond : Respond Bot Call.Answer := fun b c =>
  (b.asked c, (b.platform b.deeds c).duration, b.answer c)

def guildPlace : Cache.Place Bot Lock String Guild where
  view b := b.guilds
  put guilds b := { b with guilds }
  now := now
  lock := .guilds

def channelPlace : Cache.Place Bot Lock String Channel where
  view b := b.channels
  put channels b := { b with channels }
  now := now
  lock := .channels

def userPlace : Cache.Place Bot Lock UserKey User where
  view b := b.users
  put users b := { b with users }
  now := now
  lock := .users

def entry? (b : Bot) (id : String) : Option Entry := b.registry.find? (·.id = id)

def freshTracker (b : Bot) : Activity.Tracker := .ofDuration (.ofSeconds b.settings.optInTtl)

def trackerPlace (id : String) (clock : Clock) : Activity.Place Bot Lock where
  view b := ((b.entry? id).map Entry.tracker).getD b.freshTracker
  put tracker b :=
    { b with registry := b.registry.map fun e => if e.id = id then { e with tracker } else e }
  now b := b.read clock
  lock := .decisions id

end Bot

namespace Action

def note (level : Log.Level) (message : String) : Action Unit :=
  Flow.change (Bot.write level message)

def call (c : Call) : Action (Outcome c.Payload) := do
  match ← Program.call c with
  | some result => return result
  | none => .panic

end Action

end GuildBot
