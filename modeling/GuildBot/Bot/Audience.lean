import GuildBot.Bot.Directory
import GuildBot.Listener.Dice
import GuildBot.Listener.Ping
/-!
# Telling the listeners

Listeners are registered under ids of their own and told of every event, side by side. One that
fails or panics does not disturb the others; its id is noted, and a message that a listener failed
on is flagged with a reaction.
-/

namespace GuildBot

open Platform

/-- Registers a listener. An id that is taken is refused, and nothing changes. -/
def Bot.register (b : Bot) (id : String) (listener : Listener) (clock : Clock) :
    Outcome Unit × Bot :=
  if b.registry.any (·.id = id) then (.error (.of (.duplicateListener id)), b)
  else
    let entry : Entry := { id, listener, clock, tracker := b.freshTracker }
    (.ok (), { b with registry := b.registry ++ [entry] }.write .info s!"Registered listener `{id}`.")

/-- Registers the stock listeners, up to the first whose id is taken. -/
def Bot.registerStock (b : Bot) : Outcome Unit × Bot :=
  [("dice", Listener.dice), ("ping", .ping), ("activity", .activity)].foldl
    (fun (outcome, b) (id, listener) => match outcome with
      | .ok () => b.register id listener .wall
      | .error f => (.error f, b)) (.ok (), b)

def Bot.roster (b : Bot) : List String := b.registry.map Entry.id

namespace Audience

/-- Follows a script: waits, sends, and fails in the end. -/
def follow (id event : String) (s : Script) : Action (Outcome Unit) := do
  Flow.change fun b => { b with deeds := b.deeds ++ [.heard id event] }
  Program.wait s.delay
  let sent : Outcome Unit ← match s.message with
    | some (channelId, text) => Action.call (.sendMessage channelId text)
    | none => pure (.ok ())
  match sent with
  | .error f => return .error f
  | .ok () => match s.fault with
    | none => return .ok ()
    | some (some f) => return .error f
    | some none => .panic

def policy (settings : Settings) : Activity.Policy := ⟨settings.logChannel, settings.trackingRole⟩

def hear (settings : Settings) (e : Entry) : Event → Action (Outcome Unit)
  | .message m => match e.listener with
    | .dice => Listener.answerRoll Directory.tools m
    | .ping => Listener.answerPing Directory.tools m
    | .scripted script _ => follow e.id "message" script
    | .activity => return .ok ()
    | .idle => return .ok ()
  | .voice u => match e.listener with
    | .activity => Activity.track Directory.tools (policy settings) (Bot.trackerPlace e.id e.clock) u
    | .scripted _ script => follow e.id "voice" script
    | .dice => return .ok ()
    | .ping => return .ok ()
    | .idle => return .ok ()

/-- Tells one listener of an event, and gives its id if it fails. -/
def tell (settings : Settings) (event : Event) (e : Entry) : Action (Option String) :=
  let heard : Action (Option String) := do
    match ← hear settings e event with
    | .ok () => return none
    | .error f =>
      Action.note .error s!"Listener `{e.id}` failed on {event.kind}: {f.message}"
      return some e.id
  heard.rescue do
    Action.note .error s!"Listener `{e.id}` panicked on {event.kind}."
    return some e.id

abbrev Telling (β : Type) : Type := Plan Bot Lock Call.Answer (Option String) β

/-- Tells every listener registered by now of an event, side by side. -/
def tellAll {β : Type} (event : Event) (close : List String → Action β) : Action (Telling β) :=
  Flow.look fun b =>
    { branches := b.registry.map (tell b.settings event)
      close := fun results => close (results.filterMap id) }

/-- Reports listeners that failed on an event. A message is flagged for others to see. -/
def flag : Event → List String → Action (List String)
  | .message m, failed => do
    if failed.isEmpty then return failed
    else
      let names := ", ".intercalate failed
      Action.note .warn s!"{failed.length} listener(s) failed on message: {names}"
      let b ← Flow.look id
      match ← Action.call (.addReaction m.channel.id m.id b.settings.failureEmoji) with
      | .ok () => return failed
      | .error f =>
        Action.note .error s!"Failed to add failure reaction: {f.message}"
        return failed
  | .voice _, failed => do
    if failed.isEmpty then return failed
    else
      let names := ", ".intercalate failed
      Action.note .warn s!"{failed.length} listener(s) failed on voice state update: {names}"
      return failed

/-- Tells the listeners of an event and reports those that failed. -/
def announce (event : Event) : Action (Telling (List String)) := tellAll event (flag event)

end Audience

end GuildBot
