import GuildBot.Bot.Shift
import GuildBot.Dice.Reply
import GuildBot.Rehearsal.World
/-!
# Rehearsals

A session takes a bot through steps, one after another, over a scripted world or without a
connection. Each step reports its result, what the bot did, what it logged and how long it took.
-/

namespace GuildBot.Rehearsal

open Platform

inductive Query where
  | guild (id : String)
  | channel (id : String)
  | user (id guildId : String)
  | channels (guildId : String)

inductive Finding where
  | guild (found : Found Guild)
  | channel (found : Found Channel)
  | user (found : Found User)
  | channels (outcome : Outcome (List Channel))

inductive Step where
  | look (q : Query)
  /-- Lookups side by side. -/
  | join (qs : List Query)
  | pushMember (update : MemberUpdate)
  | pushChannel (update : ChannelUpdate)
  | resolveMessage (raw : RawMessage)
  | resolveVoice (raw : RawVoice)
  | register (id : String) (listener : Listener)
  | registerStock
  | roster
  /-- Tells the listeners of an event and reports those that fail. -/
  | announce (event : Event)
  | tellAll (event : Event)
  | tell (id : String) (event : Event)
  | process (raw : RawEvent)
  | processInTime (raw : RawEvent)
  /-- A shift, with the events accepted before, and when the shutdown is asked for. -/
  | shift (accepted : List RawEvent) (script : GatewayScript) (shutdown : Option Shutdown)
  | call (c : Call)
  | patchWorld (change : Document)
  | advance (d : Duration)
  | setClock (t : Instant)

inductive Shown where
  | nothing
  | found (f : Finding)
  | joined (fs : List Finding)
  | changes (cs : List Change)
  | message (m : Message)
  | voice (u : VoiceUpdate)
  | outcome (r : Outcome Unit)
  | ids (ids : List String)
  /-- The kind of an event that was processed. -/
  | kind (r : Outcome String)
  | answer (c : Call) (r : Outcome c.Payload)
  | panicked

/-- A step's result, what the bot did and logged, and the milliseconds it took. -/
structure Report where
  result : Shown
  deeds : List Deed
  log : List Log.Line
  duration : Nat

/-- A bot in its world; without a world there is no connection. -/
structure Session where
  bot : Bot
  world : Option Document

namespace Query

def look : Query → Action Finding
  | guild id => do return .guild (← Directory.guild id)
  | channel id => do return .channel (← Directory.channel id)
  | user id guildId => do return .user (← Directory.user id guildId)
  | channels guildId => do return .channels (← Directory.channels guildId)

end Query

namespace Session

/-- The result of work on its own, as `show` puts it, the time it took, and the bot after it. -/
def perform {δ β : Type} (b : Bot) (work : Work Bot Lock Call.Answer δ β) (show? : β → Shown)
    (limit : Option Nat) (late : Shown) : Shown × Nat × Bot :=
  match Machine.runAlone Bot.respond b work limit with
  | (.value r, time, b) => (show? r, time, b)
  | (.timedOut, time, b) => (late, time, b)
  | (.panicked, _, b) => (.panicked, 0, b)

def act {β : Type} (b : Bot) (program : Action β) (show? : β → Shown) : Shown × Nat × Bot :=
  perform (δ := Unit) b (.ofProgram program) show? none .panicked

/-- Moves a clock, if it does not end before. -/
def moveClock (b : Bot) : Option Instant → Shown × Nat × Bot
  | some handClock => (.nothing, 0, { b with handClock })
  | none => (.panicked, 0, b)

def stepBot (b : Bot) : Step → Shown × Nat × Bot
  | .look q => act b q.look .found
  | .join qs =>
    let plan : Plan Bot Lock Call.Answer Finding (List Finding) := ⟨qs.map Query.look, .done⟩
    perform b (.ofPlan (.done plan)) .joined none .panicked
  | .pushMember update => act b (Directory.absorbMember update) .changes
  | .pushChannel update => act b (Directory.absorbChannel update) .changes
  | .resolveMessage raw => act b (Bot.resolveMessage raw) .message
  | .resolveVoice raw => act b (Bot.resolveVoice raw) .voice
  | .register id listener =>
    let (r, b) := b.register id listener .hand
    (.outcome r, 0, b)
  | .registerStock =>
    let (r, b) := b.registerStock
    (.outcome r, 0, b)
  | .roster => (.ids b.roster, 0, b)
  | .announce event => perform b (.ofPlan (Audience.announce event)) .ids none .panicked
  | .tellAll event => perform b (.ofPlan (Audience.tellAll event .done)) .ids none .panicked
  | .tell id event => match b.entry? id with
    | some e => act b (Audience.hear b.settings e event) .outcome
    | none => (.panicked, 0, b)
  | .process raw => perform b (Bot.work raw) (fun _ => .kind (.ok raw.kind)) none .panicked
  | .processInTime raw =>
    perform b (Bot.work raw) (fun _ => .kind (.ok raw.kind)) (some (Bot.timeLimit b.settings))
      (.kind (.error (.of (.timedOut (.ofSeconds b.settings.eventTimeout)))))
  | .shift accepted script shutdown =>
    let s := (Shift.start b accepted script shutdown).run Machine.stepLimit
    (if s.isOver then .outcome s.outcome else .panicked, s.now, s.machine.hub.state)
  | .call c => act b (Action.call c) (.answer c)
  | .patchWorld _ => (.nothing, 0, b)
  | .advance d => moveClock b (b.handClock.add? d.asAdvance)
  | .setClock t => moveClock b (some t)

def step (s : Session) (instruction : Step) : Report × Session :=
  let (result, duration, bot) := stepBot { s.bot with deeds := [], log := [] } instruction
  let report : Report := { result, deeds := bot.deeds, log := bot.log, duration }
  match instruction, s.world with
  | .patchWorld change, some world =>
    let world := world.patch change
    (report, { bot := { bot with platform := platform world }, world := some world })
  | _, world => (report, { bot, world })

def steps : Session → List Step → List Report
  | _, [] => []
  | s, instruction :: rest =>
    let (report, s) := s.step instruction
    report :: steps s rest

end Session

/-- Hides the numbers of rolls that chance decides, in the replies to rolls of dice with that many
sides. -/
def Report.redacted (sides : Nat) (r : Report) : Report :=
  { r with deeds := r.deeds.map fun
      | .call (.sendMessage channelId text) => .call (.sendMessage channelId (Dice.redact sides text))
      | deed => deed }

end GuildBot.Rehearsal
