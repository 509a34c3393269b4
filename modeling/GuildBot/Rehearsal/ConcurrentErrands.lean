import GuildBot.Bot.Exchange
import GuildBot.Rehearsal.Traffic

/-!
# Errands side by side

A bot that looks records up, takes pushed updates and processes events, any number of them side by
side, while clocks are moved, listeners are registered and the platform changes its mind. Nothing is
assumed about the order in which anything has its turn.
-/

namespace GuildBot

open Platform

/-- A truthful platform that gives users without their memberships. -/
structure Platform.Honest (p : Behaviour) : Prop extends Truthful p where
  memberships : ∀ ds id (u : User),
    (p ds (.fetchUser id)).result = some (.ok u) → u.memberships = ∅

/-- Whether every cached record carries the id that it is cached under, and those of users say of
memberships only what concerns the guild that they are cached for. -/
structure Bot.KeepsIds (b : Bot) : Prop where
  guilds : ∀ id (e : Cache.Entry Guild), b.guilds.entries[id]? = some e → e.value.id = id
  channels : ∀ id (e : Cache.Entry Channel), b.channels.entries[id]? = some e → e.value.id = id
  users : ∀ (key : UserKey) (e : Cache.Entry User), b.users.entries[key]? = some e →
    e.value.id = key.userId
  memberships : ∀ (key : UserKey) (e : Cache.Entry User), b.users.entries[key]? = some e →
    ∀ guildId ∈ e.value.memberships, guildId = key.guildId

/-- Whether a message is the announced one, by all its ids and its content. -/
structure Message.IsOf (m : Message) (raw : RawMessage) : Prop where
  author : m.author.id = raw.authorId
  /-- It has no guild just when the id of the guild is empty. -/
  guild : m.guild.map Guild.id = (some raw.guildId).filter (· ≠ "")
  channel : m.channel.id = raw.channelId
  id : m.id = raw.messageId
  content : m.content = raw.content

structure VoiceUpdate.IsOf (u : VoiceUpdate) (raw : RawVoice) : Prop where
  user : u.user.id = raw.userId
  guild : u.guild.map Guild.id = (some raw.guildId).filter (· ≠ "")
  /-- It has no channel just when there is no id of a channel, or an empty one. -/
  channel : u.channel.map Channel.id = raw.place?

def Event.IsOf : Event → RawEvent → Prop
  | .message m, .message raw => m.IsOf raw
  | .voice u, .voice raw => u.IsOf raw
  | _, _ => False

/-- Whether the listeners are told of an event, when it is known what it is about. -/
def RawEvent.IsTold : RawEvent → Prop
  | .message raw => raw.fromSelf = false
  | .voice _ => True
  | _ => False

/-- Whether a plan is to tell all who are registered by then of an event. -/
def Audience.IsAbout (event : Event) (plan : Audience.Telling (List String)) : Prop :=
  ∃ b : Bot, plan.branches = b.registry.map (Audience.tell b.settings event) ∧
    plan.close = fun results => Audience.flag event (results.filterMap id)

namespace Rehearsal

/-- Something that a bot is given to do. -/
inductive Errand where
  | look (q : Query)
  | pushMember (update : MemberUpdate)
  | pushChannel (update : ChannelUpdate)
  | process (raw : RawEvent)

namespace Errand

/-- Work that is one program, whose result nobody asks for. -/
def ofAction {α : Type} (f : Action α) :
    Task Bot Lock Call.Answer (Option String) (List String) :=
  { work := .ofProgram (f.bind fun _ => .done []) }

def task (settings : Settings) : Errand → Task Bot Lock Call.Answer (Option String) (List String)
  | .look q => ofAction q.look
  | .pushMember update => ofAction (Directory.absorbMember update)
  | .pushChannel update => ofAction (Directory.absorbChannel update)
  | .process raw => Shift.taskOf settings raw

end Errand

namespace ConcurrentErrands

inductive Move where
  | start (e : Errand)
  /-- The errand of that number has a turn. -/
  | turn (number : Nat)
  | pass (milliseconds : Nat)
  | register (id : String) (listener : Listener) (clock : Clock)
  | setClock (clock : Clock) (t : Instant)
  /-- From now on the platform behaves otherwise. -/
  | connect (p : Behaviour) (honest : Honest p)

def touch : Move → Bot → Bot
  | .register id listener clock, b => (b.register id listener clock).2
  | .setClock .hand t, b => { b with handClock := t }
  | .setClock .wall t, b => { b with wallClock := t }
  | .connect p _, b => { b with platform := p }
  | _, b => b

def step (m : EventMachine) : Move → EventMachine
  | .start e => m.spawn (e.task m.hub.state.settings)
  | .turn number => m.pollTask Bot.respond number
  | .pass milliseconds => { m with hub := m.hub.arrive (m.hub.now + milliseconds) }
  | move => { m with hub := { m.hub with state := touch move m.hub.state } }

def after (b : Bot) (moves : List Move) : EventMachine := moves.foldl step (.ofState b)

/-- Whether a bot can become another. -/
def Leads (b b' : Bot) : Prop := ∃ moves, (after b moves).hub.state = b'

end ConcurrentErrands

end Rehearsal

end GuildBot
