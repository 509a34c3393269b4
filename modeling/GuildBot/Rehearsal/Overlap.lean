import GuildBot.Bot.Exchange
import GuildBot.Flow.Crowd
import GuildBot.Flow.Machine

/-!
# Pushes that overlap with lookups

A record is looked up while the platform pushes an update of it. When each of the two has its turns, how
much time passes between them and what the clocks say is a list of moves. Every list of moves is a
possible run.
-/

namespace GuildBot

open Platform

/-- Whether a channel has the name that an update gives it. -/
def Channel.Shows (c : Channel) (update : ChannelUpdate) : Prop := c.name = update.name

/-- Whether a user has the names and the membership that an update gives them. -/
structure User.Shows (u : User) (update : MemberUpdate) : Prop where
  username : u.username = update.username
  globalName : u.globalName = update.globalName
  membership : u.membership update.guildId = update.member

namespace Rehearsal

/-- An update that is pushed of a record, of which there is a lookup at the same time. -/
inductive Overlap where
  | channel (update : ChannelUpdate)
  | user (update : MemberUpdate)

namespace Overlap

inductive Move where
  /-- The lookup has a turn. -/
  | lookUp
  /-- The push has a turn. -/
  | push
  | pass (milliseconds : Nat)
  | setClocks (t : Instant)
  deriving DecidableEq

abbrev Record : Overlap → Type
  | channel _ => Channel
  | user _ => User

def lookUp : (o : Overlap) → Action (Found o.Record)
  | channel update => Directory.channel update.channelId
  | user update => Directory.user update.userId update.guildId

def push : Overlap → Action (List Change)
  | channel update => Directory.absorbChannel update
  | user update => Directory.absorbMember update

/-- What is learned of the record if the platform is asked for it. -/
def learned (b : Bot) : (o : Overlap) → Option (Except (Partial o.Record) o.Record)
  | channel update => b.learnChannel update.channelId
  | user update => b.learnUser update.userId update.guildId

def peek (b : Bot) (now : Instant) : (o : Overlap) → Option o.Record
  | channel update => b.channels.peek now update.channelId
  | user update => b.users.peek now ⟨update.userId, update.guildId⟩

def live (b : Bot) (o : Overlap) : Option o.Record := o.peek b b.now

def lifetime (b : Bot) : Overlap → Duration
  | channel _ => b.channels.lifetime
  | user _ => b.users.lifetime

/-- Whether a record has the values that are pushed. -/
def Shows : (o : Overlap) → o.Record → Prop
  | channel update, c => Channel.Shows c update
  | user update, u => User.Shows u update

end Overlap

/-- A lookup, which ends with what is found, beside a push, which ends with the changes. -/
abbrev Pair (α : Type) : Type := Crowd Bot Lock Call.Answer (Found α ⊕ List Change)

namespace Pair

def seeker : Strand := ⟨0, some 0⟩

def pusher : Strand := ⟨1, some 0⟩

def setClocks (t : Instant) (b : Bot) : Bot := { b with handClock := t, wallClock := t }

def move : Overlap.Move → Crowd.Move Instant
  | .lookUp => .turn seeker
  | .push => .turn pusher
  | .pass milliseconds => .pass milliseconds
  | .setClocks t => .outside t

def start {α : Type} (b : Bot) (lookUp : Action (Found α)) (push : Action (List Change)) : Pair α :=
  Crowd.start b fun s =>
    if s = seeker then lookUp.bind fun found => .done (.inl found)
    else push.bind fun changes => .done (.inr changes)

def after {α : Type} (c : Pair α) (moves : List Overlap.Move) : Pair α :=
  Crowd.run Bot.respond setClocks c (moves.map move)

def bot {α : Type} (c : Pair α) : Bot := c.hub.state

def IsSeeking {α : Type} (c : Pair α) : Prop := ∃ obstacle rest, c.progress seeker = .waiting obstacle rest

def HasFound {α : Type} (c : Pair α) (found : Found α) : Prop :=
  c.progress seeker = .ended (some (.inl found))

def HasAbsorbed {α : Type} (c : Pair α) : Prop :=
  ∃ changes, c.progress pusher = .ended (some (.inr changes))

end Pair

namespace Overlap

def after (o : Overlap) (b : Bot) (moves : List Move) : Pair o.Record :=
  (Pair.start b o.lookUp o.push).after moves

/-- What a lookup on its own comes to, and the bot after it. -/
def lookUpAlone (o : Overlap) (b : Bot) : Ending (Found o.Record) × Bot :=
  let (ending, _, b) := Machine.runAlone (δ := Unit) Bot.respond b (.ofProgram o.lookUp) none
  (ending, b)

end Overlap

end Rehearsal

end GuildBot
