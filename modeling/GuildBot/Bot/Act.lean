import GuildBot.Bot.Process

/-!
# What is done about a message

The stock listeners do at most one thing about a message, which its content decides: nothing, a
reaction, a reply, or a refusal, which is a reply with a reaction. An act comes down to calls, and the
first of them decides whether it fails.
-/

namespace GuildBot

open Platform

/-- The listeners that a bot has from the start, under their ids. -/
def stock : List (String × Listener) := [("dice", .dice), ("ping", .ping), ("activity", .activity)]

namespace Bot

/-- Whether the stock listeners are registered, and no others. -/
def HasStock (b : Bot) : Prop := b.registry.map (fun e => (e.id, e.listener)) = stock

/-- Whether every call has a result, be it a failure. -/
def IsAnswered (b : Bot) : Prop := ∀ deeds c, (b.platform deeds c).result.isSome = true

/-- Whether all that is cached now would expire before the clock ends. -/
structure InRange (b : Bot) : Prop where
  guilds : (b.now.add? b.guilds.lifetime).isSome = true
  channels : (b.now.add? b.channels.lifetime).isSome = true
  users : (b.now.add? b.users.lifetime).isSome = true

def succeeds (b : Bot) (c : Call) : Bool :=
  match b.answer c with
  | some (.ok _) => true
  | some (.error _) => false
  | none => false

end Bot

inductive Act where
  | nothing
  | reaction (listenerId emoji : String)
  | reply (text : String)
  | refusal (text emoji : String)
  deriving DecidableEq, Repr

namespace Act

def ofVerdict (authorId : String) (words : List Nat) : Dice.Verdict → Act
  | .malformed => refusal "malformed command" Listener.annoyed
  | .tooManyDice => refusal Listener.tooManyDiceText Listener.sad
  | .noDice => reaction "dice" Listener.annoyed
  | .tooManySides => refusal Listener.tooManySidesText Listener.sad
  | .noSides => reaction "dice" Listener.annoyed
  | .offsetTooGreat => refusal Listener.offsetTooGreatText Listener.sad
  | .accepted roll =>
    reply (Dice.describe authorId (Dice.rollAll roll.sides roll.dice words).1 roll.offset)

def ofMessage (m : Message) (words : List Nat) : Act :=
  if m.content = "!ping" then reaction "ping" "👍"
  else match Dice.request? m.content with
    | some request => ofVerdict m.author.id words (Dice.judge request)
    | none => nothing

def listenerId? : Act → Option String
  | nothing => none
  | reaction id _ => some id
  | reply _ => some "dice"
  | refusal _ _ => some "dice"

/-- The calls that an act comes down to. The reaction of a refusal is left out if the text cannot be
sent. -/
def calls (b : Bot) (m : Message) : Act → List Call
  | nothing => []
  | reaction _ emoji => [.addReaction m.channel.id m.id emoji]
  | reply text => [.sendMessage m.channel.id text]
  | refusal text emoji =>
    if b.succeeds (.sendMessage m.channel.id text) then
      [.sendMessage m.channel.id text, .addReaction m.channel.id m.id emoji]
    else [.sendMessage m.channel.id text]

/-- Whether an act fails: a text cannot be sent, or a reaction without a text cannot be made. -/
def fails (b : Bot) (m : Message) : Act → Bool
  | nothing => false
  | reaction _ emoji => !b.succeeds (.addReaction m.channel.id m.id emoji)
  | reply text => !b.succeeds (.sendMessage m.channel.id text)
  | refusal text _ => !b.succeeds (.sendMessage m.channel.id text)

/-- The listeners that are reported for an act. -/
def failed (b : Bot) (m : Message) (a : Act) : List String :=
  if a.fails b m then a.listenerId?.toList else []

def flags (b : Bot) (m : Message) (a : Act) : List Call :=
  if a.fails b m then [.addReaction m.channel.id m.id b.settings.failureEmoji] else []

end Act

end GuildBot
