import GuildBot.Flow.Crowd
import GuildBot.Rehearsal.Traffic

/-!
# A tracker that strands share

A tracker that handles any number of changes in voice side by side, each by a strand of its own. What it is
answered, how long the answers take and what the clock says is up to others. Each strand has a file of what
it was told, which messages it sent, and what it wrote to the log.
-/

namespace GuildBot.Rehearsal

open Activity

/-- What the questions of a tracker are answered, each with the milliseconds that the answer takes.
A channel that is found has the id that was asked for. -/
structure Answers where
  guild (id : String) : Nat × Found Guild
  channel (id : String) : Nat × Found Channel
  user (id guildId : String) : Nat × Found User
  channels (guildId : String) : Nat × Outcome (List Channel)
  send (channelId text : String) : Nat × Outcome Unit
  channel_id : ∀ id c, (channel id).2 = .ok (some c) → c.id = id

/-- What is known of a strand. -/
structure SharedTracker.File where
  /-- The guilds and the users that it looked up, each with what was found. -/
  guilds : List (String × Found Guild) := []
  users : List (UserKey × Found User) := []
  /-- The ids of the channels that it looked up, each with what was found. -/
  lookups : List (String × Found Channel) := []
  /-- The messages that it sent, each with its channel. -/
  sent : List (String × String) := []
  log : List Log.Line := []

structure SharedTracker where
  tracker : Tracker
  answers : Answers
  now : Instant
  files : Strand → SharedTracker.File := fun _ => {}

namespace SharedTracker

/-- What the strands ask. -/
inductive Question where
  | guild (asker : Strand) (id : String)
  | channel (asker : Strand) (id : String)
  | user (asker : Strand) (id guildId : String)
  | channels (guildId : String)
  | send (sender : Strand) (channelId text : String)

abbrev Question.Answer : Question → Type
  | .guild _ _ => Found Guild
  | .channel _ _ => Found Channel
  | .user _ _ _ => Found User
  | .channels _ => Outcome (List Channel)
  | .send _ _ _ => Outcome Unit

def write (o : SharedTracker) (s : Strand) (f : File → File) : SharedTracker :=
  { o with files := fun t => if t = s then f (o.files t) else o.files t }

def respond (o : SharedTracker) : (q : Question) → SharedTracker × Nat × q.Answer
  | .guild asker id =>
    (o.write asker fun f => { f with guilds := f.guilds ++ [(id, (o.answers.guild id).2)] },
      o.answers.guild id)
  | .channel asker id =>
    (o.write asker fun f => { f with lookups := f.lookups ++ [(id, (o.answers.channel id).2)] },
      o.answers.channel id)
  | .user asker id guildId =>
    (o.write asker fun f =>
        { f with users := f.users ++ [(⟨id, guildId⟩, (o.answers.user id guildId).2)] },
      o.answers.user id guildId)
  | .channels guildId => (o, o.answers.channels guildId)
  | .send sender channelId text =>
    (o.write sender fun f => { f with sent := f.sent ++ [(channelId, text)] },
      o.answers.send channelId text)

abbrev Action (α : Type) : Type := Program SharedTracker Unit Question.Answer α

/-- What a strand works with. It does not react and rolls no dice. -/
def tools (s : Strand) : Tools SharedTracker Unit Question.Answer where
  guild id := Program.call (Question.guild s id)
  channel id := Program.call (Question.channel s id)
  user id guildId := Program.call (Question.user s id guildId)
  channels guildId := Program.call (Question.channels guildId)
  send channelId text := Program.call (Question.send s channelId text)
  react _ _ _ := return .ok ()
  roll _ _ := return []
  note level message := Flow.change fun o =>
    o.write s fun f => { f with log := f.log ++ [⟨level, message⟩] }

def place : Activity.Place SharedTracker Unit where
  view o := o.tracker
  put tracker o := { o with tracker }
  now o := o.now
  lock := ()

/-- What others do meanwhile. -/
inductive Deed where
  /-- From now on the questions are answered otherwise. -/
  | setAnswers (answers : Answers)
  | setClock (t : Instant)

def act : Deed → SharedTracker → SharedTracker
  | .setAnswers answers, o => { o with answers }
  | .setClock t, o => { o with now := t }

/-- The strands of a tracker. -/
abbrev Staff : Type := Crowd SharedTracker Unit Question.Answer (Outcome Unit)

def start (policy : Policy) (updates : Strand → VoiceUpdate) (tracker : Tracker)
    (answers : Answers) (now : Instant) : Staff :=
  Crowd.start { tracker, answers, now } fun s => track (tools s) policy place (updates s)

def after (c : Staff) (moves : List (Crowd.Move Deed)) : Staff := Crowd.run respond act c moves

/-- The line about a user who is not to be tracked. -/
def ignoredLine : Log.Line := ⟨.debug, "Ignoring voice state change from opted-out user."⟩

/-- Where users were last seen once the changes of some strands were seen one after another. -/
def seenAfter (updates : Strand → VoiceUpdate) (seen : Sightings) (order : List Strand) :
    Sightings :=
  order.foldl (fun seen s => seen.see (updates s).user.id (updates s).channel) seen

def refreshed (seen : Option Channel) : Found Channel → Option Channel
  | .ok (some channel) => some channel
  | _ => seen

/-- What the strand knows by now of the channel that its user was seen in, if any. -/
def File.known (f : File) (seen : Option Channel) : Option Channel :=
  match f.lookups.getLast? with
  | some (_, found) => refreshed seen found
  | none => seen

/-- Whether a strand whose user was seen in a channel before, or in none, told of the way from there
and of nothing else: by at most one message, and by none if the user has not changed places. -/
structure File.TellsFrom (f : File) (update : VoiceUpdate) (seen : Option Channel) : Prop where
  /-- It looks up no other channel. -/
  lookups : ∀ l ∈ f.lookups, seen.map Channel.id = some l.1
  known : (f.known seen).map Channel.id = seen.map Channel.id
  once : f.sent.length ≤ 1
  stays : seen.map Channel.id = update.channel.map Channel.id → f.sent = []
  text : ∀ message ∈ f.sent, transitionText? (update.user.displayName update.guildId)
    (f.known seen) update.channel = some message.2

/-- Whether a user holds a role in a guild, by what was found of the guild and, if it has the role, of the
user. -/
def holdsRole? (role guildId : String) (guild : Found Guild) (user : Option (Found User)) : Option Bool :=
  match guild.record?.bind (·.roleId? role) with
  | none => some false
  | some roleId => user.map fun user => user.record?.any (·.hasRole guildId roleId)

/-- What the gate says of a user, by the file of a strand. Without a tracking role everyone is tracked. With
one, a strand that has asked goes by what it was told of the user and the guild, and one that has not goes
by a decision that was live. -/
def Decides (policy : Policy) (key : UserKey) (live : Bool → Prop) (f : File) (tracked : Bool) : Prop :=
  match policy.role, f.guilds with
  | none, _ => tracked = true
  | some _, [] => live tracked
  | some role, asked => (asked.lookup key.guildId).bind
      (holdsRole? role key.guildId · (f.users.lookup key)) = some tracked

def keyOf (update : VoiceUpdate) : UserKey := ⟨update.user.id, update.guildId⟩

/-- Whether a decision about a user was live when the strand had one of those turns. -/
def FoundLive (begun : Staff) (moves : List (Crowd.Move Deed)) (s : Strand) (key : UserKey)
    (tracked : Bool) : Prop :=
  ∃ before later, moves = before ++ .turn s :: later ∧
    let o := (after begun before).hub.state
    o.tracker.decisions.peek o.now key = some tracked

/-- What the gate says of the user of a strand after those moves. -/
def Gate (policy : Policy) (updates : Strand → VoiceUpdate) (begun : Staff)
    (moves : List (Crowd.Move Deed)) (s : Strand) (tracked : Bool) : Prop :=
  Decides policy (keyOf (updates s)) (FoundLive begun moves s (keyOf (updates s)))
    ((after begun moves).hub.state.files s) tracked

/-- Whether the strands that a gate let pass saw their users one after another, each found its user where
the one before it had left them, and no other strand did anything but perhaps find that its user is not to
be tracked. -/
structure Chained (updates : Strand → VoiceUpdate) (seen : Sightings) (gate : Strand → Bool → Prop)
    (order : List Strand) (c : Staff) : Prop where
  nodup : order.Nodup
  passed : ∀ s ∈ order, gate s true
  /-- The tracker remembers where the last of them have left their users. -/
  lastSeen : ∀ userId,
    c.hub.state.tracker.lastSeen[userId]? = seenAfter updates seen order userId
  tells : ∀ before s later, order = before ++ s :: later →
    (c.hub.state.files s).TellsFrom (updates s)
      (seenAfter updates seen before (updates s).user.id)
  /-- A strand that ends well has sent a message if its user has changed places. -/
  moves : ∀ before s later, order = before ++ s :: later →
    c.progress s = .ended (some (.ok ())) →
    (seenAfter updates seen before (updates s).user.id).map Channel.id ≠
      (updates s).channel.map Channel.id → (c.hub.state.files s).sent ≠ []
  tracked : ∀ s ∈ order, ignoredLine ∉ (c.hub.state.files s).log
  others : ∀ s, s ∉ order →
    (c.hub.state.files s).lookups = [] ∧ (c.hub.state.files s).sent = []
  /-- A strand that ends and is none of them was stopped at the gate. -/
  refused : ∀ s r, s ∉ order → c.progress s = .ended (some r) →
    gate s false ∧ ignoredLine ∈ (c.hub.state.files s).log

end SharedTracker

end GuildBot.Rehearsal
