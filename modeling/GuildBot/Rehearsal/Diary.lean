import GuildBot.Rehearsal.Traffic

/-!
# The diary of a tracker

A tracker on its own is told of changes in voice one after another. What it is answered on each
occasion, when the answers come, and when the next change comes is up to others. Its diary says of each
change whether it went by it, and what it sent.
-/

namespace GuildBot.Rehearsal

open Activity

/-- An answer, and what the clock says when it comes. -/
structure Reply (α : Type) where
  answer : α
  time : Instant

/-- A change in voice that a tracker is told of, and what it is answered while it handles the change. -/
structure Occasion where
  update : VoiceUpdate
  /-- What the clock says when the tracker is told. -/
  time : Instant
  guild (id : String) : Reply (Found Guild)
  channel (id : String) : Reply (Found Channel)
  user (id guildId : String) : Reply (Found User)
  channels (guildId : String) : Reply (Outcome (List Channel))
  send (channelId text : String) : Reply (Outcome Unit)

/-- A list of a guild's channels that was asked for, and the answer. -/
structure Listing where
  guildId : String
  answer : Outcome (List Channel)

/-- A tracker that handles a change in voice. -/
structure Desk where
  tracker : Tracker
  occasion : Occasion
  now : Instant
  /-- The messages sent so far, each with its channel. -/
  sent : List (String × String) := []
  /-- The lists of channels asked for so far. -/
  listings : List Listing := []

namespace Desk

/-- Programs of a tracker at its desk. They make no calls, for they are answered at once. -/
abbrev Action (α : Type) : Type := Program Desk Unit (fun _ : Empty => Unit) α

def respond : Respond Desk (fun _ : Empty => Unit) := fun _ c => c.elim

def ask {α : Type} (question : Occasion → Reply α) : Action α :=
  Flow.swap fun d => ((question d.occasion).answer, { d with now := (question d.occasion).time })

/-- What a tracker works with at its desk. It does not react, rolls no dice, and has no log. -/
def tools : Tools Desk Unit (fun _ : Empty => Unit) where
  guild id := ask fun o => o.guild id
  channel id := ask fun o => o.channel id
  user id guildId := ask fun o => o.user id guildId
  channels guildId := do
    Flow.change fun d =>
      { d with listings := d.listings ++ [⟨guildId, (d.occasion.channels guildId).answer⟩] }
    ask fun o => o.channels guildId
  send channelId text := do
    Flow.change fun d => { d with sent := d.sent ++ [(channelId, text)] }
    ask fun o => o.send channelId text
  react _ _ _ := return .ok ()
  roll _ _ := return []
  note _ _ := return ()

def place : Activity.Place Desk Unit where
  view d := d.tracker
  put tracker d := { d with tracker }
  now d := d.now
  lock := ()

def told (t : Tracker) (o : Occasion) : Desk := { tracker := t, occasion := o, now := o.time }

/-- What a program comes to at a desk, and the desk after it. -/
def perform {β : Type} (d : Desk) (f : Action β) : Ending β × Desk :=
  let (ending, _, d) := Machine.runAlone (δ := Unit) respond d (.ofProgram f) none
  (ending, d)

/-- What a tracker comes to when it handles a change in voice, and its desk then. -/
def handle (policy : Policy) (t : Tracker) (o : Occasion) : Ending (Outcome Unit) × Desk :=
  perform (told t o) (track tools policy place o.update)

def handled (policy : Policy) (t : Tracker) (o : Occasion) : Desk := (handle policy t o).2

/-- Whether the tracker finds that the user is to be tracked. -/
def goesBy (policy : Policy) (t : Tracker) (o : Occasion) : Bool :=
  (perform (told t o) (isTracked tools policy place o.update.guildId o.update.user.id)).1 =
    .value true

/-- The record of a channel as it is now, or as it was seen. -/
def refreshed (o : Occasion) (seen : Channel) : Channel :=
  match (o.channel seen.id).answer with
  | .ok (some channel) => channel
  | _ => seen

end Desk

/-- What is told of a change in voice. -/
structure Page where
  occasion : Occasion
  /-- Whether the user was found to be tracked. -/
  tracked : Bool
  /-- The messages that were sent, each with its channel. -/
  sent : List (String × String)
  /-- The lists of channels that were asked for. -/
  listings : List Listing

/-- What a tracker does about changes in voice that come one after another. -/
def diary (policy : Policy) : Tracker → List Occasion → List Page
  | _, [] => []
  | t, o :: rest =>
    let d := Desk.handled policy t o
    ⟨o, Desk.goesBy policy t o, d.sent, d.listings⟩ :: diary policy d.tracker rest

namespace Occasion

/-- Whether, if the tracker asks for it, a channel is found under its own id, and the guild's channels
are listed, one of that name among them. -/
structure IsHelpful (o : Occasion) (logChannel : String) : Prop where
  channel_id : ∀ id c, (o.channel id).answer = .ok (some c) → c.id = id
  lists : ∃ channels, (o.channels o.update.guildId).answer = .ok channels ∧
    ∃ c ∈ channels, c.name = logChannel

def nameNow (o : Occasion) (seen : Channel) : String :=
  match (o.channel seen.id).answer with
  | .ok (some channel) => channel.name
  | _ => seen.name

end Occasion

namespace Page

def update (p : Page) : VoiceUpdate := p.occasion.update

/-- Whether what was sent tells of the user's way from a channel, or from none, to where they are: by one
message if they have changed places, else by none. -/
def TellsFrom (p : Page) (previous : Option Channel) : Prop :=
  if previous.map Channel.id = p.update.channel.map Channel.id then p.sent = []
  else ∃ channelId, p.sent = [(channelId, wayText (p.update.user.displayName p.update.guildId)
    (previous.map p.occasion.nameNow) (p.update.channel.map Channel.name))]

def locate (seen : Sightings) (p : Page) : Sightings := seen.see p.update.user.id p.update.channel

def mark (seen : Sightings) (p : Page) : Sightings := if p.tracked then p.locate seen else seen

end Page

/-- The channels that users were in after the changes of a diary. -/
def places (pages : List Page) : Sightings := pages.foldl Page.locate fun _ => none

/-- The channels that users were last in when they were found to be tracked. -/
def sightings (pages : List Page) : Sightings := pages.foldl Page.mark fun _ => none

def guildLog (guildId : String) (pages : List Page) : List (String × String) :=
  (pages.filter fun p => p.update.guildId = guildId).flatMap Page.sent

def textsTo (channelId : String) (pages : List Page) : List String :=
  ((pages.flatMap Page.sent).filter fun message => message.1 = channelId).map Prod.snd

/-- Where the users of a guild's changes were last seen before each of these, in whatever guild. -/
def recollections (guildId : String) : Sightings → List Page → List (Option Channel)
  | _, [] => []
  | seen, p :: rest =>
    let later := recollections guildId (p.mark seen) rest
    if p.update.guildId = guildId then seen p.update.user.id :: later else later

end GuildBot.Rehearsal
