import GuildBot.Bot.Exchange
import GuildBot.Rehearsal.Session
/-!
# The ledger of a rehearsal

What a run of lookups and pushed updates has put under which key, told without the caches: from the
steps, the clock and the answers of the platform alone.
-/

namespace GuildBot

open Platform

namespace Rehearsal

/-- A record under a key: when it was put there, and what has become of it by pushed updates. -/
structure Holding (α : Type) where
  since : Instant
  record : α

abbrev Holdings (κ α : Type) : Type := κ → Option (Holding α)

namespace Holdings

variable {κ α : Type} [DecidableEq κ]

/-- The record that still counts at an instant. -/
def live? (d : Duration) (now : Instant) (key : κ) (hs : Holdings κ α) : Option α :=
  ((hs key).filter fun h => now.nanoseconds < h.since.nanoseconds + d.nanoseconds).map Holding.record

def put (d : Duration) (now : Instant) (key : κ) (record : α) (hs : Holdings κ α) : Holdings κ α :=
  if (now.add? d).isSome then fun k => if k = key then some ⟨now, record⟩ else hs k else hs

/-- Changes the record under a key, and not since when it is there. -/
def revise (key : κ) (f : α → α) (hs : Holdings κ α) : Holdings κ α :=
  fun k => if k = key then (hs k).map fun h => { h with record := f h.record } else hs k

/-- A lookup: where no record counts, a complete one that is learned is put. -/
def lookUp (d : Duration) (now : Instant) (key : κ) (learned : Option (Except (Partial α) α))
    (hs : Holdings κ α) : Holdings κ α :=
  match hs.live? d now key, learned with
  | none, some (.ok record) => hs.put d now key record
  | _, _ => hs

end Holdings

/-- What is under the keys of all records. -/
structure Ledger where
  guilds : Holdings String Guild := fun _ => none
  channels : Holdings String Channel := fun _ => none
  users : Holdings UserKey User := fun _ => none

/-- Whether a lookup is of a record, by an id that is not empty. -/
def Query.IsNamed : Query → Prop
  | .guild id => id ≠ ""
  | .channel id => id ≠ ""
  | .user id _ => id ≠ ""
  | .channels _ => False

def Query.calls (b : Bot) : Query → List Call
  | .guild id => [.fetchGuild id]
  | .channel id => [.fetchChannel id]
  | .user id guildId => b.callsForUser id guildId
  | .channels guildId => [.fetchGuildChannels guildId]

/-- What is shown of a record that was learned. One that would outlast the clock cannot be stored. -/
def shownOf {α : Type} (b : Bot) (wrap : Found α → Finding) :
    Option (Except (Partial α) α) → Shown
  | some (.ok record) =>
    if (b.now.add? b.lifetime).isSome then .found (wrap (.ok (some record))) else .panicked
  | some (.error p) => .found (wrap (.error p))
  | none => .panicked

/-- What a lookup shows that goes to the platform. -/
def Query.learned (b : Bot) : Query → Shown
  | .guild id => shownOf b .guild (b.learnGuild id)
  | .channel id => shownOf b .channel (b.learnChannel id)
  | .user id guildId => shownOf b .user (b.learnUser id guildId)
  | .channels _ => .nothing

def Shown.isComplete : Shown → Bool
  | .found (.guild (.ok _)) => true
  | .found (.channel (.ok _)) => true
  | .found (.user (.ok _)) => true
  | .found (.channels (.ok _)) => true
  | _ => false

namespace Ledger

def find? (l : Ledger) (b : Bot) : Query → Option Finding
  | .guild id => (l.guilds.live? b.lifetime b.now id).map fun g => .guild (.ok (some g))
  | .channel id => (l.channels.live? b.lifetime b.now id).map fun c => .channel (.ok (some c))
  | .user id guildId =>
    (l.users.live? b.lifetime b.now ⟨id, guildId⟩).map fun u => .user (.ok (some u))
  | .channels _ => none

def lookUp (l : Ledger) (b : Bot) : Query → Ledger
  | .guild id =>
    if id = "" then l
    else { l with guilds := l.guilds.lookUp b.lifetime b.now id (b.learnGuild id) }
  | .channel id =>
    if id = "" then l
    else { l with channels := l.channels.lookUp b.lifetime b.now id (b.learnChannel id) }
  | .user id guildId =>
    if id = "" then l
    else
      let users := l.users.lookUp b.lifetime b.now ⟨id, guildId⟩ (b.learnUser id guildId)
      { l with users }
  | .channels _ => l

/-- Takes account of a pushed update of a member. The record for the guild takes all of it, or is
made anew from it if none counts; the record without a guild takes the names. -/
def absorbMember (l : Ledger) (b : Bot) (update : MemberUpdate) : Ledger :=
  let key : UserKey := ⟨update.userId, update.guildId⟩
  let names (users : Holdings UserKey User) : Holdings UserKey User :=
    users.revise ⟨update.userId, ""⟩ fun user => (user.updateNames update).1
  if (l.users.live? b.lifetime b.now key).isSome then
    { l with users := names (l.users.revise key fun user => (user.update update).1) }
  else if (b.now.add? b.lifetime).isSome then
    { l with users := names (l.users.put b.lifetime b.now key (User.ofUpdate update true)) }
  else l

def absorbChannel (l : Ledger) (b : Bot) (update : ChannelUpdate) : Ledger :=
  let channels :=
    if (l.channels.live? b.lifetime b.now update.channelId).isSome then
      l.channels.revise update.channelId fun channel => (channel.update update).1
    else
      l.channels.put b.lifetime b.now update.channelId
        { id := update.channelId, name := update.name }
  { l with channels }

def step (l : Ledger) (b : Bot) : Step → Ledger
  | .look q => l.lookUp b q
  | .pushMember update => l.absorbMember b update
  | .pushChannel update => l.absorbChannel b update
  | _ => l

def after (l : Ledger) : Bot → List Step → Ledger
  | _, [] => l
  | b, s :: rest => (l.step b s).after (Session.stepBot b s).2.2 rest

end Ledger

namespace Session

def botAfter (b : Bot) (steps : List Step) : Bot := steps.foldl (fun b s => (stepBot b s).2.2) b

def NeverGoesBack : Bot → List Step → Prop
  | _, [] => True
  | b, s :: rest => b.now.nanoseconds ≤ (stepBot b s).2.2.now.nanoseconds ∧
      NeverGoesBack (stepBot b s).2.2 rest

end Session

/-- Whether a step concerns the directory or a clock. -/
def Step.IsDirectory : Step → Prop
  | .look _ => True
  | .pushMember _ => True
  | .pushChannel _ => True
  | .advance _ => True
  | .setClock _ => True
  | _ => False

end Rehearsal

end GuildBot
