import GuildBot.Rehearsal.Diary

/-!
# Where messages belong

The lists of channels that a tracker asks for show where its messages belong: in the first channel of the
right name in the first list of the guild that has one.
-/

namespace GuildBot.Rehearsal

open Activity

/-- Whether there was a list, and a channel of that name in it. -/
def Listing.Has (name : String) (l : Listing) : Prop :=
  ∃ channels, l.answer = .ok channels ∧ ∃ c ∈ channels, c.name = name

/-- Whether a channel is the first of that name in the first list of a guild that has one. -/
def IsAddress (name guildId : String) (listings : List Listing) (channelId : String) : Prop :=
  ∃ before channels after, listings = before ++ ⟨guildId, .ok channels⟩ :: after ∧
    (∀ l ∈ before, l.guildId = guildId → ¬l.Has name) ∧
    (channels.find? fun c => c.name = name).map Channel.id = some channelId

/-- Whether a tracker had something to write, but came to know of no log channel to write it to. -/
def Strays (r : Outcome Unit) : Prop :=
  ∃ f : Failure, r = .error ((f.inContext "ensuring log channel exists").inContext "recording activity")

/-- What there is to write about a change in voice, if the user was in a channel before, or in none. -/
def Occasion.news? (o : Occasion) (previous : Option Channel) : Option String :=
  if previous.map Channel.id = o.update.channel.map Channel.id then none
  else transitionText? (o.update.user.displayName o.update.guildId)
    (previous.map (Desk.refreshed o)) o.update.channel

namespace Page

def news? (seen : Sightings) (p : Page) : Option String :=
  if p.tracked then p.occasion.news? (seen p.update.user.id) else none

/-- Whether a tracker wrote to the guild's log channel, after the lists that it had asked for earlier: it
asked for another just if there was news and none of them had told it of a log channel, and wrote the news
to the log channel if it had been told of one by then. -/
structure IsAddressed (name : String) (news : Option String) (earlier : List Listing) (p : Page) :
    Prop where
  asks_iff : p.listings ≠ [] ↔
    news.isSome ∧ ∀ listing ∈ earlier, listing.guildId = p.update.guildId → ¬listing.Has name
  asked : ∀ listing ∈ p.listings,
    listing = ⟨p.update.guildId, (p.occasion.channels p.update.guildId).answer⟩
  once : p.listings.length ≤ 1
  address : ∀ message ∈ p.sent, news = some message.2 ∧
    IsAddress name p.update.guildId (earlier ++ p.listings) message.1
  sent : ∀ text, news = some text →
    (∃ listing ∈ earlier ++ p.listings, listing.guildId = p.update.guildId ∧ listing.Has name) →
      ∃ channelId, p.sent = [(channelId, text)]

end Page

def listingsOf (pages : List Page) : List Listing := pages.flatMap Page.listings

end GuildBot.Rehearsal
