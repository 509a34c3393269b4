import GuildBot.Proofs.Rehearsal.GuildLog

/-!
# Where messages go

A tracker that has news of a guild asks for the list of the guild's channels until it is given one with a
log channel, and then writes there for good: to the first one of its name in the first such list.
-/

namespace GuildBot.Rehearsal

open Activity

variable {policy : Policy} {t : Tracker} {name : String} {listings : List Listing} {seen : Sightings}

/-- Whether a tracker knows of log channels what some lists say, and where users were last seen. -/
structure Knows (name : String) (listings : List Listing) (seen : Sightings) (t : Tracker) : Prop where
  address : ∀ guildId : String, t.logChannels[guildId]? = address? name guildId listings
  lastSeen : ∀ userId : String, t.lastSeen[userId]? = seen userId

private theorem knows_ofDuration (name : String) (d : Duration) :
    Knows name [] (fun _ => none) (.ofDuration d) where
  address _ := by simp [Tracker.ofDuration, address?]
  lastSeen _ := by simp [Tracker.ofDuration]

namespace Desk

variable {d : Desk} {text : String}

private theorem news?_eq (h : ∀ userId : String, t.lastSeen[userId]? = seen userId) (o : Occasion) :
    news? policy t o = (page policy t o).news? seen := by
  unfold news?
  rw [h]
  rfl

private theorem Writes.isAddressed {p : Page} (h : Writes name p.update.guildId text (told t p.occasion) d)
    (hlistings : d.listings = p.listings) (hsent : d.sent = p.sent)
    (hbefore : ∀ guildId : String, t.logChannels[guildId]? = address? name guildId listings)
    (hafter : ∀ guildId : String,
      d.tracker.logChannels[guildId]? = address? name guildId (listings ++ p.listings)) :
    p.IsAddressed name (some text) listings := by
  have hwanted : p.listings = wanted p.update.guildId (told t p.occasion) :=
    hlistings.symm.trans (h.listings.trans (List.nil_append _))
  have htold : p.sent = (address? name p.update.guildId (listings ++ p.listings)).toList.map (·, text) := by
    rw [← hafter, ← hsent]
    exact h.sent.trans (List.nil_append _)
  have hunknown : address? name p.update.guildId listings = none ↔
      ∀ listing ∈ listings, listing.guildId = p.update.guildId → ¬listing.Has name :=
    address?_eq_none_iff
  unfold wanted at hwanted
  change p.listings = if t.logChannels[p.update.guildId]?.isSome then _ else _ at hwanted
  rw [hbefore] at hwanted
  refine ⟨?_, ?_, ?_, ?_, ?_⟩
  · rw [← hunknown, hwanted]
    cases address? name p.update.guildId listings with
    | none => simp
    | some channelId => simp
  · intro listing hlisting
    rw [hwanted] at hlisting
    split at hlisting
    · exact absurd hlisting List.not_mem_nil
    · exact List.mem_singleton.1 hlisting
  · rw [hwanted]
    split
    · simp
    · simp
  · intro message hmessage
    rw [htold] at hmessage
    obtain ⟨channelId, hchannel, rfl⟩ := List.mem_map.1 hmessage
    exact ⟨rfl, isAddress_of_address? (Option.mem_toList.1 hchannel)⟩
  · rintro _ ⟨⟩ ⟨listing, hlisting, hguild, hhas⟩
    cases haddress : address? name p.update.guildId (listings ++ p.listings) with
    | none => exact absurd hhas (address?_eq_none_iff.1 haddress listing hlisting hguild)
    | some channelId => exact ⟨channelId, by rw [htold, haddress]; rfl⟩

end Desk

/-- A tracker that handles a change writes to the log channel it knows, and knows what it finds out. -/
theorem Knows.page (h : Knows policy.logChannel listings seen t) (o : Occasion) :
    let p := Desk.page policy t o
    p.IsAddressed policy.logChannel (p.news? seen) listings ∧
      Knows policy.logChannel (listings ++ p.listings) (p.mark seen)
        (Desk.handled policy t o).tracker := by
  intro p
  obtain ⟨hreports, -⟩ := Desk.ends_track policy t o
  have hbefore (guildId : String) : (Desk.sighted policy t o).logChannels[guildId]? =
      address? policy.logChannel guildId listings := by
    rw [Desk.logChannels_sighted]
    exact h.address guildId
  have hafter (guildId : String) : (Desk.handled policy t o).tracker.logChannels[guildId]? =
      address? policy.logChannel guildId (listings ++ p.listings) := by
    rw [address?_append, ← hbefore]
    exact hreports.known rfl guildId
  refine ⟨?_, hafter, Desk.lastSeen_handled h.lastSeen o⟩
  rw [Desk.news?_eq h.lastSeen] at hreports
  cases hnews : (Desk.page policy t o).news? seen with
  | none =>
    rw [hnews] at hreports
    have hlistings : p.listings = [] := Desk.Ponders.listings hreports
    have hsent : p.sent = [] := Desk.Ponders.sent hreports
    refine ⟨?_, ?_, ?_, ?_, ?_⟩
    · simp [p, hlistings]
    · simp [p, hlistings]
    · simp [p, hlistings]
    · simp [p, hsent]
    · intro text h
      cases h
  | some text =>
    rw [hnews] at hreports
    exact Desk.Writes.isAddressed (p := p) hreports rfl rfl hbefore hafter

private theorem isAddressed_of_diary (os : List Occasion) {before after : List Page} {p : Page}
    (h : Knows policy.logChannel listings seen t) (hdiary : diary policy t os = before ++ p :: after) :
    p.IsAddressed policy.logChannel (p.news? (before.foldl Page.mark seen))
      (listings ++ listingsOf before) := by
  induction os generalizing t listings seen before with
  | nil => simp [diary] at hdiary
  | cons o rest ih =>
    rw [diary_cons] at hdiary
    -- After the first change the tracker knows what the lists say that the first page has been added to.
    obtain ⟨hpage, hknows⟩ := h.page o
    cases before with
    | nil =>
      obtain ⟨rfl, -⟩ := List.cons.inj hdiary
      rw [listingsOf, List.flatMap_nil, List.append_nil]
      exact hpage
    | cons first before =>
      obtain ⟨rfl, hrest⟩ := List.cons.inj hdiary
      have hlater := ih hknows hrest
      rwa [List.append_assoc] at hlater

/-- Whatever changes a tracker is told of one after another, and whatever it is answered: it asks for the
list of a guild's channels just when it has news of the guild and no list so far had a log channel, and
writes the news to the first log channel in the first list that had one. -/
theorem news_goes_to_address (policy : Policy) (d : Duration) (os : List Occasion)
    {before after : List Page} {p : Page}
    (hdiary : diary policy (.ofDuration d) os = before ++ p :: after) :
    p.IsAddressed policy.logChannel (p.news? (sightings before)) (listingsOf before) :=
  isAddressed_of_diary os (knows_ofDuration policy.logChannel d) hdiary

/-- Bob is seen in a channel of a guild, and a list of the guild's channels is asked for in vain, or has the
channels of these ids and names. -/
def bobListed (guildId : String) (seconds : Int) (channel : Option Channel)
    (channels : Option (List (String × String))) : Occasion :=
  { bobSeen guildId seconds ∅ channel with
    channels := fun _ => ⟨channels.elim (.error (.of (.other "boom"))) fun channels =>
      .ok (channels.map fun c => { id := c.1, name := c.2 }), .ofSeconds seconds⟩ }

/-- Bob goes about two guilds. In one of them the list of channels cannot be had at first, then has no log
channel, and then has two; by the end they are gone from it. -/
def restless : List Occasion :=
  [bobListed "7" 0 (some lounge) none,
    bobListed "7" 10 (some den) (some [("70", "general")]),
    bobListed "8" 20 (some lounge) (some [("81", "activity_log")]),
    bobListed "7" 30 (some den) (some [("71", "activity_log"), ("72", "activity_log")]),
    bobListed "7" 40 none (some [])]

theorem news_goes_to_address_restless :
    ∃ before p after, diary everyone (.ofDuration (.ofSeconds 5)) restless = before ++ p :: after ∧
      p.IsAddressed "activity_log" (p.news? (sightings before)) (listingsOf before) ∧
      (listingsOf before).map Listing.guildId = ["7", "7", "8", "7"] ∧
      p.listings.length = 0 ∧ p.sent = [("71", "bob left den")] :=
  ⟨[_, _, _, _], _, [], rfl, news_goes_to_address everyone (.ofSeconds 5) restless rfl,
    by decide +kernel, by decide +kernel, by decide +kernel⟩

end GuildBot.Rehearsal
