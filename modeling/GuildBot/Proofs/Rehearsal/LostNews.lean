import GuildBot.Proofs.Rehearsal.Address

/-!
# News of a guild without a log channel

A tracker sees where a user is before it looks for the log channel of the guild. If there is none, the news
is lost: the tracker finds the user where they are by then, and has nothing to tell when it is told again.
-/

namespace GuildBot.Rehearsal

open Activity

variable {policy : Policy} {t : Tracker} {o : Occasion}

namespace Desk

private theorem goesBy_of_news? (h : (news? policy t o).isSome) : goesBy policy t o = true := by
  by_contra hgoes
  simp [news?, hgoes] at h

private theorem news?_eq_none
    (h : t.lastSeen[o.update.user.id]?.map Channel.id = o.update.channel.map Channel.id) :
    news? policy t o = none := by
  unfold news?
  split
  · exact if_pos h
  · rfl

private theorem idle_of_seen (policy : Policy)
    (h : t.lastSeen[o.update.user.id]?.map Channel.id = o.update.channel.map Channel.id) :
    let d := handled policy t o
    d.listings = [] ∧ d.sent = [] ∧ d.tracker.logChannels = t.logChannels := by
  intro d
  obtain ⟨hreports, -⟩ := ends_track policy t o
  rw [news?_eq_none h] at hreports
  have hponders : Ponders o.update.guildId _ d := hreports
  exact ⟨hponders.listings, hponders.sent, hponders.logChannels.trans (logChannels_sighted policy t o)⟩

end Desk

/-- If no log channel is found to write to, no message is sent and no log channel is remembered, but the user
has been seen where they are. Whenever the tracker is told again that they are there, it neither looks for a
log channel nor sends a message, though there be one by then. -/
theorem news_lost_without_log_channel (policy : Policy) (t : Tracker) (o : Occasion) {r : Outcome Unit}
    (hends : (Desk.handle policy t o).1 = .value r) (hstrays : Strays r) :
    let d := Desk.handled policy t o
    d.tracker.logChannels = t.logChannels ∧ d.sent = [] ∧
    t.lastSeen[o.update.user.id]?.map Channel.id ≠ o.update.channel.map Channel.id ∧
    d.tracker.lastSeen = (t.see o.update.user.id o.update.channel).2.lastSeen ∧
    ∀ o' : Occasion, o'.update.user.id = o.update.user.id →
      o'.update.channel.map Channel.id = o.update.channel.map Channel.id →
      let d' := Desk.handled policy d.tracker o'
      d'.listings = [] ∧ d'.sent = [] ∧ d'.tracker.logChannels = t.logChannels := by
  intro d
  obtain ⟨hreports, hastray⟩ := Desk.ends_track policy t o
  obtain ⟨hnews, hnone⟩ := hastray r hends hstrays
  have hgoes := Desk.goesBy_of_news? hnews
  have hmoved : t.lastSeen[o.update.user.id]?.map Channel.id ≠ o.update.channel.map Channel.id := by
    intro hid
    rw [Desk.news?_eq_none hid] at hnews
    cases hnews
  have hlastSeen : d.tracker.lastSeen = (t.see o.update.user.id o.update.channel).2.lastSeen := by
    rw [hreports.lastSeen, Desk.told, Desk.sighted, if_pos hgoes]
  obtain ⟨text, htext⟩ := Option.isSome_iff_exists.1 hnews
  rw [htext] at hreports
  have hwrites : Desk.Writes policy.logChannel o.update.guildId text _ d := hreports
  have hlogs : d.tracker.logChannels = t.logChannels :=
    (hwrites.logChannels_eq hnone).trans (Desk.logChannels_sighted policy t o)
  have hsent : d.sent = [] := by
    rw [hwrites.sent, hnone]
    rfl
  refine ⟨hlogs, hsent, hmoved, hlastSeen, fun o' huser hchannel => ?_⟩
  intro d'
  have hseen : d.tracker.lastSeen[o'.update.user.id]?.map Channel.id = o'.update.channel.map Channel.id := by
    rw [hlastSeen, huser, Desk.lastSeen_see_self, hchannel]
  obtain ⟨hlistings', hsent', hlogs'⟩ := Desk.idle_of_seen policy hseen
  exact ⟨hlistings', hsent', hlogs'.trans hlogs⟩

/-- Bob's way is lost: by the time that the tracker is told of it again the guild has a log channel, but
nothing is written there. -/
theorem news_lost_without_log_channel_bob :
    let t := Tracker.ofDuration (.ofSeconds 5)
    let o := bobListed "7" 0 (some lounge) (some [])
    let o' := bobListed "7" 10 (some lounge) (some [("71", "activity_log")])
    (Desk.handle everyone t o).1 =
      .value (.error ⟨["recording activity", "ensuring log channel exists"],
        .noLogChannel "7" "activity_log"⟩) ∧
    (Desk.handled everyone t o).tracker.lastSeen = (t.see "42" (some lounge)).2.lastSeen ∧
    o'.update = o.update ∧ Desk.goesBy everyone (Desk.handled everyone t o).tracker o' = true ∧
    (Desk.handled everyone (Desk.handled everyone t o).tracker o').sent = [] := by
  intro t o o'
  have hends : (Desk.handle everyone t o).1 =
      .value (.error ⟨["recording activity", "ensuring log channel exists"],
        .noLogChannel "7" "activity_log"⟩) := rfl
  obtain ⟨-, -, -, hlastSeen, hagain⟩ :=
    news_lost_without_log_channel everyone t o hends ⟨.of (.noLogChannel "7" "activity_log"), rfl⟩
  obtain ⟨-, hsent, -⟩ := hagain o' rfl rfl
  exact ⟨hends, hlastSeen, rfl, by decide +kernel, hsent⟩

end GuildBot.Rehearsal
