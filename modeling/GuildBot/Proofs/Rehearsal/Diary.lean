import GuildBot.Proofs.Rehearsal.Desk
import GuildBot.Proofs.Rehearsal.Traffic

/-!
# Users are told of from where they were last tracked

A tracker remembers of each user the channel that they were in when they were last found to be tracked.
What they do while they are not to be tracked is neither told nor remembered.
-/

namespace GuildBot.Rehearsal

open Activity Std

variable {policy : Policy} {t : Tracker} {o : Occasion} {seen : Sightings}

namespace Desk

def page (policy : Policy) (t : Tracker) (o : Occasion) : Page :=
  ⟨o, goesBy policy t o, (handled policy t o).sent, (handled policy t o).listings⟩

/-- A tracker that has handled a change has seen the user where they are, if it tracks them. -/
theorem lastSeen_handled (h : ∀ userId, t.lastSeen[userId]? = seen userId) (o : Occasion)
    (userId : String) :
    (handled policy t o).tracker.lastSeen[userId]? = (page policy t o).mark seen userId := by
  rw [(ends_track policy t o).1.lastSeen]
  unfold told sighted Page.mark page
  cases goesBy policy t o with
  | false => exact h userId
  | true => exact Sightings.lastSeen_see h _ _ userId

private theorem name_refreshed (o : Occasion) (seen : Channel) :
    (refreshed o seen).name = o.nameNow seen := by
  unfold refreshed Occasion.nameNow
  rcases (o.channel seen.id).answer with p | _ | c
  · rfl
  · rfl
  · rfl

private theorem id_refreshed {o : Occasion}
    (h : ∀ id c, (o.channel id).answer = .ok (some c) → c.id = id) (seen : Channel) :
    (refreshed o seen).id = seen.id := by
  unfold refreshed
  split
  · next c hc => exact h seen.id c hc
  · rfl

private theorem news?_eq_wayText {o : Occasion}
    (h : ∀ id c, (o.channel id).answer = .ok (some c) → c.id = id) {previous : Option Channel}
    (hmoved : previous.map Channel.id ≠ o.update.channel.map Channel.id) :
    o.news? previous = some (wayText (o.update.user.displayName o.update.guildId)
      (previous.map o.nameNow) (o.update.channel.map Channel.name)) := by
  have hid : (previous.map (refreshed o)).map Channel.id = previous.map Channel.id := by
    rw [Option.map_map]
    exact congrArg (previous.map ·) (funext (id_refreshed h))
  have hname : (previous.map (refreshed o)).map Channel.name = previous.map o.nameNow := by
    rw [Option.map_map]
    exact congrArg (previous.map ·) (funext (name_refreshed o))
  rw [Occasion.news?, if_neg hmoved, transitionText?_eq (by rwa [hid]), hname]

private theorem exists_logChannel {d d' : Desk} {name guildId text : String}
    (h : Writes name guildId text d d') {channels : List Channel}
    (hlist : (d.occasion.channels guildId).answer = .ok channels)
    (hname : ∃ c ∈ channels, c.name = name) :
    ∃ channelId, d'.tracker.logChannels[guildId]? = some channelId := by
  rw [← Option.isSome_iff_exists, h.found, wanted]
  cases hknown : d.tracker.logChannels[guildId]? with
  | some channelId => simp
  | none =>
    rw [Option.isSome_iff_ne_none, Option.none_or, ne_eq, address?_eq_none_iff]
    intro hnone
    exact hnone ⟨guildId, (d.occasion.channels guildId).answer⟩ (by simp) rfl ⟨channels, hlist, hname⟩

/-- What is sent about a user who is tracked tells of their way from where they were seen. -/
private theorem tellsFrom_page (htracked : goesBy policy t o = true)
    (hhelp : o.IsHelpful policy.logChannel) :
    (page policy t o).TellsFrom t.lastSeen[o.update.user.id]? := by
  obtain ⟨hreports, -⟩ := ends_track policy t o
  rw [news?, if_pos htracked] at hreports
  unfold Page.TellsFrom
  by_cases hid : t.lastSeen[o.update.user.id]?.map Channel.id = o.update.channel.map Channel.id
  · rw [Occasion.news?, if_pos hid] at hreports
    rw [if_pos (show _ = (page policy t o).update.channel.map Channel.id from hid)]
    exact Ponders.sent hreports
  · rw [news?_eq_wayText hhelp.channel_id hid] at hreports
    have hwrites : Writes _ _ _ _ (handled policy t o) := hreports
    obtain ⟨channels, hlist, hname⟩ := hhelp.lists
    obtain ⟨channelId, hchannel⟩ := exists_logChannel hwrites hlist hname
    rw [if_neg (show ¬_ = (page policy t o).update.channel.map Channel.id from hid)]
    refine ⟨channelId, hwrites.sent.trans ?_⟩
    rw [hchannel]
    rfl

end Desk

theorem diary_cons (policy : Policy) (t : Tracker) (o : Occasion) (rest : List Occasion) :
    diary policy t (o :: rest) =
      Desk.page policy t o :: diary policy (Desk.handled policy t o).tracker rest := rfl

private theorem tellsFrom_of_diary (os : List Occasion) {before after : List Page} {p : Page}
    (h : ∀ userId, t.lastSeen[userId]? = seen userId)
    (hdiary : diary policy t os = before ++ p :: after) (htracked : p.tracked = true)
    (hhelp : p.occasion.IsHelpful policy.logChannel) :
    p.TellsFrom (before.foldl Page.mark seen p.update.user.id) := by
  induction os generalizing t seen before with
  | nil => simp [diary] at hdiary
  | cons o rest ih =>
    rw [diary_cons] at hdiary
    cases before with
    | nil =>
      obtain ⟨rfl, -⟩ := List.cons.inj hdiary
      have htells : (Desk.page policy t o).TellsFrom t.lastSeen[o.update.user.id]? :=
        Desk.tellsFrom_page htracked hhelp
      rwa [h] at htells
    | cons q before =>
      obtain ⟨rfl, hrest⟩ := List.cons.inj hdiary
      have htells := ih (Desk.lastSeen_handled h o) hrest
      exact htells

/-- Whenever a user is found to be tracked, what is sent tells of their way from the channel in which they
were when they were last found to be tracked: one message if they have changed places since, else none. -/
theorem way_told_from_last_sighting (policy : Policy) (d : Duration) (os : List Occasion)
    {before after : List Page} {p : Page}
    (hdiary : diary policy (.ofDuration d) os = before ++ p :: after) (htracked : p.tracked = true)
    (hhelp : p.occasion.IsHelpful policy.logChannel) :
    p.TellsFrom (sightings before p.update.user.id) :=
  tellsFrom_of_diary os (fun _ => by simp [Tracker.ofDuration]) hdiary htracked hhelp

theorem Page.TellsFrom.texts {p : Page} {previous : Option Channel} (h : p.TellsFrom previous)
    (hmoved : previous.map Channel.id ≠ p.update.channel.map Channel.id) :
    p.sent.map Prod.snd = [wayText (p.update.user.displayName p.update.guildId)
      (previous.map p.occasion.nameNow) (p.update.channel.map Channel.name)] := by
  unfold TellsFrom at h
  rw [if_neg hmoved] at h
  obtain ⟨channelId, hsent⟩ := h
  rw [hsent]
  rfl

def roleHolders : Policy := ⟨"activity_log", some "Tracked"⟩

/-- Bob is seen in a channel of a guild. He holds the tracking role there or not, and whatever the tracker
asks is answered at once. -/
def bobSeen (guildId : String) (seconds : Int) (roles : ExtTreeSet String) (channel : Option Channel) :
    Occasion where
  update := { guild := some { id := guildId }, user := { id := "42", username := "bob" }, channel }
  time := .ofSeconds seconds
  guild id :=
    ⟨.ok (some { id, roles := (∅ : ExtTreeMap String String).insert "9" "Tracked" }), .ofSeconds seconds⟩
  channel id := ⟨.ok (some { id, name := if id = "1" then "lounge" else "den" }), .ofSeconds seconds⟩
  user id guildId :=
    ⟨.ok (some { id, memberships := (∅ : ExtTreeMap String Member).insert guildId { roles } }),
      .ofSeconds seconds⟩
  channels guildId := ⟨.ok [{ id := guildId ++ "00", name := "activity_log" }], .ofSeconds seconds⟩
  send _ _ := ⟨.ok (), .ofSeconds seconds⟩

private theorem isHelpful_bobSeen (guildId : String) (seconds : Int) (roles : ExtTreeSet String)
    (channel : Option Channel) : (bobSeen guildId seconds roles channel).IsHelpful "activity_log" := by
  refine ⟨fun id c hc => ?_, _, rfl, _, List.mem_singleton_self _, rfl⟩
  simp only [bobSeen, Except.ok.injEq, Option.some.injEq] at hc
  rw [← hc]

def lounge : Channel := { id := "1", name := "lounge" }

def den : Channel := { id := "2", name := "den" }

def wavering : List Occasion :=
  [bobSeen "7" 0 ((∅ : ExtTreeSet String).insert "9") (some lounge),
    bobSeen "7" 10 ∅ (some den),
    bobSeen "7" 20 ((∅ : ExtTreeSet String).insert "9") none]

theorem way_told_from_last_sighting_wavering :
    ∃ before p after, diary roleHolders (.ofDuration (.ofSeconds 5)) wavering = before ++ p :: after ∧
      p.tracked = true ∧ p.TellsFrom (sightings before p.update.user.id) ∧
      p.sent = [("700", "bob left lounge")] :=
  ⟨[_, _], _, [], rfl, by decide +kernel,
    way_told_from_last_sighting roleHolders (.ofSeconds 5) wavering rfl
      (by decide +kernel) (isHelpful_bobSeen _ _ _ _), by decide +kernel⟩

/-- Bob left the den, but what is told is that he left the lounge: the change before was ignored. -/
theorem way_not_told_from_last_change :
    (∀ o ∈ wavering, o.update.guildId = "7" ∧ o.IsHelpful "activity_log") ∧
    ∃ before p after, diary roleHolders (.ofDuration (.ofSeconds 5)) wavering = before ++ p :: after ∧
      p.tracked = true ∧ ¬p.TellsFrom (places before p.update.user.id) := by
  refine ⟨?_, [_, _], _, [], rfl, by decide +kernel, ?_⟩
  · intro o ho
    simp only [wavering, List.mem_cons, List.not_mem_nil, or_false] at ho
    rcases ho with rfl | rfl | rfl
    · exact ⟨rfl, isHelpful_bobSeen _ _ _ _⟩
    · exact ⟨rfl, isHelpful_bobSeen _ _ _ _⟩
    · exact ⟨rfl, isHelpful_bobSeen _ _ _ _⟩
  · intro htells
    exact absurd (htells.texts (by decide +kernel)) (by decide +kernel)

end GuildBot.Rehearsal
