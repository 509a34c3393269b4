import GuildBot.Proofs.Bot.Identity
import GuildBot.Proofs.Rehearsal.Step

/-!
# Comings and goings are told once

A tracker remembers where each user was last announced to be, whatever lookups fail, and tells of a
user exactly when they are announced to be elsewhere.
-/

namespace GuildBot

open Platform Std Directory Activity

theorem Platform.IsLogChannel.mono {p : Behaviour} {name guildId channelId : String}
    {ds ds' : List Deed} (h : IsLogChannel p name guildId channelId ds) (hds : ds <+: ds') :
    IsLogChannel p name guildId channelId ds' := by
  obtain ⟨before, hb, hc⟩ := h
  exact ⟨before, hb.trans hds, hc⟩

namespace Rehearsal

theorem Sightings.lastSeen_see {seen : Sightings} {t : Tracker}
    (h : ∀ userId, t.lastSeen[userId]? = seen userId) (userId : String) (channel : Option Channel)
    (other : String) :
    (t.see userId channel).2.lastSeen[other]? = seen.see userId channel other := by
  unfold Tracker.see Sightings.see
  by_cases hother : other = userId
  · subst hother
    cases channel <;> simp
  · have hne : compare userId other ≠ .eq := fun h => hother (LawfulEqOrd.eq_of_compare h).symm
    cases channel with
    | none => simp [ExtTreeMap.getElem?_erase, hne, hother, h other]
    | some c => simp [ExtTreeMap.getElem?_insert, hne, hother, h other]

/-- A bot that follows traffic with a tracker: the tracker has seen the users where they are, and
knows log channels only. -/
structure Tracking (settings : Settings) (p : Behaviour) (id : String) (clock : Clock)
    (seen : Sightings) (b : Bot) : Prop where
  settings_eq : b.settings = settings
  platform_eq : b.platform = p
  sound : b.Sound
  registry : ∃ tracker : Tracker, b.registry = [⟨id, .activity, clock, tracker⟩] ∧
    (∀ userId, tracker.lastSeen[userId]? = seen userId) ∧
    ∀ guildId channelId : String, tracker.logChannels[guildId]? = some channelId →
      IsLogChannel p settings.logChannel guildId channelId b.deeds
  places : ∀ userId c, seen userId = some c → c.id ≠ ""

theorem transitionText?_eq {name : String} {previous next : Option Channel}
    (h : previous.map Channel.id ≠ next.map Channel.id) :
    transitionText? name previous next =
      some (wayText name (previous.map Channel.name) (next.map Channel.name)) := by
  cases previous with
  | none =>
    cases next with
    | none => exact absurd rfl h
    | some next => rfl
  | some previous =>
    cases next with
    | none => rfl
    | some next =>
      have hid : previous.id ≠ next.id := fun hid => h (congrArg some hid)
      simp only [transitionText?, hid, if_false]
      rfl

private theorem nameNow_eq (b : Bot) (seen : Channel) :
    Session.nameNow b seen = match (Flow.eval Bot.respond (channel seen.id) b).1 with
      | some (.ok (some c)) => c.name
      | _ => seen.name := by
  have hlook : (Query.channel seen.id).look =
    (channel seen.id).bind fun found => .done (.channel found) := rfl
  unfold Session.nameNow
  rw [(Session.stepBot_look b (.channel seen.id)).1, hlook, Flow.eval_bind_done]
  rcases (Flow.eval Bot.respond (channel seen.id) b).1 with _ | p | _ | c
  · rfl
  · rfl
  · rfl
  · rfl

private theorem ends_refresh {b : Bot} (h : b.Ready) {seen : Channel} (hid : seen.id ≠ "") :
    Flow.Ends Bot.respond (fun _ => False) (refresh Directory.tools seen) b fun c b' =>
      b'.Ready ∧ b.LooksUp b' ∧ c.id = seen.id ∧ c.name = Session.nameNow b seen := by
  obtain ⟨found, b', heval, hready, hlooks, hrecord⟩ := (h.ends_channel seen.id).eval_eq
  rw [Option.filter_some, if_pos (by simpa using hid)] at hrecord
  have hname := nameNow_eq b seen
  rw [heval] at hname
  apply Flow.Ends.bind_of_eval heval
  rcases found with p | _ | c
  · exact .done ⟨hready, hlooks, rfl, hname.symm⟩
  · cases hrecord
  · exact .done ⟨hready, hlooks, Option.some.inj hrecord, hname.symm⟩

/-- Whether one bot comes from another by asking and then sending a text to a guild's log channel. -/
def Tells (p : Behaviour) (name guildId text : String) (b b' : Bot) : Prop :=
  ∃ b₁ channelId, b.Asks b₁ ∧ b'.deeds = b₁.deeds ++ [.call (.sendMessage channelId text)] ∧
    IsLogChannel p name guildId channelId b'.deeds

private theorem Tells.of_asks {p : Behaviour} {name guildId text : String} {b b' b'' : Bot}
    (h : Tells p name guildId text b' b'') (ha : b.Asks b') : Tells p name guildId text b b'' := by
  obtain ⟨b₁, channelId, ha', hd, hl⟩ := h
  exact ⟨b₁, channelId, ha.trans ha', hd, hl⟩

namespace Tracking

variable {settings : Settings} {p : Behaviour} {id : String} {clock : Clock} {seen : Sightings}
  {b b' : Bot}

private theorem of_deeds (h : Tracking settings p id clock seen b) (hk : b.Kept b')
    (hd : b.deeds <+: b'.deeds) (hs : b'.Sound) : Tracking settings p id clock seen b' := by
  obtain ⟨tracker, hreg, hseen, hlogs⟩ := h.registry
  exact ⟨hk.settings.trans h.settings_eq, hk.platform.trans h.platform_eq, hs,
    ⟨tracker, hk.registry.trans hreg, hseen, fun g c hc => (hlogs g c hc).mono hd⟩, h.places⟩

theorem of_kept (h : Tracking settings p id clock seen b) (hk : b.Kept b') (ha : b.Asks b')
    (hs : b'.Sound) : Tracking settings p id clock seen b' :=
  h.of_deeds hk ha.prefix_deeds hs

theorem writeAll (h : Tracking settings p id clock seen b) (lines : List Log.Line) :
    Tracking settings p id clock seen (b.writeAll lines) :=
  h.of_kept (.writeAll b lines) (.of_deeds_eq rfl) (h.sound.writeAll lines)

theorem ready (h : Tracking settings p id clock seen b) (hp : Dependable p settings.logChannel)
    (hr : (b.now.add? b.lifetime).isSome = true) : b.Ready := by
  refine ⟨h.sound, ?_, ?_, hr⟩
  · rw [h.platform_eq]
    exact hp.toTruthful
  · rw [h.platform_eq]
    exact hp.answers

theorem remember (h : Tracking settings p id clock seen b) {guildId channelId : String}
    (hc : IsLogChannel p settings.logChannel guildId channelId b.deeds) :
    let place := Bot.trackerPlace id clock
    let t := place.view b
    Tracking settings p id clock seen
      (place.put { t with logChannels := t.logChannels.insert guildId channelId } b) := by
  obtain ⟨tracker, hreg, hseen, hlogs⟩ := h.registry
  have hview := Bot.view_trackerPlace clock hreg
  have hput := Bot.put_trackerPlace clock hreg
  dsimp only at hview hput ⊢
  rw [hview, hput]
  refine ⟨h.settings_eq, h.platform_eq, h.sound.same rfl rfl rfl rfl, ⟨_, rfl, hseen, ?_⟩,
    h.places⟩
  intro g c hg
  rw [ExtTreeMap.getElem?_insert] at hg
  by_cases hk : guildId = g
  · subst hk
    rw [if_pos (by simp)] at hg
    cases hg
    exact hc
  · rw [if_neg (by simpa using hk)] at hg
    exact hlogs g c hg

theorem see (h : Tracking settings p id clock seen b) (userId : String) {channel : Option Channel}
    (hc : ∀ c, channel = some c → c.id ≠ "") :
    let place := Bot.trackerPlace id clock
    let r := (place.view b).see userId channel
    r.1 = seen userId ∧ ∃ registry, place.put r.2 b = { b with registry } ∧
      Tracking settings p id clock (seen.see userId channel) (place.put r.2 b) := by
  obtain ⟨tracker, hreg, hseen, hlogs⟩ := h.registry
  have hview := Bot.view_trackerPlace clock hreg
  have hput := Bot.put_trackerPlace clock hreg
  dsimp only at hview hput ⊢
  rw [hview, hput]
  refine ⟨hseen userId, _, rfl, h.settings_eq, h.platform_eq, h.sound.same rfl rfl rfl rfl,
    ⟨_, rfl, ?_, hlogs⟩, ?_⟩
  · exact Sightings.lastSeen_see hseen userId channel
  · intro u c hu
    unfold Sightings.see at hu
    split at hu
    · exact hc c hu
    · exact h.places u c hu

section

variable (h : Tracking settings p id clock seen b) (hp : Dependable p settings.logChannel)

include h hp

theorem ends_logChannelId {guildId : String} (hg : guildId ≠ "") :
    Flow.Ends Bot.respond (fun _ => False) (logChannelId Directory.tools (Audience.policy settings)
      (Bot.trackerPlace id clock) guildId) b fun r b' =>
        Tracking settings p id clock seen b' ∧ b.Asks b' ∧ ∃ channelId, r = .ok channelId ∧
          IsLogChannel p settings.logChannel guildId channelId b'.deeds := by
  obtain ⟨tracker, hreg, hseen, hlogs⟩ := h.registry
  have hview := Bot.view_trackerPlace clock hreg
  unfold logChannelId
  refine Flow.Ends.bind (Q := fun known b' => known = tracker.logChannels[guildId]? ∧ b = b')
    (.of_eval rfl ⟨congrArg (fun t : Tracker => t.logChannels[guildId]?) hview, rfl⟩) ?_
  rintro _ _ ⟨rfl, rfl⟩
  cases hl : tracker.logChannels[guildId]? with
  | some channelId =>
    exact .done ⟨h, .of_deeds_eq rfl, channelId, rfl, hlogs guildId channelId hl⟩
  | none =>
    obtain ⟨hsent, list, hlist, c, hc, hname⟩ := hp.lists b.deeds guildId
    have hanswer : b.answer (.fetchGuildChannels guildId) = some (.ok list) := by
      rw [Bot.answer, h.platform_eq]
      exact hlist
    have hdeeds : (b.asked (.fetchGuildChannels guildId)).deeds =
        b.deeds ++ [.call (.fetchGuildChannels guildId)] := by
      rw [Bot.asked, h.platform_eq, if_pos hsent]
    obtain ⟨found, hfound⟩ : ∃ found, list.find? (fun c => c.name = settings.logChannel) = some found :=
      Option.isSome_iff_exists.1 (List.find?_isSome.2 ⟨c, hc, by simpa using hname⟩)
    have hasked := h.of_kept (.asked b (.fetchGuildChannels guildId)) (.asked b trivial)
      (h.sound.asked _)
    have hlisted : Flow.eval Bot.respond (channels guildId) b =
        (some (.ok list), b.asked (.fetchGuildChannels guildId)) := by
      rw [eval_channels b hg, hanswer]
      rfl
    apply Flow.Ends.bind_of_eval hlisted
    obtain ⟨lines, hfind⟩ := eval_findLogChannel (b.asked (.fetchGuildChannels guildId))
      settings.logChannel guildId list
    rw [hfound] at hfind
    apply Flow.Ends.bind_of_eval hfind
    have hlog : IsLogChannel p settings.logChannel guildId found.id
        ((b.asked (.fetchGuildChannels guildId)).writeAll lines).deeds :=
      ⟨b.deeds, ⟨[], (List.append_nil _).trans hdeeds.symm⟩, list, hlist, by rw [hfound]; rfl⟩
    have hasks : b.Asks (b.asked (.fetchGuildChannels guildId)) := .asked b trivial
    exact .of_eval rfl ⟨(hasked.writeAll lines).remember hlog, hasks, found.id, rfl, hlog⟩

theorem ends_writeLine {guildId : String} (hg : guildId ≠ "") (text : String) :
    let told (b' : Bot) : Prop := Tracking settings p id clock seen b' ∧
      Tells p settings.logChannel guildId text b b'
    Flow.Ends Bot.respond told (writeLine Directory.tools (Audience.policy settings)
      (Bot.trackerPlace id clock) guildId text) b fun _ => told := by
  intro told
  let noted := b.writeAll [⟨.info, s!"Recording activity: {text}"⟩]
  apply Flow.Ends.bind_of_eval (Action.eval_note _ _ _)
  apply (((h.writeAll _).ends_logChannelId hp hg).mono (fun _ h => h.elim)
    fun _ _ h => h).bind
  rintro _ b₁ ⟨h₁, hasks, channelId, rfl, hlog⟩
  have hsend : (b₁.asked (.sendMessage channelId text)).deeds =
      b₁.deeds ++ [.call (.sendMessage channelId text)] := by
    rw [Bot.asked, h₁.platform_eq, if_pos (hp.sends _ _ _)]
  have hprefix : b₁.deeds <+: (b₁.asked (.sendMessage channelId text)).deeds := ⟨_, hsend.symm⟩
  have htold : told (b₁.asked (.sendMessage channelId text)) := by
    refine ⟨h₁.of_deeds (.asked b₁ _) hprefix (h₁.sound.asked _), b₁, channelId, ?_, hsend,
      hlog.mono hprefix⟩
    exact Bot.Asks.trans (.of_deeds_eq rfl) hasks
  have hcall : (Flow.eval Bot.respond (Directory.tools.send channelId text) b₁).2 =
    b₁.asked (.sendMessage channelId text) := congrArg Prod.snd (Action.eval_call _ b₁)
  refine Flow.Ends.bind (Q := fun _ => told) (.of_state ?_) fun r b₂ h₂ => .done h₂
  rw [hcall]
  exact htold

theorem ends_recount {update : VoiceUpdate} (hg : update.guildId ≠ "") {previous : Option Channel}
    (hid : previous.map Channel.id ≠ update.channel.map Channel.id) :
    let told (b' : Bot) : Prop := Tracking settings p id clock seen b' ∧
      Tells p settings.logChannel update.guildId
        (wayText (update.user.displayName update.guildId) (previous.map Channel.name)
          (update.channel.map Channel.name)) b b'
    Flow.Ends Bot.respond told (recount Directory.tools
      (Audience.policy settings) (Bot.trackerPlace id clock) update previous) b
      fun _ => told := by
  intro told
  unfold recount
  rw [transitionText?_eq hid]
  exact (h.ends_writeLine hp hg _).bind fun _ _ h' => .done h'

private theorem ends_follow (hready : b.Ready) {update : VoiceUpdate} (hg : update.guildId ≠ "")
    {previous : Option Channel} (hplace : ∀ c, previous = some c → c.id ≠ "")
    (hid : previous.map Channel.id ≠ update.channel.map Channel.id) :
    let told (b' : Bot) : Prop := Tracking settings p id clock seen b' ∧
      Tells p settings.logChannel update.guildId
        (wayText (update.user.displayName update.guildId) (previous.map (Session.nameNow b))
          (update.channel.map Channel.name)) b b'
    Flow.Ends Bot.respond told (follow Directory.tools (Audience.policy settings)
      (Bot.trackerPlace id clock) update previous) b fun _ => told := by
  intro told
  unfold follow
  rw [if_neg hid]
  cases previous with
  | none => exact h.ends_recount hp hg hid
  | some c =>
    apply ((ends_refresh hready (hplace c rfl)).mono (fun _ h => h.elim) fun _ _ h => h).bind
    rintro c' b₁ ⟨hready₁, hlooks, hsame, hname⟩
    have hid' : (some c').map Channel.id ≠ update.channel.map Channel.id := by
      rw [Option.map_some, hsame]
      exact hid
    have hlater (b' : Bot) (h' : Tracking settings p id clock seen b' ∧
        Tells p settings.logChannel update.guildId
          (wayText (update.user.displayName update.guildId) ((some c').map Channel.name)
            (update.channel.map Channel.name)) b₁ b') : told b' := by
      rw [Option.map_some, hname] at h'
      exact ⟨h'.1, h'.2.of_asks hlooks.asks⟩
    exact ((h.of_kept hlooks.toKept hlooks.asks hready₁.sound).ends_recount hp hg hid').mono
      hlater fun _ => hlater

/-- The tracker tells of a user who has got to another channel, and only of such a one. -/
theorem ends_track (hrange : (b.now.add? b.lifetime).isSome = true)
    (hrole : settings.trackingRole = none) {update : VoiceUpdate} (hg : update.guildId ≠ "")
    (hc : ∀ c, update.channel = some c → c.id ≠ "") :
    let previous := seen update.user.id
    let tracked (b' : Bot) : Prop :=
      Tracking settings p id clock (seen.see update.user.id update.channel) b' ∧
        (previous.map Channel.id = update.channel.map Channel.id → b'.deeds = b.deeds) ∧
        (previous.map Channel.id ≠ update.channel.map Channel.id →
          Tells p settings.logChannel update.guildId
            (wayText (update.user.displayName update.guildId)
              (previous.map (Session.nameNow b)) (update.channel.map Channel.name)) b b')
    Flow.Ends Bot.respond tracked (track Directory.tools (Audience.policy settings)
      (Bot.trackerPlace id clock) update) b fun _ => tracked := by
  intro previous tracked
  obtain ⟨hprevious, registry, hput, hsee⟩ := h.see update.user.id hc
  have htracked : isTracked Directory.tools (Audience.policy settings) (Bot.trackerPlace id clock)
      update.guildId update.user.id = .done true := by
    simp only [isTracked, Audience.policy, hrole]
    rfl
  rw [track_eq, htracked]
  refine Flow.Ends.bind (Q := fun found b' => found = previous ∧ b' = { b with registry })
    (.of_eval rfl ⟨hprevious, hput⟩) ?_
  rintro _ _ ⟨rfl, rfl⟩
  rw [hput] at hsee
  have hready : ({ b with registry } : Bot).Ready := hsee.ready hp hrange
  by_cases hsame : previous.map Channel.id = update.channel.map Channel.id
  · unfold follow
    rw [if_pos hsame]
    exact .done ⟨hsee, fun _ => rfl, fun h => absurd hsame h⟩
  · have hname : previous.map (Session.nameNow { b with registry }) =
        previous.map (Session.nameNow b) := by
      congr 1
      funext c
      rw [nameNow_eq, nameNow_eq, eval_channel_registry]
    have hfollow := hsee.ends_follow hp hready hg (fun c hc => h.places _ c hc) hsame
    rw [hname] at hfollow
    have htold (b' : Bot) (h' : Tracking settings p id clock (seen.see update.user.id update.channel) b' ∧
        Tells p settings.logChannel update.guildId
          (wayText (update.user.displayName update.guildId) (previous.map (Session.nameNow b))
            (update.channel.map Channel.name)) { b with registry } b') : tracked b' :=
      ⟨h'.1, fun h => absurd h hsame, fun _ => h'.2.of_asks (.of_deeds_eq rfl)⟩
    exact hfollow.mono htold fun _ => htold

end

theorem quiet (h : Tracking settings p id clock seen b) (hp : Truthful p) {s : Step}
    (hs : s.IsTraffic) (hv : ∀ raw, s ≠ .process (.voice raw)) :
    Tracking settings p id clock seen (Session.stepBot b s).2.2 := by
  have hpb : Truthful b.platform := by rw [h.platform_eq]; exact hp
  have hpushed {b' : Bot} (hk : b.Kept b' ∧ b'.deeds = b.deeds) (hs : b'.Sound) :
      Tracking settings p id clock seen b' := h.of_kept hk.1 (.of_deeds_eq hk.2) hs
  have hclock (t : Instant) : Tracking settings p id clock seen { b with handClock := t } :=
    ⟨h.settings_eq, h.platform_eq, h.sound.same rfl rfl rfl rfl, h.registry, h.places⟩
  cases s with
  | look q =>
    rw [(Session.stepBot_look b q).2, Session.eval_look_snd]
    have hlooks {b' : Bot} (hl : b.LooksUp b') (hs : b'.Sound) :
        Tracking settings p id clock seen b' := h.of_kept hl.toKept hl.asks hs
    cases q with
    | guild id => exact hlooks (looksUp_guild id b) (sound_guild hpb h.sound id)
    | channel id => exact hlooks (looksUp_channel id b) (sound_channel hpb h.sound id)
    | user id guildId => exact hlooks (looksUp_user id guildId b) (sound_user hpb h.sound id guildId)
    | channels guildId =>
      dsimp only
      split
      · exact h
      · exact hlooks (.asked b trivial) (h.sound.asked _)
  | pushMember update =>
    rw [(Session.stepBot_pushMember b update).2]
    exact hpushed (kept_absorbMember b update) (sound_absorbMember h.sound update)
  | pushChannel update =>
    rw [(Session.stepBot_pushChannel b update).2]
    exact hpushed (kept_absorbChannel b update) (sound_absorbChannel h.sound update)
  | process raw =>
    cases raw with
    | message raw => exact hs.elim
    | voice raw => exact absurd rfl (hv raw)
    | member update =>
      rw [Session.stepBot_member]
      exact hpushed (kept_absorbMember b update) (sound_absorbMember h.sound update)
    | channel update =>
      rw [Session.stepBot_channel]
      exact hpushed (kept_absorbChannel b update) (sound_absorbChannel h.sound update)
  | advance d =>
    obtain ⟨t, ht⟩ := Session.stepBot_advance b d
    rw [ht]
    exact hclock t
  | setClock t => exact hclock t
  | _ => exact hs.elim

section

variable (h : Tracking settings p id clock seen b) (hp : Dependable p settings.logChannel)
  (hrange : (b.now.add? b.lifetime).isSome = true) {raw : RawVoice} (hg : raw.guildId ≠ "")

include h hp hrange hg

private theorem resolves :
    ∃ update b₁, Session.resolved? b raw = some update ∧
      Flow.eval Bot.respond (Bot.resolveVoice raw) b = (some update, b₁) ∧
      b₁.Ready ∧ b.LooksUp b₁ ∧ update.guildId = raw.guildId ∧
      update.channel.map Channel.id = raw.place? ∧ update.user.id = raw.userId := by
  have hends := Bot.ends_resolveVoice (I := fun b' => b'.Ready ∧ b.LooksUp b')
    (P := fun _ => False) raw (G := fun g => g.map Guild.id = some raw.guildId)
    (C := fun c => c.map Channel.id = raw.place?)
    (U := fun u => (u.getD { id := raw.userId }).id = raw.userId)
    (fun b' lines hl ⟨hready, hlooks⟩ => ⟨hready.writeAll lines, hlooks.trans (.writeAll b' hl)⟩)
    (fun b' ⟨hready, hlooks⟩ => (hready.ends_guild hg).mono (fun _ h => h)
      fun _ _ ⟨hready', hlooks', hid⟩ => ⟨⟨hready', hlooks.trans hlooks'⟩, hid⟩)
    (fun channelId hc b' ⟨hready, hlooks⟩ => (hready.ends_channel channelId).mono (fun _ h => h)
      fun _ _ ⟨hready', hlooks', hid⟩ => ⟨⟨hready', hlooks.trans hlooks'⟩, by
        rw [hid, RawVoice.place?, hc]⟩)
    (fun hc => by rw [RawVoice.place?, hc]; rfl)
    (fun b' ⟨hready, hlooks⟩ => (hready.ends_user raw.userId raw.guildId).mono (fun _ h => h)
      fun _ _ ⟨hready', hlooks', hid⟩ => ⟨⟨hready', hlooks.trans hlooks'⟩, hid⟩)
    ⟨h.ready hp hrange, .refl b⟩
  obtain ⟨update, b₁, heval, ⟨hready, hlooks⟩, hguild, hchannel, user, huser, hupdate⟩ :=
    hends.eval_eq
  refine ⟨update, b₁, ?_, heval, hready, hlooks, ?_, hchannel, ?_⟩
  · rw [Session.resolved?_eq, heval]
  · rw [VoiceUpdate.guildId, hguild]
    rfl
  · rw [hupdate]
    exact huser

theorem voice (hrole : settings.trackingRole = none) :
    let b₁ := (Session.stepBot b (.resolveVoice raw)).2.2
    let b' := (Session.stepBot b (.process (.voice raw))).2.2
    let previous := seen raw.userId
    ∃ update, Session.resolved? b raw = some update ∧ update.guildId = raw.guildId ∧
      update.channel.map Channel.id = raw.place? ∧ update.user.id = raw.userId ∧
      Tracking settings p id clock (seen.step b (.process (.voice raw))) b' ∧
      (previous.map Channel.id = raw.place? → b.Asks b') ∧
      (previous.map Channel.id ≠ raw.place? →
        Tells p settings.logChannel raw.guildId
          (wayText (update.user.displayName raw.guildId) (previous.map (Session.nameNow b₁))
            (update.channel.map Channel.name)) b b') := by
  obtain ⟨update, b₁, hresolved, heval, hready, hlooks, hguild, hchannel, huser⟩ :=
    h.resolves hp hrange hg
  obtain ⟨tracker, hreg, -⟩ := h.registry
  obtain ⟨lines, -, hstep⟩ := Session.stepBot_voice hreg rfl raw
  rw [heval, h.settings_eq] at hstep
  dsimp only at hstep
  have h₁ := h.of_kept hlooks.toKept hlooks.asks hready.sound
  have hupdate : update.guildId ≠ "" := by rw [hguild]; exact hg
  have hplace : ∀ c, update.channel = some c → c.id ≠ "" := by
    intro c hc
    rw [hc, RawVoice.place?] at hchannel
    have hid := (Option.filter_eq_some_iff.1 hchannel.symm).2
    simpa using hid
  have htrack := (h₁.ends_track hp hready.range hrole hupdate hplace).state
  dsimp only
  rw [hstep, (Session.stepBot_resolveVoice b raw).2, heval]
  rw [huser, hchannel, hguild] at htrack
  obtain ⟨htracking, hsame, hother⟩ := htrack
  have hseen : seen.step b (.process (.voice raw)) = seen.see raw.userId update.channel := by
    rw [Sightings.step, hresolved]
    rfl
  refine ⟨update, hresolved, hguild, hchannel, huser, ?_, ?_, ?_⟩
  · rw [hseen]
    exact htracking.writeAll lines
  · intro he
    exact hlooks.asks.trans (.of_deeds_eq (hsame he))
  · intro hne
    exact Tells.of_asks (hother hne) hlooks.asks

end

theorem start (settings : Settings) (p : Behaviour) (clock : Clock) (handClock wallClock : Instant)
    (id : String) (trackerClock : Clock) :
    Tracking settings p id trackerClock (fun _ => none)
      (trackingBot settings p clock handClock wallClock id trackerClock) :=
  ⟨rfl, rfl, (Bot.Sound.ofSettings settings p clock handClock wallClock).same rfl rfl rfl rfl,
    ⟨.ofDuration (.ofSeconds settings.optInTtl), rfl, fun _ => rfl, fun _ _ h => nomatch h⟩,
    fun _ _ h => nomatch h⟩

/-- A step of the traffic keeps the tracker informed of where users were announced to be. -/
theorem step (h : Tracking settings p id clock seen b) (hp : Dependable p settings.logChannel)
    (hrole : settings.trackingRole = none) {s : Step} (hs : s.IsTraffic)
    (hg : ∀ raw, s = .process (.voice raw) → raw.guildId ≠ "")
    (hrange : (∃ raw, s = .process (.voice raw)) → (b.now.add? b.lifetime).isSome = true) :
    Tracking settings p id clock (seen.step b s) (Session.stepBot b s).2.2 ∧
      ∀ userId, (seen.step b s userId).map Channel.id =
        nextPlace? userId ((seen userId).map Channel.id) s := by
  by_cases hv : ∃ raw, s = .process (.voice raw)
  · obtain ⟨raw, rfl⟩ := hv
    obtain ⟨update, hresolved, -, hchannel, -, htracking, -⟩ :=
      h.voice hp (hrange ⟨raw, rfl⟩) (hg raw rfl) hrole
    refine ⟨htracking, ?_⟩
    intro userId
    rw [Sightings.step, hresolved, Sightings.see, nextPlace?]
    split
    · exact hchannel
    · rfl
  · have hquiet := h.quiet hp.toTruthful hs fun raw hraw => hv ⟨raw, hraw⟩
    have hseen : seen.step b s = seen := by
      unfold Sightings.step
      split
      · exact absurd ⟨_, rfl⟩ hv
      · rfl
    rw [hseen]
    refine ⟨hquiet, ?_⟩
    intro userId
    unfold nextPlace?
    split
    · exact absurd ⟨_, rfl⟩ hv
    · rfl

theorem after (h : Tracking settings p id clock seen b) (hp : Dependable p settings.logChannel)
    (hrole : settings.trackingRole = none) {steps : List Step} (hs : ∀ s ∈ steps, s.IsTraffic)
    (hg : ∀ raw, .process (.voice raw) ∈ steps → raw.guildId ≠ "")
    (hrange : Session.StaysInRange b steps) :
    Tracking settings p id clock (seen.after b steps) (Session.botAfter b steps) ∧
      ∀ userId, (seen.after b steps userId).map Channel.id =
        steps.foldl (nextPlace? userId) ((seen userId).map Channel.id) := by
  induction steps generalizing b seen with
  | nil => exact ⟨h, fun _ => rfl⟩
  | cons s rest ih =>
    obtain ⟨hstep, hplace⟩ := h.step hp hrole (hs s List.mem_cons_self)
      (fun raw hraw => hg raw (hraw ▸ List.mem_cons_self)) hrange.1
    obtain ⟨hrest, hplaces⟩ := ih hstep (fun s hs' => hs s (List.mem_cons_of_mem _ hs'))
      (fun raw hraw => hg raw (List.mem_cons_of_mem _ hraw)) hrange.2
    refine ⟨hrest, ?_⟩
    intro userId
    rw [List.foldl_cons, ← hplace]
    exact hplaces userId

end Tracking

private theorem staysInRange_append {b : Bot} {steps rest : List Step}
    (h : Session.StaysInRange b (steps ++ rest)) :
    Session.StaysInRange b steps ∧ Session.StaysInRange (Session.botAfter b steps) rest := by
  induction steps generalizing b with
  | nil => exact ⟨trivial, h⟩
  | cons s steps ih =>
    obtain ⟨hsteps, hrest⟩ := ih h.2
    exact ⟨⟨h.1, hsteps⟩, hrest⟩

private theorem Tells.messagesSince_eq {p : Behaviour} {name guildId text : String} {b b' : Bot}
    (h : Tells p name guildId text b b') :
    ∃ channelId, IsLogChannel p name guildId channelId b'.deeds ∧
      b.messagesSince b' = [(channelId, text)] := by
  obtain ⟨b₁, channelId, ⟨calls, hc, hd⟩, hd', hl⟩ := h
  refine ⟨channelId, hl, ?_⟩
  rw [Bot.messagesSince, hd', hd, List.append_assoc, List.drop_left, List.filterMap_append,
    Bot.messages_of_calls hc]
  rfl

/-- Whatever lookups fail, a change in voice to where its user was last announced to be is not told,
and one to elsewhere is told by exactly one message to the guild's log channel. -/
theorem transitions_told_once (settings : Settings) (p : Behaviour) (clock : Clock)
    (handClock wallClock : Instant) (id : String) (trackerClock : Clock)
    (hrole : settings.trackingRole = none) (hp : Dependable p settings.logChannel)
    (steps : List Step) (hsteps : ∀ s ∈ steps, s.IsTraffic)
    (hguild : ∀ raw, .process (.voice raw) ∈ steps → raw.guildId ≠ "") (raw : RawVoice)
    (hraw : raw.guildId ≠ "")
    (hrange : Session.StaysInRange
      (trackingBot settings p clock handClock wallClock id trackerClock)
      (steps ++ [.process (.voice raw)])) :
    let b₀ := trackingBot settings p clock handClock wallClock id trackerClock
    let b := Session.botAfter b₀ steps
    let b' := (Session.stepBot b (.process (.voice raw))).2.2
    let previous := Sightings.after (fun _ => none) b₀ steps raw.userId
    previous.map Channel.id = lastPlace? raw.userId steps ∧
    ∃ update, Session.resolved? b raw = some update ∧ update.guildId = raw.guildId ∧
      update.channel.map Channel.id = raw.place? ∧ update.user.id = raw.userId ∧
      (lastPlace? raw.userId steps = raw.place? → b.messagesSince b' = []) ∧
      (lastPlace? raw.userId steps ≠ raw.place? → ∃ channelId,
        IsLogChannel p settings.logChannel raw.guildId channelId b'.deeds ∧
        b.messagesSince b' = [(channelId, wayText (update.user.displayName raw.guildId)
          (previous.map (Session.nameNow (Session.stepBot b (.resolveVoice raw)).2.2))
          (update.channel.map Channel.name))]) := by
  intro b₀ b b' previous
  obtain ⟨hbefore, hnow, -⟩ := staysInRange_append hrange
  obtain ⟨htracking, hplaces⟩ :=
    (Tracking.start settings p clock handClock wallClock id trackerClock).after hp hrole hsteps
      hguild hbefore
  have hplace : previous.map Channel.id = lastPlace? raw.userId steps := hplaces raw.userId
  obtain ⟨update, hresolved, hid, hchannel, huser, -, hsame, hother⟩ :=
    htracking.voice hp (hnow ⟨raw, rfl⟩) hraw hrole
  refine ⟨hplace, update, hresolved, hid, hchannel, huser, ?_, ?_⟩
  · intro he
    exact Bot.messagesSince_of_asks (hsame (hplace.trans he))
  · intro hne
    exact (hother fun he => hne (hplace.symm.trans he)).messagesSince_eq

/-- A platform that knows one channel and no membership, and lists a log channel for every guild. -/
def roughPlatform : Behaviour := fun _ c => { result := some (answer c) }
where
  answer : (c : Call) → Outcome c.Payload
    | .fetchGuild id => .ok { id }
    | .fetchChannel id =>
      if id = "1" then .ok { id, name := "lounge" } else .error (.of (.other "no such channel"))
    | .fetchUser id => .ok { id, username := "bob" }
    | .fetchMember _ _ => .error (.of (.other "no such member"))
    | .fetchGuildChannels _ => .ok [{ id := "100", name := "activity_log" }]
    | .sendMessage _ _ => .error (.of (.other "no permission"))
    | .addReaction _ _ _ => .ok ()

theorem dependable_roughPlatform : Dependable roughPlatform "activity_log" where
  guild_id := by rintro _ _ _ ⟨⟩; rfl
  channel_id ds id c h := by
    simp only [roughPlatform, roughPlatform.answer, Option.some.injEq] at h
    split at h
    · cases h
      rfl
    · cases h
  user_id := by rintro _ _ _ ⟨⟩; rfl
  answers _ _ _ := rfl
  lists _ _ := ⟨rfl, _, rfl, _, List.mem_singleton_self _, rfl⟩
  sends _ _ _ := rfl

def joining : RawVoice := { guildId := "7", userId := "42", channelId := some "1" }

abbrev roughBot : Bot :=
  trackingBot { token := "t", trackingRole := none } roughPlatform .hand ⟨0⟩ ⟨0⟩ "activity" .hand

/-- Someone joins, the clock is moved beyond all that is cached, a channel cannot be looked up, and
someone else joins. -/
def busyHour : List Step :=
  [.process (.voice joining), .setClock ⟨90000000000⟩, .look (.channel "2"),
    .process (.voice { joining with userId := "43" })]

def moving : RawVoice := { joining with channelId := some "2" }

open Session in
theorem transitions_told_once_moving :
    lastPlace? moving.userId busyHour = some "1" ∧ ∃ channelId name,
      (botAfter roughBot busyHour).messagesSince
        (stepBot (botAfter roughBot busyHour) (.process (.voice moving))).2.2 =
        [(channelId, wayText name (some "lounge") (some ""))] := by
  have htraffic : ∀ s ∈ busyHour, s.IsTraffic := by
    simp only [busyHour, List.forall_mem_cons]
    exact ⟨trivial, trivial, trivial, trivial, nofun⟩
  have hguild : ∀ raw, .process (.voice raw) ∈ busyHour → raw.guildId ≠ "" := by
    intro raw hraw
    simp only [busyHour, List.mem_cons, Step.process.injEq, RawEvent.voice.injEq, reduceCtorEq,
      List.not_mem_nil, or_false, false_or] at hraw
    rcases hraw with rfl | rfl <;> decide
  have hrange : StaysInRange roughBot (busyHour ++ [.process (.voice moving)]) :=
    ⟨fun _ => by decide +kernel, fun _ => by decide +kernel, fun _ => by decide +kernel,
      fun _ => by decide +kernel, fun _ => by decide +kernel, trivial⟩
  obtain ⟨-, update, hresolved, -, -, -, -, htold⟩ := transitions_told_once
    { token := "t", trackingRole := none } roughPlatform .hand ⟨0⟩ ⟨0⟩ "activity" .hand rfl
    dependable_roughPlatform busyHour htraffic hguild moving (by decide) hrange
  obtain ⟨channelId, -, hm⟩ := htold (by decide)
  have hleft : (Sightings.after (fun _ => none) roughBot busyHour moving.userId).map
      (nameNow (stepBot (botAfter roughBot busyHour) (.resolveVoice moving)).2.2) = some "lounge" := by
    decide +kernel
  have hresolves : (resolved? (botAfter roughBot busyHour) moving).map (fun u => u.channel.map Channel.name) =
      some (some "") := by decide +kernel
  have hjoined : update.channel.map Channel.name = some "" :=
    Option.some.inj ((congrArg _ hresolved.symm).trans hresolves)
  rw [hleft, hjoined] at hm
  exact ⟨by decide, channelId, _, hm⟩

/-- When the clock is about to end nothing can be stored that is looked up. Resolving then breaks down,
and the change in voice is lost. -/
theorem transition_lost_at_end_of_clock :
    let steps : List Step := [.setClock Instant.latest]
    let b := Session.botAfter roughBot steps
    Dependable roughPlatform "activity_log" ∧ (∀ s ∈ steps, s.IsTraffic) ∧
      lastPlace? joining.userId steps ≠ joining.place? ∧
      b.messagesSince (Session.stepBot b (.process (.voice joining))).2.2 = [] := by
  refine ⟨dependable_roughPlatform, ?_, by decide, by decide⟩
  rintro s hs
  obtain rfl := List.mem_singleton.1 hs
  trivial

end Rehearsal

end GuildBot
