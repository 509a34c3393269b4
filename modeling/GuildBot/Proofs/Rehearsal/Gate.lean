import GuildBot.Proofs.Rehearsal.Evidence

namespace GuildBot

open Platform Std Directory Activity

namespace Rehearsal

/-- Whether the only listener is an activity tracker, and every decision to track a user that it has
was made no longer before it expires than `d`. -/
def Gated (d : Duration) (decided : UserKey → Instant → Prop) (id : String) (clock : Clock)
    (b : Bot) : Prop :=
  ∃ decisions : Cache UserKey Bool, b.deciders = [(id, .activity, clock, decisions)] ∧
    decisions.lifetime = d ∧ ∀ key e, decisions.entries[key]? = some e → e.value = true →
      ∃ t, decided key t ∧ t.nanoseconds ≤ b.now.nanoseconds ∧
        e.expiry.nanoseconds ≤ t.nanoseconds + d.nanoseconds

def orDecided (decided : UserKey → Instant → Prop) (j : Journal) (d : Duration) (role : String)
    (key : UserKey) (now : Instant) : UserKey → Instant → Prop :=
  fun k t => decided k t ∨ (k = key ∧ t = now ∧ Evidence j d role key now)

namespace Gated

variable {d : Duration} {decided decided' : UserKey → Instant → Prop} {id : String} {clock : Clock}
  {b b' : Bot}

theorem later (h : Gated d decided id clock b) (hb : b'.deciders = b.deciders)
    (hn : b.now.nanoseconds ≤ b'.now.nanoseconds) (hd : ∀ key t, decided key t → decided' key t) :
    Gated d decided' id clock b' := by
  obtain ⟨decisions, heq, hlife, hentries⟩ := h
  refine ⟨decisions, hb.trans heq, hlife, ?_⟩
  intro key e he htrue
  obtain ⟨t, ht, hle, hx⟩ := hentries key e he htrue
  exact ⟨t, hd key t ht, by omega, hx⟩

private theorem ponders {j : Journal} (h : Gated d decided id clock b) (hb : Ponders j b b') :
    Gated d decided id clock b' :=
  h.later (congrArg (List.map _) hb.registry) hb.steady.le_now fun _ _ hk => hk

theorem entry (h : Gated d decided id clock b) :
    ∃ tracker : Tracker, b.registry = [⟨id, .activity, clock, tracker⟩] ∧
      tracker.decisions.lifetime = d ∧
      ∀ key e, tracker.decisions.entries[key]? = some e → e.value = true →
        ∃ t, decided key t ∧ t.nanoseconds ≤ b.now.nanoseconds ∧
          e.expiry.nanoseconds ≤ t.nanoseconds + d.nanoseconds := by
  obtain ⟨decisions, heq, hlife, hentries⟩ := h
  obtain ⟨⟨id', listener', clock', tracker⟩, hreg, hfields⟩ := List.map_eq_singleton_iff.1 heq
  cases hfields
  exact ⟨tracker, hreg, hlife, hentries⟩

/-- A decision to track a user that is live is fresh. -/
theorem fresh (h : Gated d decided id clock b) {key : UserKey}
    (hp : ((Bot.trackerPlace id clock).decisions.view b).peek b.now key = some true) :
    ∃ t, decided key t ∧ t.IsFresh d b.now := by
  obtain ⟨tracker, hreg, -, hentries⟩ := h.entry
  have hview : (Bot.trackerPlace id clock).decisions.view b = tracker.decisions :=
    congrArg Tracker.decisions (Bot.view_trackerPlace clock hreg)
  rw [hview] at hp
  obtain ⟨e, he, hlive, htrue⟩ := Cache.peek_eq_some_iff.1 hp
  obtain ⟨t, ht, hle, hx⟩ := hentries key e he htrue
  exact ⟨t, ht, hle, by omega⟩

theorem store (h : Gated d decided id clock b) {key : UserKey} {tracked : Bool}
    {c : Cache UserKey Bool}
    (hi : ((Bot.trackerPlace id clock).decisions.view b).insert? b.now key tracked = some c)
    (hd : ∀ key t, decided key t → decided' key t) (ht : tracked = true → decided' key b.now) :
    ∃ registry, (Bot.trackerPlace id clock).decisions.put c b = { b with registry } ∧
      Gated d decided' id clock { b with registry } := by
  obtain ⟨tracker, hreg, hlife, hentries⟩ := h.entry
  have hview := Bot.view_trackerPlace clock hreg
  have hput := Bot.put_trackerPlace clock hreg { tracker with decisions := c }
  dsimp only [Place.decisions] at hview hput hi ⊢
  rw [hview] at hi ⊢
  refine ⟨_, hput, c, rfl, (Cache.lifetime_insert? hi).trans hlife, ?_⟩
  intro k e he htrue
  rw [Cache.getElem?_insert? hi] at he
  by_cases hk : k = key
  · subst hk
    rw [if_pos rfl] at he
    cases he
    exact ⟨b.now, ht htrue, Int.le_refl _, Int.le_of_eq (Cache.nanoseconds_expiryFrom hlife _)⟩
  · rw [if_neg hk] at he
    obtain ⟨t, ht, hle, hx⟩ := hentries k e he htrue
    exact ⟨t, hd k t ht, hle, hx⟩

end Gated

theorem Learns.registry {j : Journal} {b b₁ : Bot} (h : Learns j b b₁) (registry : List Entry) :
    Learns j b { b₁ with registry } := by
  have hs : b.Steady { b₁ with registry } := h.steady.trans ⟨rfl, rfl, rfl, rfl, rfl⟩
  have hinformed : Informed (j.heard b { b₁ with registry }) { b₁ with registry } :=
    h.informed.later rfl (Int.le_refl _) rfl rfl (fun _ hx => hx) fun _ _ _ _ => rfl
  exact ⟨hinformed, hs, h.deeds⟩

/-- Whether a bot that comes from another has ruled whether to track a user: it is informed and has told
of nothing, has decided to track users only on evidence, and tracks this one only by a fresh
decision. -/
structure Rules (j : Journal) (d : Duration) (decided : UserKey → Instant → Prop) (role : String)
    (id : String) (key : UserKey) (b : Bot) (tracked : Bool) (b' : Bot) : Prop where
  learns : Learns j b b'
  quiet : b.Quiet b'
  gated : Gated d (orDecided decided (j.heard b b') b.lifetime role key b.now) id b.clock b'
  fresh : tracked = true →
    ∃ t, orDecided decided (j.heard b b') b.lifetime role key b.now key t ∧ t.IsFresh d b.now

namespace Ponders

variable {j : Journal} {b b₁ : Bot} {d : Duration} {decided : UserKey → Instant → Prop}
  {role id : String} {key : UserKey}

private theorem rules_of_peek (h : Ponders j b b₁) (hg : Gated d decided id b.clock b) {tracked : Bool}
    (hpeek : ((Bot.trackerPlace id b.clock).decisions.view b₁).peek b₁.now key = some tracked) :
    Rules j d decided role id key b tracked b₁ := by
  have hg₁ := hg.ponders h
  refine ⟨h.toLearns, h.quiet, hg₁.later rfl (Int.le_refl _) fun _ _ => .inl, ?_⟩
  rintro rfl
  obtain ⟨t, ht, hfresh⟩ := hg₁.fresh hpeek
  rw [h.steady.now] at hfresh
  exact ⟨t, .inl ht, hfresh⟩

private theorem rules_of_insert? (h : Ponders j b b₁) (hd : 0 < d.nanoseconds)
    (hg : Gated d decided id b.clock b) {tracked : Bool} {c : Cache UserKey Bool}
    (hi : ((Bot.trackerPlace id b.clock).decisions.view b₁).insert? b₁.now key tracked = some c)
    (hevidence : tracked = true → Evidence (j.heard b b₁) b.lifetime role key b.now) :
    Rules j d decided role id key b tracked ((Bot.trackerPlace id b.clock).decisions.put c b₁) := by
  let decided' := orDecided decided (j.heard b b₁) b.lifetime role key b.now
  have hdecided : tracked = true → decided' key b.now :=
    fun htrue => .inr ⟨rfl, rfl, hevidence htrue⟩
  obtain ⟨registry, hput, hg₂⟩ : ∃ registry,
      (Bot.trackerPlace id b.clock).decisions.put c b₁ = { b₁ with registry } ∧
        Gated d decided' id b.clock { b₁ with registry } :=
    (hg.ponders h).store hi (fun _ _ => .inl) (by rw [h.steady.now]; exact hdecided)
  rw [hput]
  refine ⟨h.toLearns.registry registry, ⟨h.quiet.asks, h.quiet.log⟩, hg₂, ?_⟩
  intro htrue
  exact ⟨b.now, hdecided htrue, Int.le_refl _, by omega⟩

/-- The tracker tracks a user only by a fresh decision. -/
theorem ends_isTracked (h : Ponders j b b₁) (hp : Candid b.platform)
    (hl : 0 < b.lifetime.nanoseconds) (hd : 0 < d.nanoseconds) {policy : Policy}
    (hrole : policy.role = some role) (hg : Gated d decided id b.clock b)
    (guildId userId : String) :
    Flow.Ends Bot.respond (Ponders j b)
      (isTracked Directory.tools policy (Bot.trackerPlace id b.clock) guildId userId) b₁
      (Rules j d decided role id ⟨userId, guildId⟩ b) := by
  let key : UserKey := ⟨userId, guildId⟩
  let place := (Bot.trackerPlace id b.clock).decisions
  have hnow {b' : Bot} (hs : b.Steady b') : place.now b' = b'.now :=
    (hs.read b.clock).trans hs.now.symm
  unfold isTracked
  rw [hrole]
  refine Flow.Ends.bind (Q := fun (decision : Except Empty Bool) b₂ => ∃ tracked,
    decision = .ok tracked ∧ Rules j d decided role id key b tracked b₂)
    (Cache.Place.ends_get Bot.respond place key ?_ ?_) ?_
  · intro tracked hpeek
    rw [hnow h.steady] at hpeek
    exact ⟨tracked, rfl, h.rules_of_peek hg hpeek⟩
  · intro _
    apply (h.ends_holdsRole hp hl role guildId userId).bind
    rintro tracked b₂ ⟨h₂, hevidence⟩
    apply Flow.Ends.done
    dsimp only
    rw [hnow h₂.steady]
    split
    · next c hi => exact ⟨tracked, rfl, h₂.rules_of_insert? hd hg hi hevidence⟩
    · exact h₂
  · rintro _ b₂ ⟨tracked, rfl, hrules⟩
    exact .done hrules

end Ponders

namespace Gated

variable {d : Duration} {decided : UserKey → Instant → Prop} {id : String} {clock : Clock}
  {b b₁ : Bot}

theorem unmoved (h : Gated d decided id clock b) (hu : Unmoved b b₁) :
    Gated d decided id clock b₁ :=
  h.later hu.deciders hu.le_now fun _ _ hk => hk

private theorem unmoved_put (h : Gated d decided id clock b) (tracker : Tracker)
    (ht : tracker.decisions = ((Bot.trackerPlace id clock).view b).decisions) :
    Unmoved b ((Bot.trackerPlace id clock).put tracker b) := by
  obtain ⟨tracker₀, hreg, -⟩ := h.entry
  have hview := Bot.view_trackerPlace clock hreg
  have hput := Bot.put_trackerPlace clock hreg tracker
  dsimp only at hview hput
  rw [hview] at ht
  rw [hput]
  refine .of_deeds_eq ⟨rfl, rfl, rfl, rfl, rfl⟩ rfl rfl rfl ?_
  rw [Bot.deciders, Bot.deciders, hreg, List.map_singleton, List.map_singleton, ht]

section

variable (h : Gated d decided id clock b) (hu : Unmoved b b₁)

include h hu

theorem ends_logChannelId (policy : Policy) (guildId : String) :
    Flow.Ends Bot.respond (Unmoved b)
      (logChannelId Directory.tools policy (Bot.trackerPlace id clock) guildId) b₁
      fun _ => Unmoved b := by
  have hchannels : Unmoved b (Flow.eval Bot.respond (channels guildId) b₁).2 := by
    rw [eval_channels_snd]
    split
    · exact hu
    · exact hu.trans (.asked b₁ fun _ _ => rfl)
  unfold logChannelId
  refine Flow.Ends.bind (Q := fun _ b₂ => b₂ = b₁) (.of_eval rfl rfl) ?_
  rintro known _ rfl
  cases known with
  | some channelId => exact .done hu
  | none =>
    apply (Flow.Ends.of_state hchannels).bind
    intro r b₂ h₂
    cases r with
    | error f => exact .done h₂
    | ok list =>
      obtain ⟨lines, hfind⟩ := eval_findLogChannel b₂ policy.logChannel guildId list
      have h₃ := h₂.trans (.writeAll b₂ lines)
      apply Flow.Ends.bind_of_eval hfind
      cases (list.find? fun c => c.name = policy.logChannel).map Channel.id with
      | none => exact .done h₃
      | some channelId => exact .of_eval rfl (h₃.trans ((h.unmoved h₃).unmoved_put _ rfl))

theorem ends_writeLine (policy : Policy) (guildId text : String) :
    Flow.Ends Bot.respond (Unmoved b)
      (writeLine Directory.tools policy (Bot.trackerPlace id clock) guildId text) b₁
      fun _ => Unmoved b := by
  let noted := b₁.writeAll [⟨.info, s!"Recording activity: {text}"⟩]
  have hnoted : Unmoved b noted := hu.trans (.writeAll b₁ _)
  apply Flow.Ends.bind_of_eval (Action.eval_note _ _ _)
  apply (h.ends_logChannelId hnoted policy guildId).bind
  intro r b₂ h₂
  cases r with
  | error f => exact .done h₂
  | ok channelId =>
    have hsent : Unmoved b (Flow.eval Bot.respond (Directory.tools.send channelId text) b₂).2 := by
      have hcall : (Flow.eval Bot.respond (Directory.tools.send channelId text) b₂).2 =
        b₂.asked (.sendMessage channelId text) := congrArg Prod.snd (Action.eval_call _ b₂)
      rw [hcall]
      exact h₂.trans (.asked b₂ fun _ _ => rfl)
    exact (Flow.Ends.of_state hsent).bind fun _ _ h₃ => .done h₃

/-- Following a user whom it tracks, the tracker finds out nothing and decides nothing. -/
theorem ends_follow (policy : Policy) (update : VoiceUpdate) (seen : Option Channel) :
    Flow.Ends Bot.respond (Unmoved b) (follow Directory.tools policy
      (Bot.trackerPlace id clock) update seen) b₁
      fun _ => Unmoved b := by
  have hrecount (previous : Option Channel) {b₂ : Bot} (h₂ : Unmoved b b₂) :
      Flow.Ends Bot.respond (Unmoved b) (recount Directory.tools policy
        (Bot.trackerPlace id clock) update previous) b₂
        fun _ => Unmoved b := by
    unfold recount
    split
    · exact .done h₂
    · exact (h.ends_writeLine h₂ policy update.guildId _).bind fun _ _ h₃ => .done h₃
  unfold follow
  split
  · exact .done hu
  · cases seen with
    | none => exact hrecount none hu
    | some c =>
      have hrefresh : Flow.Ends Bot.respond (Unmoved b) (refresh Directory.tools c) b₁
          fun _ => Unmoved b := by
        apply (Flow.Ends.of_state (hu.trans (unmoved_channel c.id b₁))).bind
        rintro (p | _ | c) b₂ h₂
        · exact .done h₂
        · exact .done h₂
        · exact .done h₂
      exact hrefresh.bind fun c' _ h₂ => hrecount (some c') h₂

end

end Gated

/-- Whether a bot that comes from another is informed, has decided to track a user only on evidence,
and tells of activity only if there is a fresh decision to track the user. -/
structure Acts (j : Journal) (d : Duration) (decided : UserKey → Instant → Prop) (role : String)
    (id : String) (key : UserKey) (b b' : Bot) : Prop where
  learns : Learns j b b'
  gated : Gated d (orDecided decided (j.heard b b') b.lifetime role key b.now) id b.clock b'
  quiet : b.Quiet b' ∨
    ∃ t, orDecided decided (j.heard b b') b.lifetime role key b.now key t ∧ t.IsFresh d b.now

namespace Acts

variable {j : Journal} {d : Duration} {decided : UserKey → Instant → Prop} {role id : String}
  {key : UserKey} {b b₁ b₂ : Bot}

theorem of_ponders (h : Ponders j b b₁) (hg : Gated d decided id b.clock b) :
    Acts j d decided role id key b b₁ :=
  ⟨h.toLearns, (hg.ponders h).later rfl (Int.le_refl _) fun _ _ => .inl, .inl h.quiet⟩

theorem unmoved (h : Acts j d decided role id key b b₁) (hu : Unmoved b₁ b₂)
    (hq : b₁.Quiet b₂ ∨
      ∃ t, orDecided decided (j.heard b b₁) b.lifetime role key b.now key t ∧ t.IsFresh d b.now) :
    Acts j d decided role id key b b₂ := by
  have hheard := h.learns.heard_unmoved hu
  refine ⟨h.learns.unmoved hu, ?_, ?_⟩
  · rw [hheard]
    exact h.gated.unmoved hu
  · rw [hheard]
    rcases h.quiet, hq with ⟨hquiet | ht, hquiet' | ht'⟩
    · exact .inl (hquiet.trans hquiet')
    · exact .inr ht'
    · exact .inr ht
    · exact .inr ht

theorem hushed (h : Acts j d decided role id key b b₁) {lines : List Log.Line}
    (hl : Hushed lines) : Acts j d decided role id key b (b₁.writeAll lines) :=
  h.unmoved (.writeAll b₁ lines) (.inl (.of_looksUp (.writeAll b₁ hl)))

end Acts

section

variable {j : Journal} {d : Duration} {decided : UserKey → Instant → Prop} {role id : String}
  {b b₁ : Bot} (hp : Candid b.platform) (hl : 0 < b.lifetime.nanoseconds)
  (hd : 0 < d.nanoseconds) (hg : Gated d decided id b.clock b)

include hp hl hd hg

theorem Ponders.ends_track (h : Ponders j b b₁) (policy : Policy) (hrole : policy.role = some role)
    (update : VoiceUpdate) :
    let acts := Acts j d decided role id ⟨update.user.id, update.guildId⟩ b
    Flow.Ends Bot.respond acts
      (track Directory.tools policy (Bot.trackerPlace id b.clock) update) b₁ fun _ => acts := by
  intro acts
  rw [track_eq]
  apply ((h.ends_isTracked hp hl hd hrole hg update.guildId update.user.id).mono
    (fun _ h' => .of_ponders h' hg) fun _ _ hq => hq).bind
  intro tracked b₂ hrules
  have hacts : acts b₂ := ⟨hrules.learns, hrules.gated, .inl hrules.quiet⟩
  cases tracked with
  | false =>
    let line : Log.Line := ⟨.debug, "Ignoring voice state change from opted-out user."⟩
    have hline : Hushed [line] := by simp [Hushed, line]
    exact .of_eval rfl (hacts.hushed hline)
  | true =>
    have hseen := hrules.gated.unmoved_put (((Bot.trackerPlace id b.clock).view b₂).see
      update.user.id update.channel).2 rfl
    have hmoved {b₄ : Bot} (h₄ : Unmoved b₂ b₄) : acts b₄ :=
      hacts.unmoved h₄ (.inr (hrules.fresh rfl))
    refine Flow.Ends.bind (Q := fun _ b₃ => Unmoved b₂ b₃) (.of_eval rfl hseen) ?_
    intro seen b₃ h₃
    exact (hrules.gated.ends_follow h₃ policy update seen).mono (fun _ => hmoved) fun _ _ => hmoved

theorem acts_voice (hi : Informed j b) (hrole : b.settings.trackingRole = some role)
    (raw : RawVoice) :
    let b' := (Session.stepBot b (.process (.voice raw))).2.2
    (Session.resolved? b raw = none ∧ Ponders j b b') ∨
      ∃ update, Session.resolved? b raw = some update ∧
        Acts j d decided role id ⟨update.user.id, update.guildId⟩ b b' := by
  obtain ⟨tracker, hreg, -⟩ := hg.entry
  obtain ⟨lines, hlines, hstep⟩ := Session.stepBot_voice hreg rfl raw
  have hponders : Ponders j b (Flow.eval Bot.respond (Bot.resolveVoice raw) b).2 :=
    ((Ponders.refl hi).ends_resolveVoice hp hl raw).state
  have hresolved := Session.resolved?_eq b raw
  dsimp only
  rw [hstep]
  generalize Flow.eval Bot.respond (Bot.resolveVoice raw) b = r at hponders hresolved ⊢
  obtain ⟨_ | update, b₁⟩ := r
  · exact .inl ⟨hresolved, hponders⟩
  · have htrack :=
      (hponders.ends_track hp hl hd hg (Audience.policy b.settings) hrole update).state
    exact .inr ⟨update, hresolved, htrack.hushed hlines⟩

end

end Rehearsal

end GuildBot
