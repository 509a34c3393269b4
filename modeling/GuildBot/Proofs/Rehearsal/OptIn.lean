import GuildBot.Proofs.Rehearsal.Gate
import Mathlib.Data.List.Induction

/-!
# Only those who opted in are recorded

In a run whose clock never goes back, activity of a user is recorded only by a fresh decision to track
them, and every such decision stood on evidence.
-/

namespace GuildBot

open Platform Std Directory

private theorem Duration.asLifetime_le (d : Duration) : d.asLifetime.nanoseconds ≤ d.nanoseconds := by
  unfold asLifetime
  split
  · exact Nat.le_refl _
  · next h =>
    have hyear : year.nanoseconds ≤ longestSpan.nanoseconds := by decide
    omega

private theorem Duration.asLifetime_pos {d : Duration} (h : 0 < d.nanoseconds) :
    0 < d.asLifetime.nanoseconds := by
  unfold asLifetime
  split
  · exact h
  · decide

theorem Instant.IsFresh.mono {t now : Instant} {d d' : Duration} (h : t.IsFresh d now)
    (hd : d.nanoseconds ≤ d'.nanoseconds) : t.IsFresh d' now := by
  obtain ⟨hle, hlt⟩ := h
  exact ⟨hle, by omega⟩

namespace Rehearsal

theorem Evidence.mono {j : Journal} {d d' : Duration} {role : String} {key : UserKey} {now : Instant}
    (h : Evidence j d role key now) (hd : d.nanoseconds ≤ d'.nanoseconds) :
    Evidence j d' role key now := by
  obtain ⟨roleId, ⟨t, g, hg, hfresh, hname⟩, t', m, hm, hfresh', hhas⟩ := h
  exact ⟨roleId, ⟨t, g, hg, hfresh.mono hd, hname⟩, t', m, hm, hfresh'.mono hd, hhas⟩

theorem Decided.mono {b : Bot} {steps : List Step} {d d' : Duration} {role : String} {key : UserKey}
    {t : Instant} (h : Decided b steps d role key t) (hd : d.nanoseconds ≤ d'.nanoseconds) :
    Decided b steps d' role key t := by
  obtain ⟨before, raw, after, update, heq, ht, hresolved, hkey, hevidence⟩ := h
  exact ⟨before, raw, after, update, heq, ht, hresolved, hkey, hevidence.mono hd⟩

namespace Session

variable (b : Bot) (steps : List Step) (s : Step)

private theorem botAfter_append_singleton :
    botAfter b (steps ++ [s]) = (stepBot (botAfter b steps) s).2.2 := by
  rw [botAfter, List.foldl_append]
  rfl

private theorem journal_append_singleton :
    journal b (steps ++ [s]) =
      journal b steps ++ (news (botAfter b steps) s).map ((botAfter b steps).now, ·) := by
  induction steps generalizing b with
  | nil => simp [journal, botAfter]
  | cons first rest ih =>
    rw [List.cons_append, journal, ih, journal, List.append_assoc]
    rfl

variable {b steps s}

private theorem neverGoesBack_of_append_singleton (h : NeverGoesBack b (steps ++ [s])) :
    NeverGoesBack b steps ∧ (botAfter b steps).now.nanoseconds ≤
      (stepBot (botAfter b steps) s).2.2.now.nanoseconds := by
  induction steps generalizing b with
  | nil => exact ⟨trivial, h.1⟩
  | cons first rest ih =>
    obtain ⟨hrest, hlast⟩ := ih h.2
    exact ⟨⟨h.1, hrest⟩, hlast⟩

end Session

/-- Whether a step decides, on evidence, to track a user. -/
def DecidedBy (b : Bot) (j : Journal) (d : Duration) (role : String) (s : Step) (key : UserKey)
    (t : Instant) : Prop :=
  ∃ raw update, s = .process (.voice raw) ∧ t = b.now ∧ Session.resolved? b raw = some update ∧
    key = ⟨update.user.id, update.guildId⟩ ∧
    Evidence (j ++ (Session.news b s).map (b.now, ·)) d role key t

namespace Decided

variable {b : Bot} {steps : List Step} {s : Step} {d : Duration} {role : String} {key : UserKey}
  {t : Instant}

theorem append_singleton (h : Decided b steps d role key t) :
    Decided b (steps ++ [s]) d role key t := by
  obtain ⟨before, raw, after, update, rfl, ht, hresolved, hkey, hevidence⟩ := h
  exact ⟨before, raw, after ++ [s], update, by simp, ht, hresolved, hkey, hevidence⟩

private theorem of_decidedBy
    (h : DecidedBy (Session.botAfter b steps) (Session.journal b steps) d role s key t) :
    Decided b (steps ++ [s]) d role key t := by
  obtain ⟨raw, update, rfl, ht, hresolved, hkey, hevidence⟩ := h
  refine ⟨steps, raw, [], update, rfl, ht, hresolved, hkey, ?_⟩
  rw [Session.journal_append_singleton]
  exact hevidence

end Decided

/-- A bot that goes by the evidence: what it has cached is in the journal, and its only listener is a
tracker whose decisions are known. -/
structure Guarded (settings : Settings) (p : Behaviour) (clock : Clock) (id : String) (j : Journal)
    (decided : UserKey → Instant → Prop) (b : Bot) : Prop where
  settings_eq : b.settings = settings
  platform_eq : b.platform = p
  clock_eq : b.clock = clock
  informed : Informed j b
  gated : Gated (Duration.ofSeconds settings.optInTtl).asLifetime decided id clock b

namespace Guarded

variable {settings : Settings} {p : Behaviour} {clock : Clock} {id role : String} {j j' : Journal}
  {decided decided' : UserKey → Instant → Prop} {b b' : Bot}

theorem start (settings : Settings) (p : Behaviour) (clock : Clock) (handClock wallClock : Instant)
    (id : String) :
    Guarded settings p clock id [] (fun _ _ => False)
      (trackingBot settings p clock handClock wallClock id clock) := by
  refine ⟨rfl, rfl, rfl, ⟨rfl, rfl, ?_, ?_⟩, ?_⟩
  · intro k e he
    simp [trackingBot, Bot.register, Bot.ofSettings, Bot.write, Cache.ofDuration] at he
  · intro k e _ he
    simp [trackingBot, Bot.register, Bot.ofSettings, Bot.write, Cache.ofDuration] at he
  · refine ⟨.ofDuration (.ofSeconds settings.optInTtl), rfl, rfl, ?_⟩
    intro k e he
    simp [Cache.ofDuration] at he

theorem later (h : Guarded settings p clock id j decided b) (hs : b'.settings = b.settings)
    (hp : b'.platform = b.platform) (hc : b'.clock = b.clock) (hi : Informed j' b')
    (hr : b'.registry = b.registry) (hn : b.now.nanoseconds ≤ b'.now.nanoseconds) :
    Guarded settings p clock id j' decided b' :=
  ⟨hs.trans h.settings_eq, hp.trans h.platform_eq, hc.trans h.clock_eq, hi,
    h.gated.later (congrArg (List.map _) hr) hn fun _ _ hk => hk⟩

private theorem weaken (h : Guarded settings p clock id j decided b)
    (hd : ∀ key t, decided key t → decided' key t) : Guarded settings p clock id j decided' b :=
  ⟨h.settings_eq, h.platform_eq, h.clock_eq, h.informed, h.gated.later rfl (Int.le_refl _) hd⟩

theorem of_kept (h : Guarded settings p clock id j decided b) (hk : b.Kept b')
    (hi : Informed j' b') : Guarded settings p clock id j' decided b' :=
  h.later hk.settings hk.platform hk.clock hi hk.registry hk.le_now

theorem of_ponders (h : Guarded settings p clock id j decided b) (hb : Ponders j b b') :
    Guarded settings p clock id (j.heard b b') decided b' :=
  h.of_kept ⟨hb.steady, hb.registry⟩ hb.informed

section

variable (h : Guarded settings p clock id j decided b)

include h

private theorem lifetime_eq : b.lifetime = (Duration.ofSeconds settings.cacheTtl).asLifetime := by
  rw [Bot.lifetime, h.settings_eq]

private theorem candid (hp : Candid p) : Candid b.platform := by
  rw [h.platform_eq]
  exact hp

private theorem lifetime_pos (hcache : 0 < settings.cacheTtl) : 0 < b.lifetime.nanoseconds := by
  rw [h.lifetime_eq]
  apply Duration.asLifetime_pos
  simp only [Duration.ofSeconds, secondLength]
  omega

private theorem ponders_look (hp : Candid p) (hcache : 0 < settings.cacheTtl) (q : Query) :
    Ponders j b (Flow.eval Bot.respond q.look b).2 := by
  have hcandid := h.candid hp
  have hlife := h.lifetime_pos hcache
  have hrefl := Ponders.refl h.informed
  rw [Session.eval_look_snd]
  cases q with
  | guild id =>
    exact ((hrefl.ends_guild hcandid hlife id).mono (fun _ h => h) fun _ _ hq => hq.1).state
  | channel id => exact (hrefl.ends_channel id).state
  | user id guildId =>
    exact ((hrefl.ends_user hcandid hlife id guildId).mono (fun _ h => h) fun _ _ hq => hq.1).state
  | channels guildId =>
    dsimp only
    split
    · exact hrefl
    · exact hrefl.unmoved (.asked b fun _ _ => rfl) (.asked b trivial)

theorem pushed_member (update : MemberUpdate) :
    let b' := (Flow.eval Bot.respond (absorbMember update) b).2
    b'.deeds = b.deeds ∧ Guarded settings p clock id
      (j ++ [(b.now, .member ⟨update.userId, update.guildId⟩ update.member)]) decided b' := by
  obtain ⟨hkept, hdeeds⟩ := kept_absorbMember b update
  exact ⟨hdeeds, h.of_kept hkept (h.informed.pushed_member update)⟩

theorem pushed_channel (update : ChannelUpdate) :
    let b' := (Flow.eval Bot.respond (absorbChannel update) b).2
    b'.deeds = b.deeds ∧ Guarded settings p clock id j decided b' := by
  obtain ⟨hkept, hdeeds⟩ := kept_absorbChannel b update
  exact ⟨hdeeds, h.of_kept hkept (h.informed.pushed_channel update)⟩

end

theorem quiet (h : Guarded settings p clock id j decided b) (hp : Candid p)
    (hcache : 0 < settings.cacheTtl) {s : Step} (hs : s.IsTraffic)
    (hv : ∀ raw, s ≠ .process (.voice raw))
    (hn : b.now.nanoseconds ≤ (Session.stepBot b s).2.2.now.nanoseconds) :
    Guarded settings p clock id (j ++ (Session.news b s).map (b.now, ·)) decided
      (Session.stepBot b s).2.2 := by
  have hmember (update : MemberUpdate) {b' : Bot}
      (hb' : b' = (Flow.eval Bot.respond (absorbMember update) b).2) :
      Guarded settings p clock id (j ++ ([News.member ⟨update.userId, update.guildId⟩ update.member] ++
        b.newsSince b').map (b.now, ·)) decided b' := by
    obtain ⟨hdeeds, hguarded⟩ := h.pushed_member update
    rw [hb', Bot.newsSince_of_deeds_eq hdeeds]
    exact hguarded
  have hnothing {b' : Bot} (hb' : b'.deeds = b.deeds ∧ Guarded settings p clock id j decided b') :
      Guarded settings p clock id (j ++ ([] ++ b.newsSince b').map (b.now, ·)) decided b' := by
    rw [Bot.newsSince_of_deeds_eq hb'.1]
    exact (List.append_nil j).symm ▸ hb'.2
  have hclock (t : Instant)
      (hn : b.now.nanoseconds ≤ ({ b with handClock := t } : Bot).now.nanoseconds) :
      Guarded settings p clock id j decided { b with handClock := t } :=
    h.later rfl rfl rfl (h.informed.later rfl hn rfl rfl (fun _ hx => hx) fun _ _ _ _ => rfl) rfl hn
  cases s with
  | look q =>
    have hlook := h.of_ponders (h.ponders_look hp hcache q)
    rw [← (Session.stepBot_look b q).2] at hlook
    exact hlook
  | pushMember update => exact hmember update (Session.stepBot_pushMember b update).2
  | pushChannel update =>
    have hchannel := h.pushed_channel update
    rw [← (Session.stepBot_pushChannel b update).2] at hchannel
    exact hnothing hchannel
  | process raw =>
    cases raw with
    | message raw => exact hs.elim
    | voice raw => exact absurd rfl (hv raw)
    | member update => exact hmember update (Session.stepBot_member b update)
    | channel update =>
      have hchannel := h.pushed_channel update
      rw [← Session.stepBot_channel b update] at hchannel
      exact hnothing hchannel
  | advance d =>
    have hmoved : (Session.stepBot b (.advance d)).2.2.deeds = b.deeds ∧
        Guarded settings p clock id j decided (Session.stepBot b (.advance d)).2.2 := by
      obtain ⟨t, ht⟩ := Session.stepBot_advance b d
      rw [ht] at hn ⊢
      exact ⟨rfl, hclock t hn⟩
    exact hnothing hmoved
  | setClock t => exact hnothing ⟨rfl, hclock t hn⟩
  | _ => exact hs.elim

/-- A change in voice decides on evidence, and activity is recorded only by a fresh decision. -/
theorem voice (h : Guarded settings p clock id j decided b) (hp : Candid p)
    (hcache : 0 < settings.cacheTtl) (hoptIn : 0 < settings.optInTtl)
    (hrole : settings.trackingRole = some role) (raw : RawVoice) :
    let b' := (Session.stepBot b (.process (.voice raw))).2.2
    let decided' := fun key t =>
      decided key t ∨ DecidedBy b j b.lifetime role (.process (.voice raw)) key t
    Guarded settings p clock id (j.heard b b') decided' b' ∧
      (b.RecordsSince b' → ∃ update, Session.resolved? b raw = some update ∧
        ∃ t, t.IsFresh (Duration.ofSeconds settings.optInTtl).asLifetime b.now ∧
          decided' ⟨update.user.id, update.guildId⟩ t) := by
  have hspan : 0 < (Duration.ofSeconds settings.optInTtl).asLifetime.nanoseconds := by
    apply Duration.asLifetime_pos
    simp only [Duration.ofSeconds, secondLength]
    omega
  have hgated := h.gated
  rw [← h.clock_eq] at hgated
  have hrole' : b.settings.trackingRole = some role := by rw [h.settings_eq, hrole]
  intro b' decided'
  rcases acts_voice (h.candid hp) (h.lifetime_pos hcache) hspan hgated h.informed hrole' raw with
    ⟨-, hponders⟩ | ⟨update, hresolved, hacts⟩
  · refine ⟨(h.of_ponders hponders).weaken fun _ _ => .inl, ?_⟩
    intro hrecords
    exact absurd hrecords hponders.quiet.not_recordsSince
  · have hdecided : ∀ key t, orDecided decided (j.heard b b') b.lifetime role
        ⟨update.user.id, update.guildId⟩ b.now key t → decided' key t := by
      rintro key t (hkey | ⟨rfl, rfl, hevidence⟩)
      · exact .inl hkey
      · exact .inr ⟨raw, update, rfl, rfl, hresolved, rfl, hevidence⟩
    have hsteady := hacts.learns.steady
    refine ⟨⟨hsteady.settings.trans h.settings_eq, hsteady.platform.trans h.platform_eq,
      hsteady.clock.trans h.clock_eq, hacts.learns.informed, ?_⟩, ?_⟩
    · rw [← h.clock_eq]
      exact hacts.gated.later rfl (Int.le_refl _) hdecided
    · intro hrecords
      rcases hacts.quiet with hquiet | ⟨t, ht, hfresh⟩
      · exact absurd hrecords hquiet.not_recordsSince
      · exact ⟨update, hresolved, t, hfresh, hdecided _ _ ht⟩

theorem step (h : Guarded settings p clock id j decided b) (hp : Candid p)
    (hcache : 0 < settings.cacheTtl) (hoptIn : 0 < settings.optInTtl)
    (hrole : settings.trackingRole = some role) {s : Step} (hs : s.IsTraffic)
    (hn : b.now.nanoseconds ≤ (Session.stepBot b s).2.2.now.nanoseconds) :
    Guarded settings p clock id (j ++ (Session.news b s).map (b.now, ·))
      (fun key t => decided key t ∨ DecidedBy b j b.lifetime role s key t)
      (Session.stepBot b s).2.2 := by
  by_cases hv : ∃ raw, s = .process (.voice raw)
  · obtain ⟨raw, rfl⟩ := hv
    exact (h.voice hp hcache hoptIn hrole raw).1
  · have hquiet := h.quiet hp hcache hs (fun raw heq => hv ⟨raw, heq⟩) hn
    exact hquiet.weaken fun _ _ => .inl

theorem after (h : Guarded settings p clock id [] (fun _ _ => False) b) (hp : Candid p)
    (hcache : 0 < settings.cacheTtl) (hoptIn : 0 < settings.optInTtl)
    (hrole : settings.trackingRole = some role) {steps : List Step} (hs : ∀ s ∈ steps, s.IsTraffic)
    (hn : Session.NeverGoesBack b steps) :
    Guarded settings p clock id (Session.journal b steps)
      (Decided b steps (Duration.ofSeconds settings.cacheTtl).asLifetime role)
      (Session.botAfter b steps) := by
  induction steps using List.reverseRecOn with
  | nil => exact h.weaken fun _ _ hfalse => hfalse.elim
  | append_singleton steps s ih =>
    obtain ⟨hbefore, hlast⟩ := Session.neverGoesBack_of_append_singleton hn
    have hsteps : ∀ s ∈ steps, s.IsTraffic := fun s hmem => hs s (List.mem_append_left _ hmem)
    have hstep := (ih hsteps hbefore).step hp hcache hoptIn hrole (hs s (by simp)) hlast
    rw [(ih hsteps hbefore).lifetime_eq] at hstep
    rw [Session.botAfter_append_singleton, Session.journal_append_singleton]
    apply hstep.weaken
    rintro key t (hkey | hkey)
    · exact hkey.append_singleton
    · exact .of_decidedBy hkey

end Guarded

/-- Activity is recorded only at a change in voice of a user whom there is a fresh decision to track. At
the decision the guild was known to have the role, and the last that was known of the user was that
they hold it. Settings with a lifetime of zero are refused (`Settings.flaw?`). -/
theorem recorded_only_on_evidence (settings : Settings) (p : Behaviour) (clock : Clock)
    (handClock wallClock : Instant) (id role : String) (hrole : settings.trackingRole = some role)
    (hcache : 0 < settings.cacheTtl) (hoptIn : 0 < settings.optInTtl) (hp : Candid p)
    (steps : List Step) (hsteps : ∀ s ∈ steps, s.IsTraffic)
    (hclock : Session.NeverGoesBack
      (trackingBot settings p clock handClock wallClock id clock) steps)
    (raw : RawVoice) :
    let b₀ := trackingBot settings p clock handClock wallClock id clock
    let b := Session.botAfter b₀ steps
    let s := Step.process (.voice raw)
    b.RecordsSince (Session.stepBot b s).2.2 → ∃ update, Session.resolved? b raw = some update ∧
      ∃ t, t.IsFresh (.ofSeconds settings.optInTtl) b.now ∧
        Decided b₀ (steps ++ [s]) (.ofSeconds settings.cacheTtl) role
          ⟨update.user.id, update.guildId⟩ t := by
  intro b₀ b s hrecords
  have hguarded := (Guarded.start settings p clock handClock wallClock id).after hp hcache hoptIn
    hrole hsteps hclock
  obtain ⟨update, hresolved, t, hfresh, hdecided⟩ :=
    (hguarded.voice hp hcache hoptIn hrole raw).2 hrecords
  rw [hguarded.lifetime_eq] at hdecided
  refine ⟨update, hresolved, t, hfresh.mono (Duration.asLifetime_le _), ?_⟩
  rcases hdecided with hdecided | hdecided
  · exact hdecided.append_singleton.mono (Duration.asLifetime_le _)
  · exact (Decided.of_decidedBy hdecided).mono (Duration.asLifetime_le _)

/-- A platform where every guild has the role, and every member holds it. -/
def grantingPlatform : Behaviour := fun _ c => { result := some (answer c) }
where
  answer : (c : Call) → Outcome c.Payload
    | .fetchGuild id => .ok { id, roles := (∅ : ExtTreeMap String String).insert "9" "Tracked" }
    | .fetchChannel id => .ok { id, name := "lounge" }
    | .fetchUser id => .ok { id, username := "bob" }
    | .fetchMember _ _ => .ok { roles := (∅ : ExtTreeSet String).insert "9" }
    | .fetchGuildChannels _ => .ok [{ id := "100", name := "activity_log" }]
    | .sendMessage _ _ => .ok ()
    | .addReaction _ _ _ => .ok ()

def grantingBot : Bot :=
  trackingBot { token := "t" } grantingPlatform .hand ⟨0⟩ ⟨0⟩ "activity" .hand

def leaving : RawVoice := { guildId := "7", userId := "42" }

def joinedBefore : List Step :=
  [.process (.voice { leaving with channelId := some "1" }), .advance (.ofSeconds 4)]

/-- That someone leaves is recorded, by the decision that was made when they joined. -/
theorem recorded_only_on_evidence_leaving :
    (Session.botAfter grantingBot joinedBefore).RecordsSince
      (Session.stepBot (Session.botAfter grantingBot joinedBefore) (.process (.voice leaving))).2.2 ∧
    ∃ key t, Decided grantingBot (joinedBefore ++ [.process (.voice leaving)]) (.ofSeconds 5) "Tracked"
      key t := by
  have hrecords : (Session.botAfter grantingBot joinedBefore).RecordsSince
      (Session.stepBot (Session.botAfter grantingBot joinedBefore) (.process (.voice leaving))).2.2 :=
    .inr (by decide)
  have hcandid : Candid grantingPlatform := by
    refine ⟨fun _ _ _ _ => rfl, ?_⟩
    rintro _ _ _ ⟨⟩
    rfl
  have hsteps : ∀ s ∈ joinedBefore, s.IsTraffic := by
    simp [joinedBefore, Step.IsTraffic, Step.IsDirectory]
  have hclock : Session.NeverGoesBack grantingBot joinedBefore := ⟨by decide, by decide, trivial⟩
  obtain ⟨update, -, t, -, hdecided⟩ := recorded_only_on_evidence { token := "t" } grantingPlatform
    .hand ⟨0⟩ ⟨0⟩ "activity" "Tracked" rfl (by decide) (by decide) hcandid joinedBefore hsteps hclock
    leaving hrecords
  exact ⟨hrecords, _, t, hdecided⟩

end Rehearsal

end GuildBot
