import GuildBot.Proofs.Bot.ActionProperty
import GuildBot.Proofs.Bot.Identity
import GuildBot.Proofs.Flow.Invariant
import GuildBot.Rehearsal.ConcurrentErrands

/-!
# Records of what was asked for

Over an honest platform, whatever programs of the bot run side by side, every cached record is of its
key, and an event is resolved to the very ids that were announced, whichever of its lookups fail.
-/

namespace GuildBot

open Platform Std Directory

variable {α β : Type}

/-- Whether a user is the one of a key, with no membership but that of the key's guild. -/
structure User.IsFor (u : User) (key : UserKey) : Prop where
  id_eq : u.id = key.userId
  memberships : ∀ guildId ∈ u.memberships, guildId = key.guildId

/-- Whether a user is of an id, and no membership of theirs is known. -/
structure User.IsBare (u : User) (id : String) : Prop where
  id_eq : u.id = id
  memberships : u.memberships = ∅

private theorem User.IsBare.isFor {u : User} {id : String} {key : UserKey} (h : u.IsBare id)
    (hid : key.userId = id) : u.IsFor key := by
  refine ⟨h.id_eq.trans hid.symm, fun guildId hmem => ?_⟩
  rw [h.memberships] at hmem
  exact absurd hmem ExtTreeMap.not_mem_empty

namespace User.IsFor

variable {u : User} {key : UserKey}

theorem insert (h : u.IsFor key) (member : Member) :
    ({ u with memberships := u.memberships.insert key.guildId member } : User).IsFor key := by
  refine ⟨h.id_eq, fun guildId hmem => ?_⟩
  rcases ExtTreeMap.mem_insert.1 hmem with heq | hmem
  · exact (LawfulEqOrd.eq_of_compare heq).symm
  · exact h.memberships guildId hmem

theorem updateNames (h : u.IsFor key) (update : MemberUpdate) : (u.updateNames update).1.IsFor key :=
  ⟨h.id_eq, h.memberships⟩

theorem updateMembership {update : MemberUpdate} (h : u.IsFor key)
    (hg : update.guildId = key.guildId) : (u.updateMembership update).1.IsFor key := by
  unfold User.updateMembership
  dsimp only
  split
  · exact ⟨h.id_eq, fun guildId hmem => h.memberships guildId (ExtTreeMap.mem_of_mem_erase hmem)⟩
  · exact hg ▸ h.insert update.member

end User.IsFor

/-- Whether an honest platform can give a call that answer. -/
def Platform.Call.HasHonest (c : Call) (r : c.Answer) : Prop :=
  ∃ (p : Behaviour) (ds : List Deed), Honest p ∧ (p ds c).result = r

/-- Whether all that a bot has cached is of its key, and its platform is honest. -/
structure Bot.Faithful (b : Bot) : Prop where
  sound : b.Sound
  honest : Honest b.platform
  users : b.users.Every fun key u => u.IsFor key

namespace Bot

variable {b b' : Bot}

namespace Faithful

theorem ofSettings (settings : Settings) {p : Behaviour} (hp : Honest p) (clock : Clock)
    (handClock wallClock : Instant) :
    (Bot.ofSettings settings p clock handClock wallClock).Faithful :=
  ⟨.ofSettings _ _ _ _ _, hp, Cache.every_ofDuration _ _⟩

theorem of_beside (h : b.Faithful) (hb : b.Beside b') : b'.Faithful := by
  refine ⟨h.sound.same hb.settings hb.guilds hb.channels hb.users, ?_, ?_⟩
  · rw [hb.platform]
    exact h.honest
  · rw [hb.users]
    exact h.users

theorem asked (h : b.Faithful) (c : Call) : (b.asked c).Faithful := by
  refine ⟨h.sound.asked c, ?_, ?_⟩
  · rw [(Kept.asked b c).platform]
    exact h.honest
  · rw [b.users_asked c]
    exact h.users

theorem register (h : b.Faithful) (id : String) (listener : Listener) (clock : Clock) :
    (b.register id listener clock).2.Faithful := by
  unfold Bot.register
  split
  · exact h
  · exact ⟨h.sound.same rfl rfl rfl rfl, h.honest, h.users⟩

private theorem withUsers (h : b.Faithful) {c : Cache UserKey User}
    (hlifetime : c.lifetime = b.users.lifetime)
    (hc : c.Every fun key u => u.IsFor key) :
    ({ b with users := c } : Bot).Faithful := by
  have hkeyed : c.Keyed b.lifetime User.id UserKey.userId :=
    ⟨hlifetime.trans h.sound.users.lifetime, fun key e he => (hc key e he).id_eq⟩
  exact ⟨⟨h.sound.guilds, h.sound.channels, hkeyed⟩, h.honest, hc⟩

private theorem insertUser (h : b.Faithful) {now : Instant} {key : UserKey} {u : User}
    {c : Cache UserKey User} (hu : u.IsFor key) (hi : b.users.insert? now key u = some c) :
    ({ b with users := c } : Bot).Faithful :=
  h.withUsers (Cache.lifetime_insert? hi) (h.users.insert? hi hu)

private theorem updateUser (h : b.Faithful) (now : Instant) (key : UserKey) {f : User → User}
    (hf : ∀ u : User, u.IsFor key → (f u).IsFor key) :
    ({ b with users := (b.users.update now key f).2 } : Bot).Faithful :=
  h.withUsers (Cache.lifetime_update _ _ _ _) (h.users.update now key hf)

private theorem withGuilds (h : b.Faithful) {c : Cache String Guild} (hc : c.Keyed b.lifetime Guild.id id) :
    ({ b with guilds := c } : Bot).Faithful :=
  ⟨⟨hc, h.sound.channels, h.sound.users⟩, h.honest, h.users⟩

private theorem withChannels (h : b.Faithful) {c : Cache String Channel}
    (hc : c.Keyed b.lifetime Channel.id id) : ({ b with channels := c } : Bot).Faithful :=
  ⟨⟨h.sound.guilds, hc, h.sound.users⟩, h.honest, h.users⟩

theorem keepsIds (h : b.Faithful) : b.KeepsIds where
  guilds := h.sound.guilds.id_eq
  channels := h.sound.channels.id_eq
  users := h.sound.users.id_eq
  memberships key e he := (h.users key e he).memberships

end Faithful

end Bot

/-- Whether an action leaves a bot faithful, relying on that at each of its turns. If it comes to a
result, `Q` holds of that. -/
abbrev Action.IsFaithful (Q : α → Prop) (f : Action α) : Prop := f.Keeps Bot.Faithful Bot.respond Q

namespace Action.IsFaithful

variable {Q : α → Prop}

private theorem beside {update : Bot → Bot} {next : Bot → Action α} (hu : ∀ b : Bot, b.Beside (update b))
    (h : ∀ b, IsFaithful Q (next b)) : IsFaithful Q (.act update next) :=
  .act (fun b hb => hb.of_beside (hu b)) fun b _ => h b

theorem note (level : Log.Level) (message : String) :
    IsFaithful (fun _ => True) (Action.note level message) :=
  beside (fun _ => ⟨⟨rfl, rfl, rfl, rfl, rfl⟩, rfl, rfl, rfl, rfl⟩) fun _ => .done trivial

theorem makeDo {Q : Option α → Prop} (what : String) {found : Found α} (h : Q found.record?) :
    IsFaithful Q (found.makeDo Action.note what) := by
  cases found with
  | ok record => exact .done h
  | error p => exact (note _ _).bind fun _ _ => .done h

theorem call (c : Call) : IsFaithful (fun r => c.HasHonest (some r)) (Action.call c) := by
  have hasked : IsFaithful c.HasHonest (Program.call c : Action c.Answer) :=
    Flow.Keeps.call (fun b hb => hb.asked c) fun b hb => ⟨b.platform, b.deeds, hb.honest, rfl⟩
  refine hasked.bind fun r hr => ?_
  cases r with
  | none => trivial
  | some r => exact .done hr

end Action.IsFaithful

open GuildBot.Action (IsFaithful)

namespace Directory

/-- Whether what a fetch yields, in whole or in part, is such a record. -/
def Yields (P : α → Prop) : Except (Partial α) α → Prop
  | .ok record => P record
  | .error p => P p.stub

/-- Whether a fetch leaves that stub if it fails. -/
def FallsBack (stub : β) : Except (Partial β) α → Prop
  | .ok _ => True
  | .error p => p.stub = stub

private theorem faithful_fetchPart {c : Call} {P : Except (Partial β) c.Payload → Prop}
    (what purpose : String) {stub : β}
    (hok : ∀ r : c.Payload, c.HasHonest (some (.ok r)) → P (.ok r))
    (hstub : ∀ f, P (.error ⟨stub, f⟩)) :
    IsFaithful P (fetchPart (Action.call c) what purpose stub) := by
  refine (IsFaithful.call c).bind fun result hresult => ?_
  cases result with
  | ok r => exact .done (hok r hresult)
  | error f => exact (IsFaithful.note _ _).bind fun _ _ => .done (hstub _)

private theorem faithful_find {κ : Type} [Ord κ] [TransOrd κ] {place : Cache.Place Bot Lock κ α} {key : κ}
    {id : String} {fetch : Action (Except (Partial α) α)} {P : α → Prop} (idOf : α → String)
    (hid : ∀ record, P record → idOf record = id)
    (hpeek : ∀ (b : Bot) record, b.Faithful →
      (place.view b).peek (place.now b) key = some record → P record)
    (hstore : ∀ (b : Bot) c record, b.Faithful → P record →
      (place.view b).insert? (place.now b) key record = some c → (place.put c b).Faithful)
    (hfetch : IsFaithful (Yields P) fetch) :
    IsFaithful (fun found => found.record?.map idOf = (some id).filter (· ≠ ""))
      (find place id key fetch) := by
  unfold find
  by_cases hempty : id = ""
  · rw [if_pos hempty, hempty]
    exact .done rfl
  · have hsome : (some id).filter (· ≠ "") = some id := by simp [Option.filter, hempty]
    rw [if_neg hempty, hsome]
    refine (Flow.Keeps.get (P := Yields P) hpeek hstore hfetch).bind fun result hresult => ?_
    cases result with
    | ok record => exact .done (congrArg some (hid record hresult))
    | error p => exact .done (congrArg some (hid p.stub hresult))

theorem faithful_guild (id : String) :
    IsFaithful (fun found => found.record?.map Guild.id = (some id).filter (· ≠ "")) (guild id) := by
  refine faithful_find (P := fun g => g.id = id) Guild.id (fun _ h => h) ?_ ?_ ?_
  · intro b g hb hpeek
    exact hb.sound.guilds.id_of_peek hpeek
  · intro b c g hb hg hi
    exact hb.withGuilds (hb.sound.guilds.insert? hi hg)
  · refine (IsFaithful.note _ _).bind fun _ _ => faithful_fetchPart _ _ ?_ fun _ => rfl
    rintro g ⟨p, ds, hp, hg⟩
    exact hp.guild_id ds id g hg

theorem faithful_channel (id : String) :
    IsFaithful (fun found => found.record?.map Channel.id = (some id).filter (· ≠ ""))
      (channel id) := by
  refine faithful_find (P := fun c => c.id = id) Channel.id (fun _ h => h) ?_ ?_ ?_
  · intro b c hb hpeek
    exact hb.sound.channels.id_of_peek hpeek
  · intro b cache c hb hc hi
    exact hb.withChannels (hb.sound.channels.insert? hi hc)
  · refine (IsFaithful.note _ _).bind fun _ _ => faithful_fetchPart _ _ ?_ fun _ => rfl
    rintro c ⟨p, ds, hp, hc⟩
    exact hp.channel_id ds id c hc

private theorem faithful_fetchUser (id guildId : String) :
    IsFaithful (Yields fun u => u.IsFor ⟨id, guildId⟩) (fetchUser id guildId) := by
  have hbare {u : User} (hu : u.IsBare id) : u.IsFor ⟨id, guildId⟩ := hu.isFor rfl
  have hfound : IsFaithful (Yields fun u => u.IsBare id) (fetchPart (Action.call (.fetchUser id)) "user info"
      "getting user info" ({ id } : User)) := by
    refine faithful_fetchPart _ _ ?_ fun _ => ⟨rfl, rfl⟩
    rintro u ⟨p, ds, hp, hu⟩
    exact ⟨hp.user_id ds id u hu, hp.memberships ds id u hu⟩
  refine (IsFaithful.note _ _).bind fun _ _ => hfound.bind fun result hresult => ?_
  cases result with
  | error p => exact .done (hbare hresult)
  | ok user =>
    dsimp only
    split
    · exact .done (hbare hresult)
    · have hmember : IsFaithful (FallsBack user)
          (fetchPart (Action.call (.fetchMember guildId id)) "guild member info"
            "getting user guild member info" user) :=
        faithful_fetchPart _ _ (fun _ _ => trivial) fun _ => rfl
      refine hmember.bind fun result hstub => ?_
      cases result with
      | error p =>
        have hp : p.stub = user := hstub
        exact .done (hbare (hp ▸ hresult))
      | ok member => exact .done ((hbare hresult).insert member)

theorem faithful_user (id guildId : String) :
    IsFaithful (fun found => found.record?.map User.id = (some id).filter (· ≠ ""))
      (user id guildId) := by
  refine faithful_find (P := fun u => u.IsFor ⟨id, guildId⟩) User.id (fun _ h => h.id_eq) ?_ ?_
    (faithful_fetchUser id guildId)
  · intro b u hb hpeek
    exact hb.users.of_peek hpeek
  · intro b c u hb hu hi
    exact hb.insertUser hu hi

/-- All parts of listeners leave the bot faithful. -/
def faithful : ListenerProperty where
  toActionProperty := .keeping Bot.Faithful (fun _ _ h hb => hb.of_beside h) fun _ c hb => hb.asked c
  guild id _ := (faithful_guild id).mono fun _ _ => trivial
  channel id _ := (faithful_channel id).mono fun _ _ => trivial
  user id guildId _ := (faithful_user id guildId).mono fun _ _ => trivial
  decide id clock _ _ hfetch :=
    have hput (b : Bot) (c : Cache UserKey Bool) :
        b.Beside ((Bot.trackerPlace id clock).decisions.put c b) := .put_tracker id clock _ b
    Flow.Keeps.get (fun _ _ _ _ => trivial) (fun b c _ hb _ _ => hb.of_beside (hput b c)) hfetch

section

variable {κ : Type} [Ord κ] [TransOrd κ] {place : Cache.Place Bot Lock κ α} {key : κ}

private theorem faithful_revise {apply : α → α × List Change}
    (h : ∀ b : Bot, b.Faithful → (place.put
      ((place.view b).update (place.now b) key fun record => (apply record).1).2 b).Faithful) :
    IsFaithful (fun _ => True) (revise place key apply) :=
  .act h fun _ _ => .done trivial

private theorem faithful_store {record : α} (h : ∀ (b : Bot) c, b.Faithful →
      (place.view b).insert? (place.now b) key record = some c → (place.put c b).Faithful) :
    IsFaithful (fun _ => True) (place.store key record) := by
  refine .act (fun b hb => ?_) fun b _ => ?_
  · split
    · next c hc => exact h b c hb hc
    · exact hb
  · split
    · exact .done trivial
    · trivial

end

/-- A pushed update brings the record of the update's guild up to date, or makes it, and leaves what
a user is in other guilds alone. -/
theorem faithful_absorbMember (update : MemberUpdate) :
    IsFaithful (fun _ => True) (absorbMember update) := by
  have hbare : (User.ofUpdate update false).IsBare update.userId := ⟨rfl, rfl⟩
  have hmade : (User.ofUpdate update true).IsFor ⟨update.userId, update.guildId⟩ :=
    User.IsFor.updateMembership (hbare.isFor rfl) rfl
  have habsorb : faithful.keeps [] (absorbMember update) := by
    apply faithful.absorbMember
    · refine faithful_revise fun b hb => ?_
      exact hb.updateUser _ _ fun u hu => (hu.updateNames update).updateMembership rfl
    · exact faithful_store fun b c hb hi => hb.insertUser hmade hi
    · exact faithful_revise fun b hb => hb.updateUser _ _ fun u hu => hu.updateNames update
  exact habsorb

theorem faithful_absorbChannel (update : ChannelUpdate) :
    IsFaithful (fun _ => True) (absorbChannel update) := by
  have habsorb : faithful.keeps [] (absorbChannel update) := by
    apply faithful.absorbChannel
    · refine faithful_revise fun b hb => ?_
      exact hb.withChannels (hb.sound.channels.update _ _ fun _ => rfl)
    · exact faithful_store fun b c hb hi =>
        hb.withChannels (hb.sound.channels.insert? hi rfl)
  exact habsorb

end Directory

namespace Audience

private theorem faithful_announce (event : Event) :
    IsFaithful (fun plan => plan.Keeps Bot.Faithful Bot.respond ∧ IsAbout event plan)
      (announce event) := by
  refine .beside .refl fun b => .done ⟨⟨?_, fun results => faithful.flag event _⟩, b, rfl, rfl⟩
  intro f hf
  obtain ⟨e, -, rfl⟩ := List.mem_map.1 hf
  exact faithful.tell b.settings event e

end Audience

namespace Bot

private theorem faithful_withFound {idOf : α → String} {id : String} {Q : β → Prop} {f : Action (Found α)}
    {g : Option α → Action β} (what : String)
    (hf : IsFaithful (fun found => found.record?.map idOf = (some id).filter (· ≠ "")) f)
    (hg : ∀ record, record.map idOf = (some id).filter (· ≠ "") → IsFaithful Q (g record)) :
    IsFaithful Q (f.bind fun found => (found.makeDo Action.note what).bind g) := by
  refine hf.bind fun found hfound => ?_
  have hmade : IsFaithful (fun record => record.map idOf = (some id).filter (· ≠ ""))
      (found.makeDo Action.note what) := .makeDo what hfound
  exact hmade.bind hg

theorem faithful_resolveMessage (raw : RawMessage) :
    IsFaithful (fun m => m.IsOf raw) (resolveMessage raw) := by
  refine faithful_withFound "author" (faithful_user raw.authorId raw.guildId)
    fun author hauthor => ?_
  refine faithful_withFound "guild" (faithful_guild raw.guildId) fun guild hguild => ?_
  refine faithful_withFound "channel" (faithful_channel raw.channelId) fun channel hchannel => ?_
  exact .done {
    author := id_getD hauthor rfl
    guild := hguild
    channel := id_getD hchannel rfl
    id := rfl
    content := rfl }

private theorem faithful_resolvePlace (raw : RawVoice) :
    IsFaithful (fun channel => channel.map Channel.id = raw.place?)
      (resolvePlace raw.channelId) := by
  unfold RawVoice.place?
  cases raw.channelId with
  | none => exact .done rfl
  | some id =>
    exact (faithful_channel id).bind fun found hchannel => IsFaithful.makeDo "channel" hchannel

theorem faithful_resolveVoice (raw : RawVoice) :
    IsFaithful (fun u => u.IsOf raw) (resolveVoice raw) := by
  rw [resolveVoice_eq]
  refine faithful_withFound "guild" (faithful_guild raw.guildId) fun guild hguild => ?_
  refine (faithful_resolvePlace raw).bind fun channel hchannel => ?_
  refine faithful_withFound "user" (faithful_user raw.userId raw.guildId) fun user huser => ?_
  exact .done { user := id_getD huser rfl, guild := hguild, channel := hchannel }

/-- Listeners are told of the event that was announced. -/
theorem faithful_process (raw : RawEvent) :
    IsFaithful (fun plan => plan.Keeps Faithful respond ∧
      (raw.IsTold → ∃ event : Event, event.IsOf raw ∧ Audience.IsAbout event plan))
      (process raw) := by
  have hnothing : nothingMore.Keeps Faithful respond := ⟨nofun, fun _ => .done trivial⟩
  have htold (event : Event) (hevent : event.IsOf raw) : IsFaithful
      (fun plan => plan.Keeps Faithful respond ∧
        (raw.IsTold → ∃ event : Event, event.IsOf raw ∧ Audience.IsAbout event plan))
      (Audience.announce event) :=
    (Audience.faithful_announce event).mono fun plan h => ⟨h.1, fun _ => ⟨event, hevent, h.2⟩⟩
  cases raw with
  | message raw =>
    simp only [process]
    by_cases hself : raw.fromSelf = true
    · rw [if_pos hself]
      refine (IsFaithful.note _ _).bind fun _ _ => .done ⟨hnothing, fun htold => ?_⟩
      exact absurd (hself.symm.trans htold) (by decide)
    · rw [if_neg hself]
      exact (faithful_resolveMessage raw).bind fun m hm => htold (.message m) hm
  | voice raw => exact (faithful_resolveVoice raw).bind fun u hu => htold (.voice u) hu
  | member update =>
    exact (faithful_absorbMember update).bind fun _ _ => .done ⟨hnothing, fun h => h.elim⟩
  | channel update =>
    exact (faithful_absorbChannel update).bind fun _ _ => .done ⟨hnothing, fun h => h.elim⟩

end Bot

end GuildBot
