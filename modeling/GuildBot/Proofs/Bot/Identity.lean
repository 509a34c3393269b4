import GuildBot.Proofs.Bot.Kept
import GuildBot.Proofs.Bot.Push

namespace GuildBot

open Platform Std

namespace Cache

variable {κ α : Type} [Ord κ] [TransOrd κ]

/-- Whether the entries of a cache have a lifetime, and carry the ids of their keys. -/
structure Keyed (d : Duration) (idOf : α → String) (keyId : κ → String) (c : Cache κ α) : Prop where
  lifetime : c.lifetime = d
  id_eq : ∀ k e, c.entries[k]? = some e → idOf e.value = keyId k

namespace Keyed

variable {d : Duration} {idOf : α → String} {keyId : κ → String} {c c' : Cache κ α} {now : Instant}
  {key : κ} {value : α}

private theorem every (h : Keyed d idOf keyId c) : c.Every fun k value => idOf value = keyId k := h.id_eq

theorem ofDuration (d : Duration) : Keyed d.asLifetime idOf keyId (.ofDuration d : Cache κ α) :=
  ⟨rfl, every_ofDuration (fun k value => idOf value = keyId k) d⟩

theorem id_of_peek (h : Keyed d idOf keyId c) (hp : c.peek now key = some value) :
    idOf value = keyId key :=
  h.every.of_peek hp

variable [LawfulEqOrd κ] [DecidableEq κ]

theorem insert? (h : Keyed d idOf keyId c) (hi : c.insert? now key value = some c')
    (hv : idOf value = keyId key) : Keyed d idOf keyId c' :=
  ⟨(lifetime_insert? hi).trans h.lifetime, h.every.insert? hi hv⟩

theorem update (h : Keyed d idOf keyId c) (now : Instant) (key : κ) {f : α → α}
    (hf : ∀ a, idOf (f a) = idOf a) : Keyed d idOf keyId (c.update now key f).2 :=
  ⟨(lifetime_update c now key f).trans h.lifetime,
    h.every.update now key fun a ha => (hf a).trans ha⟩

end Keyed

end Cache

namespace Bot

variable {b b' : Bot}

/-- Whether everything that a bot has cached carries the id of its key. -/
structure Sound (b : Bot) : Prop where
  guilds : b.guilds.Keyed b.lifetime Guild.id id
  channels : b.channels.Keyed b.lifetime Channel.id id
  users : b.users.Keyed b.lifetime User.id UserKey.userId

theorem Sound.ofSettings (settings : Settings) (platform : Behaviour) (clock : Clock)
    (handClock wallClock : Instant) :
    (ofSettings settings platform clock handClock wallClock).Sound :=
  ⟨.ofDuration _, .ofDuration _, .ofDuration _⟩

theorem Sound.same (h : b.Sound) (hs : b'.settings = b.settings) (hg : b'.guilds = b.guilds)
    (hc : b'.channels = b.channels) (hu : b'.users = b.users) : b'.Sound := by
  have hd : b'.lifetime = b.lifetime := by rw [Bot.lifetime, hs, Bot.lifetime]
  refine ⟨?_, ?_, ?_⟩
  · rw [hd, hg]; exact h.guilds
  · rw [hd, hc]; exact h.channels
  · rw [hd, hu]; exact h.users

theorem Sound.writeAll (h : b.Sound) (lines : List Log.Line) : (b.writeAll lines).Sound :=
  h.same rfl rfl rfl rfl

theorem Sound.asked (h : b.Sound) (c : Call) : (b.asked c).Sound :=
  h.same (Kept.asked b c).settings (b.guilds_asked c) (b.channels_asked c) (b.users_asked c)

theorem Sound.askedAll (h : b.Sound) (calls : List Call) (lines : List Log.Line) :
    ((b.askedAll calls).writeAll lines).Sound :=
  h.same (Kept.askedAll b calls).settings (b.guilds_askedAll calls) (b.channels_askedAll calls)
    (b.users_askedAll calls)

end Bot

namespace Directory

open GuildBot.Bot

/-- A cache of the bot whose records have ids. -/
structure Catalog (κ α : Type) [Ord κ] [TransOrd κ] [LawfulEqOrd κ] [DecidableEq κ] extends
    Shelf κ α where
  idOf : α → String
  keyId : κ → String
  keyed : ∀ {b}, Sound b → (place.view b).Keyed b.lifetime idOf keyId
  sound_put : ∀ {b c}, Sound b → c.Keyed b.lifetime idOf keyId → Sound (place.put c b)

namespace Catalog

def guilds : Catalog String Guild where
  toShelf := .guilds
  idOf := Guild.id
  keyId := id
  keyed h := h.guilds
  sound_put h hc := ⟨hc, h.channels, h.users⟩

def channels : Catalog String Channel where
  toShelf := .channels
  idOf := Channel.id
  keyId := id
  keyed h := h.channels
  sound_put h hc := ⟨h.guilds, hc, h.users⟩

def users : Catalog UserKey User where
  toShelf := .users
  idOf := User.id
  keyId := UserKey.userId
  keyed h := h.users
  sound_put h hc := ⟨h.guilds, h.channels, hc⟩

end Catalog

/-- The id of what is learned of a record, whole or in part. -/
def learnedId {α : Type} (idOf : α → String) : Except (Partial α) α → String
  | .ok record => idOf record
  | .error p => idOf p.stub

theorem id_getD {α : Type} {idOf : α → String} {record : Option α} {id : String} {stub : α}
    (h : record.map idOf = (some id).filter (· ≠ "")) (hstub : idOf stub = id) :
    idOf (record.getD stub) = id := by
  cases record with
  | none => exact hstub
  | some record =>
    have hid : some id = some (idOf record) := (Option.filter_eq_some_iff.1 h.symm).1
    exact (Option.some.inj hid).symm

/-- A lookup keeps a bot sound and finds a record of the id, if what it learns has the id. -/
theorem Sought.sound {κ α : Type} [Ord κ] [TransOrd κ] [LawfulEqOrd κ] [DecidableEq κ]
    (cat : Catalog κ α) {key : κ} {learned : Option (Except (Partial α) α)} {calls : List Call}
    {b : Bot} {r : Option (Found α) × Bot} (h : Sought cat.toShelf key learned calls b r)
    (hb : b.Sound) (hl : ∀ x, learned = some x → learnedId cat.idOf x = cat.keyId key) :
    r.2.Sound ∧ ∀ found, r.1 = some found → found.record?.map cat.idOf = some (cat.keyId key) := by
  cases h with
  | cached record hp =>
    refine ⟨hb, ?_⟩
    rintro _ ⟨⟩
    exact congrArg some ((cat.keyed hb).id_of_peek hp)
  | fetched record c lines _ hp hr hi =>
    have hid : cat.idOf record = cat.keyId key := hl _ hr
    refine ⟨cat.sound_put (hb.askedAll calls lines) ?_, ?_⟩
    · have hd := ((Kept.askedAll b calls).trans (.writeAll _ lines)).lifetime
      rw [hd]
      exact (cat.keyed hb).insert? hi hid
    · rintro _ ⟨⟩
      exact congrArg some hid
  | full record lines _ _ _ _ => exact ⟨hb.askedAll calls lines, fun _ h => nomatch h⟩
  | partly p lines _ _ hr =>
    refine ⟨hb.askedAll calls lines, ?_⟩
    rintro _ ⟨⟩
    exact congrArg some (hl _ hr)
  | broken lines _ _ _ => exact ⟨hb.askedAll calls lines, fun _ h => nomatch h⟩

section

variable {b : Bot} (hp : Truthful b.platform)

include hp

private theorem id_of_learnGuild {id : String} {x : Except (Partial Guild) Guild}
    (hx : b.learnGuild id = some x) : learnedId Guild.id x = id := by
  obtain ⟨r, hr, rfl⟩ := Option.map_eq_some_iff.1 hx
  cases r with
  | ok g => exact hp.guild_id _ _ _ hr
  | error f => rfl

private theorem id_of_learnChannel {id : String} {x : Except (Partial Channel) Channel}
    (hx : b.learnChannel id = some x) : learnedId Channel.id x = id := by
  obtain ⟨r, hr, rfl⟩ := Option.map_eq_some_iff.1 hx
  cases r with
  | ok c => exact hp.channel_id _ _ _ hr
  | error f => rfl

private theorem id_of_learnUser {id guildId : String} {x : Except (Partial User) User}
    (hx : b.learnUser id guildId = some x) : learnedId User.id x = id := by
  unfold learnUser learnPart at hx
  cases hr : b.answer (.fetchUser id) with
  | none => simp [hr] at hx
  | some r =>
    rw [hr] at hx
    cases r with
    | error f =>
      obtain rfl := Option.some.inj hx
      rfl
    | ok u =>
      have hu : u.id = id := hp.user_id _ _ _ hr
      simp only [Option.map_some] at hx
      split at hx
      · obtain rfl := Option.some.inj hx
        exact hu
      · obtain ⟨y, hy, rfl⟩ := Option.map_eq_some_iff.1 hx
        obtain ⟨r, -, rfl⟩ := Option.map_eq_some_iff.1 hy
        cases r with
        | ok m => exact hu
        | error f => exact hu

theorem sound_guild (hb : b.Sound) (id : String) : (Flow.eval respond (guild id) b).2.Sound := by
  by_cases hid : id = ""
  · subst hid
    exact hb
  · exact (Sought.sound .guilds (sought_guild hid b) hb fun _ hx => id_of_learnGuild hp hx).1

theorem sound_channel (hb : b.Sound) (id : String) : (Flow.eval respond (channel id) b).2.Sound := by
  by_cases hid : id = ""
  · subst hid
    exact hb
  · exact (Sought.sound .channels (sought_channel hid b) hb fun _ hx => id_of_learnChannel hp hx).1

theorem id_of_channel (hb : b.Sound) {id : String} {found : Found Channel}
    (hfound : (Flow.eval respond (channel id) b).1 = some found) :
    found.record?.map Channel.id = (some id).filter (· ≠ "") := by
  by_cases hid : id = ""
  · subst hid
    rw [channel, eval_find_empty] at hfound
    cases hfound
    rfl
  · rw [Option.filter_some, if_pos (by simpa using hid)]
    exact (Sought.sound .channels (sought_channel hid b) hb
      fun _ hx => id_of_learnChannel hp hx).2 found hfound

theorem sound_user (hb : b.Sound) (id guildId : String) :
    (Flow.eval respond (user id guildId) b).2.Sound := by
  by_cases hid : id = ""
  · subst hid
    exact hb
  · exact (Sought.sound .users (sought_user hid guildId b) hb fun _ hx => id_of_learnUser hp hx).1

end

section

variable {b : Bot}

private theorem keyed_absorbed? {d : Duration} {users users' : Cache UserKey User} {now : Instant}
    {update : MemberUpdate} (hu : users.Keyed d User.id UserKey.userId)
    (h : absorbed? users now update = some users') : users'.Keyed d User.id UserKey.userId := by
  have hof : (User.ofUpdate update true).id = update.userId := User.id_updateMembership _ update
  have hnames {users : Cache UserKey User} (hu : users.Keyed d User.id UserKey.userId) :
      (users.update now ⟨update.userId, ""⟩ fun user => (user.updateNames update).1).2.Keyed d
        User.id UserKey.userId := hu.update now _ fun _ => rfl
  unfold absorbed? at h
  dsimp only at h
  split at h
  · obtain rfl := Option.some.inj h
    exact hnames (hu.update now _ fun user => user.id_update update)
  · obtain ⟨c, hi, rfl⟩ := Option.map_eq_some_iff.1 h
    exact hnames (hu.insert? hi hof)

private theorem keyed_absorbedChannel? {d : Duration} {channels channels' : Cache String Channel}
    {now : Instant} {update : ChannelUpdate} (hc : channels.Keyed d Channel.id id)
    (h : absorbedChannel? channels now update = some channels') :
    channels'.Keyed d Channel.id id := by
  unfold absorbedChannel? at h
  split at h
  · obtain rfl := Option.some.inj h
    exact hc.update now _ fun _ => rfl
  · exact hc.insert? h rfl

theorem sound_absorbMember (hb : b.Sound) (update : MemberUpdate) :
    (Flow.eval respond (absorbMember update) b).2.Sound := by
  obtain ⟨changes, lines, heval⟩ := eval_absorbMember b update
  rw [heval]
  cases hab : absorbed? b.users b.now update with
  | none => exact hb.writeAll lines
  | some users =>
    have hsound : Sound { b with users } :=
      ⟨hb.guilds, hb.channels, keyed_absorbed? hb.users hab⟩
    exact hsound.writeAll lines

theorem sound_absorbChannel (hb : b.Sound) (update : ChannelUpdate) :
    (Flow.eval respond (absorbChannel update) b).2.Sound := by
  obtain ⟨changes, lines, heval⟩ := eval_absorbChannel b update
  rw [heval]
  cases hab : absorbedChannel? b.channels b.now update with
  | none => exact hb.writeAll lines
  | some channels =>
    have hsound : Sound { b with channels } :=
      ⟨hb.guilds, keyed_absorbedChannel? hb.channels hab, hb.users⟩
    exact hsound.writeAll lines

end

end Directory

namespace Bot

open Directory

/-- A bot that no lookup can break: it is sound, its platform is truthful and answers, and what it
stores by now expires before the clock ends. -/
structure Ready (b : Bot) : Prop where
  sound : b.Sound
  truthful : Truthful b.platform
  answers : ∀ ds c, c.IsFetch → (b.platform ds c).result.isSome = true
  range : (b.now.add? b.lifetime).isSome = true

namespace Ready

variable {b b' : Bot}

theorem of_looksUp (h : b.Ready) (hl : b.LooksUp b') (hs : b'.Sound) : b'.Ready := by
  refine ⟨hs, ?_, ?_, ?_⟩
  · rw [hl.platform]; exact h.truthful
  · rw [hl.platform]; exact h.answers
  · rw [hl.now, hl.lifetime]; exact h.range

theorem writeAll (h : b.Ready) (lines : List Log.Line) : (b.writeAll lines).Ready :=
  ⟨h.sound.writeAll lines, h.truthful, h.answers, h.range⟩

private theorem isSome_learnPart (h : b.Ready) {β : Type} {c : Call} (hc : c.IsFetch)
    (purpose : String) (stub : β) : (b.learnPart c purpose stub).isSome = true := by
  rw [learnPart, Option.isSome_map]
  exact h.answers b.deeds c hc

private theorem isSome_learnUser (h : b.Ready) (id guildId : String) :
    (b.learnUser id guildId).isSome = true := by
  have hu := h.isSome_learnPart (c := .fetchUser id) trivial "getting user info" ({ id } : User)
  have hasked : (b.asked (.fetchUser id)).Ready :=
    h.of_looksUp (.asked b trivial) (h.sound.asked _)
  unfold learnUser
  split
  · split
    · rfl
    · rw [Option.isSome_map]
      exact hasked.isSome_learnPart (c := .fetchMember guildId id) trivial _ _
  · rfl
  · next hn =>
    rw [hn] at hu
    cases hu

private theorem ends_of_sought {κ α : Type} [Ord κ] [TransOrd κ] [LawfulEqOrd κ] [DecidableEq κ]
    (cat : Catalog κ α) {key : κ} {learned : Option (Except (Partial α) α)} {calls : List Call}
    {f : Action (Found α)} (h : b.Ready)
    (hs : Sought cat.toShelf key learned calls b (Flow.eval respond f b))
    (hl : learned.isSome = true)
    (hid : ∀ x, learned = some x → learnedId cat.idOf x = cat.keyId key)
    (hc : ∀ c ∈ calls, c.IsFetch) :
    Flow.Ends respond (fun _ => False) f b fun found b' =>
      b'.Ready ∧ b.LooksUp b' ∧ found.record?.map cat.idOf = some (cat.keyId key) := by
  have hlooks := hs.looksUp hc
  have hrange : (b.now.add? (cat.place.view b).lifetime).isSome = true := by
    rw [(cat.keyed h.sound).lifetime]
    exact h.range
  obtain ⟨hsound, hrecord⟩ := Sought.sound cat hs h.sound hid
  obtain ⟨found, hfound⟩ := Option.isSome_iff_exists.1 (hs.isSome hl hrange)
  exact .of_eval (Prod.ext hfound rfl) ⟨h.of_looksUp hlooks hsound, hlooks, hrecord found hfound⟩

theorem ends_guild (h : b.Ready) {id : String} (hid : id ≠ "") :
    Flow.Ends respond (fun _ => False) (guild id) b fun found b' =>
      b'.Ready ∧ b.LooksUp b' ∧ found.record?.map Guild.id = some id :=
  h.ends_of_sought .guilds (sought_guild hid b)
    (h.isSome_learnPart (c := .fetchGuild id) trivial _ _)
    (fun _ hx => id_of_learnGuild h.truthful hx) (by simp [Call.IsFetch])

theorem ends_anyGuild (h : b.Ready) (id : String) :
    Flow.Ends respond (fun _ => False) (guild id) b fun _ b' => b'.Ready := by
  by_cases hid : id = ""
  · subst hid
    exact .of_eval (eval_find_empty _ _ _ _) h
  · exact (h.ends_guild hid).mono (fun _ h => h) fun _ _ h => h.1

theorem ends_channel (h : b.Ready) (id : String) :
    Flow.Ends respond (fun _ => False) (channel id) b fun found b' =>
      b'.Ready ∧ b.LooksUp b' ∧ found.record?.map Channel.id = (some id).filter (· ≠ "") := by
  by_cases hid : id = ""
  · subst hid
    exact .of_eval (eval_find_empty _ _ _ _) ⟨h, .refl b, rfl⟩
  · have hsome : (some id).filter (· ≠ "") = some id := by simp [Option.filter, hid]
    rw [hsome]
    exact h.ends_of_sought .channels (sought_channel hid b)
      (h.isSome_learnPart (c := .fetchChannel id) trivial _ _)
      (fun _ hx => id_of_learnChannel h.truthful hx) (by simp [Call.IsFetch])

theorem ends_user (h : b.Ready) (id guildId : String) :
    Flow.Ends respond (fun _ => False) (user id guildId) b fun found b' =>
      b'.Ready ∧ b.LooksUp b' ∧ (found.record?.getD { id }).id = id := by
  by_cases hid : id = ""
  · subst hid
    exact .of_eval (eval_find_empty _ _ _ _) ⟨h, .refl b, rfl⟩
  · refine (h.ends_of_sought .users (sought_user hid guildId b) (h.isSome_learnUser id guildId)
      (fun _ hx => id_of_learnUser h.truthful hx) (b.isFetch_callsForUser id guildId)).mono
      (fun _ h => h) fun found b' ⟨hready, hlooks, hrecord⟩ => ⟨hready, hlooks, ?_⟩
    obtain ⟨u, hu, hkey⟩ := Option.map_eq_some_iff.1 hrecord
    rw [hu]
    exact hkey

end Ready

end Bot

end GuildBot
