import GuildBot.Proofs.Bot.Kept
import GuildBot.Proofs.Change.Update

namespace GuildBot.Directory

open Platform Std

variable (b : Bot)

private theorem noteChanges_cons (what id : String) (c : Change) (rest : List Change) :
    noteChanges what id (c :: rest) =
      (Action.note .info s!"{what} {id} changed `{c.property}` from `{c.old}` to `{c.new}`.").bind
        fun _ => noteChanges what id rest := rfl

def changeLines (what id : String) (changes : List Change) : List Log.Line :=
  changes.map fun c => ⟨.info, s!"{what} {id} changed `{c.property}` from `{c.old}` to `{c.new}`."⟩

private theorem eval_noteChanges (what id : String) (changes : List Change) :
    Flow.eval Bot.respond (noteChanges what id changes) b =
      (some (), b.writeAll (changeLines what id changes)) := by
  induction changes generalizing b with
  | nil => exact congrArg (some (), ·) (Bot.writeAll_nil b).symm
  | cons change rest ih =>
    rw [noteChanges_cons, Flow.eval_bind, Action.eval_note]
    exact (ih _).trans (by rw [Bot.writeAll_writeAll]; rfl)

private theorem unhindered_noteChanges (what id : String) (changes : List Change) {uses : List Lock} :
    (noteChanges what id changes).Unhindered uses 0 := by
  induction changes with
  | nil => exact .done ()
  | cons change rest ih =>
    rw [noteChanges_cons]
    exact (Action.unhindered_note _ _).bind fun _ => ih

section

variable {κ α : Type} [Ord κ] [TransOrd κ] (place : Cache.Place Bot Lock κ α) (key : κ)
  (apply : α → α × List Change)

private theorem eval_revise :
    Flow.eval Bot.respond (revise place key apply) b =
      (some (((place.view b).peek (place.now b) key).map fun record => (apply record).2),
        place.put ((place.view b).update (place.now b) key fun record => (apply record).1).2 b) := rfl

private theorem unhindered_revise {uses : List Lock} : (revise place key apply).Unhindered uses 0 :=
  .act _ fun _ => .done _

end

def absorbed? (users : Cache UserKey User) (now : Instant) (update : MemberUpdate) :
    Option (Cache UserKey User) :=
  let key : UserKey := ⟨update.userId, update.guildId⟩
  let names (users : Cache UserKey User) : Cache UserKey User :=
    (users.update now ⟨update.userId, ""⟩ fun user => (user.updateNames update).1).2
  if (users.peek now key).isSome then
    some (names (users.update now key fun user => (user.update update).1).2)
  else (users.insert? now key (User.ofUpdate update true)).map names

section

variable {users users' : Cache UserKey User} {now : Instant} {update : MemberUpdate}

theorem lifetime_absorbed? (h : absorbed? users now update = some users') :
    users'.lifetime = users.lifetime := by
  unfold absorbed? at h
  dsimp only at h
  split at h
  · cases h
    rw [Cache.lifetime_update, Cache.lifetime_update]
  · obtain ⟨c, hi, rfl⟩ := Option.map_eq_some_iff.1 h
    rw [Cache.lifetime_update, Cache.lifetime_insert? hi]

/-- Only a record that is not live may be impossible to store. -/
theorem peek_of_absorbed?_eq_none (h : absorbed? users now update = none) :
    users.peek now ⟨update.userId, update.guildId⟩ = none := by
  unfold absorbed? at h
  dsimp only at h
  split at h
  · cases h
  · next hdead => exact Option.not_isSome_iff_eq_none.1 hdead

variable (h : absorbed? users now update = some users') {k : UserKey} (hk : k.guildId ≠ "")

include h hk

theorem absorbed?_entry_of_ne (hne : k ≠ ⟨update.userId, update.guildId⟩) :
    users'.entries[k]? = users.entries[k]? := by
  have hnames : k ≠ ⟨update.userId, ""⟩ := fun heq => hk (congrArg UserKey.guildId heq)
  unfold absorbed? at h
  dsimp only at h
  split at h
  · cases h
    rw [Cache.getElem?_update, if_neg hnames, Cache.getElem?_update, if_neg hne]
  · obtain ⟨c, hi, rfl⟩ := Option.map_eq_some_iff.1 h
    rw [Cache.getElem?_update, if_neg hnames, Cache.getElem?_insert? hi, if_neg hne]

/-- After a pushed update its user has the roles that were pushed. The record expires when a live one
would have, or else a lifetime from then. -/
theorem absorbed?_entry (hkey : k = ⟨update.userId, update.guildId⟩) {e : Cache.Entry User}
    (he : users'.entries[k]? = some e) :
    e.value.roles update.guildId = update.member.roles ∧ (e.expiry = users.expiryFrom now ∨
      ∃ e₀, users.entries[k]? = some e₀ ∧ now.nanoseconds < e₀.expiry.nanoseconds ∧
        e.expiry = e₀.expiry) := by
  have hnames : k ≠ ⟨update.userId, ""⟩ := fun heq => hk (congrArg UserKey.guildId heq)
  unfold absorbed? at h
  dsimp only at h
  rw [← hkey] at h
  split at h
  · next hlive =>
    cases h
    rw [Cache.getElem?_update, if_neg hnames, Cache.getElem?_update, if_pos rfl] at he
    obtain ⟨e₀, he₀, rfl⟩ := Option.map_eq_some_iff.1 he
    obtain ⟨record, hpeek⟩ := Option.isSome_iff_exists.1 hlive
    obtain ⟨e₁, he₁, hbefore, -⟩ := Cache.peek_eq_some_iff.1 hpeek
    obtain rfl := Option.some.inj (he₀.symm.trans he₁)
    rw [if_pos (Instant.before_iff.2 hbefore)]
    exact ⟨User.roles_updateMembership _ update, .inr ⟨e₀, he₀, hbefore, rfl⟩⟩
  · obtain ⟨c, hi, rfl⟩ := Option.map_eq_some_iff.1 h
    rw [Cache.getElem?_update, if_neg hnames, Cache.getElem?_insert? hi, if_pos rfl] at he
    cases he
    exact ⟨User.roles_updateMembership _ update, .inl rfl⟩

end

theorem eval_absorbMember_of_peek {update : MemberUpdate} {record : User}
    (hp : b.users.peek b.now ⟨update.userId, update.guildId⟩ = some record) :
    ∃ users, absorbed? b.users b.now update = some users ∧
      Flow.eval Bot.respond (absorbMember update) b = (some (record.update update).2,
        ({ b with users } : Bot).writeAll
          (changeLines "User" update.userId (record.update update).2)) := by
  have hpeek : (Bot.userPlace.view b).peek (Bot.userPlace.now b) ⟨update.userId, update.guildId⟩ =
    some record := hp
  refine ⟨_, by rw [absorbed?, hp, Option.isSome_some, if_pos rfl], ?_⟩
  rw [absorbMember]
  simp only [Flow.bind_def, Flow.eval_bind, eval_revise, Flow.pure_def, hpeek, Option.map_some,
    Option.isNone_some, Bool.false_eq_true, if_false, Option.getD_some, eval_noteChanges]
  rfl

theorem eval_absorbMember (update : MemberUpdate) :
    ∃ changes lines, Flow.eval Bot.respond (absorbMember update) b =
      match absorbed? b.users b.now update with
      | some users => (some changes, ({ b with users } : Bot).writeAll lines)
      | none => (none, b.writeAll lines) := by
  cases hp : b.users.peek b.now ⟨update.userId, update.guildId⟩ with
  | some record =>
    obtain ⟨users, habsorbed, heval⟩ := eval_absorbMember_of_peek b hp
    rw [habsorbed]
    exact ⟨_, _, heval⟩
  | none =>
    have hpeek : (Bot.userPlace.view b).peek (Bot.userPlace.now b)
      ⟨update.userId, update.guildId⟩ = none := hp
    rw [absorbMember, absorbed?]
    simp only [Flow.bind_def, Flow.eval_bind, eval_revise, Flow.pure_def, hp]
    simp only [hpeek, Option.map_none, Option.isNone_none, if_true, Flow.eval_bind, eval_revise,
      Option.isSome_none, Bool.false_eq_true, if_false, Option.getD_none, Action.eval_note,
      Cache.Place.eval_store, eval_noteChanges, Cache.update_of_peek_eq_none hpeek]
    have hself : Bot.userPlace.put (Bot.userPlace.view b) b = b := rfl
    have hlog (c : Cache UserKey User) (b : Bot) (lines : List Log.Line) :
      Bot.userPlace.put c (b.writeAll lines) = (Bot.userPlace.put c b).writeAll lines := rfl
    have hinsert (lines : List Log.Line) :
      (Bot.userPlace.view (b.writeAll lines)).insert? (Bot.userPlace.now (b.writeAll lines)) =
        b.users.insert? b.now := rfl
    rw [hself, hinsert]
    cases b.users.insert? b.now ⟨update.userId, update.guildId⟩ (User.ofUpdate update true) with
    | none => exact ⟨[], _, rfl⟩
    | some c =>
      simp only [hlog, Bot.writeAll_writeAll, Flow.eval_done]
      exact ⟨_, _, rfl⟩

theorem unhindered_absorbMember (update : MemberUpdate) {uses : List Lock} :
    (absorbMember update).Unhindered uses 0 := by
  apply (unhindered_revise Bot.userPlace _ _).bind (n := 0)
  intro changes
  have hlast : ∀ x : PUnit, (do
      let identity ← revise Bot.userPlace ⟨update.userId, ""⟩ (·.updateNames update)
      let changes := changes.getD (identity.getD [])
      noteChanges "User" update.userId changes
      return changes : Action (List Change)).Unhindered uses 0 := fun _ =>
    (unhindered_revise Bot.userPlace _ _).bind fun identity =>
      (unhindered_noteChanges _ _ _).bind fun _ => .done _
  by_cases hc : changes.isNone = true
  · simp only [hc, if_true]
    exact (Action.unhindered_note _ _).bind fun _ =>
      (Bot.userPlace.unhindered_store _ _).bind hlast
  · simp only [hc]
    exact hlast ⟨⟩

def absorbedChannel? (channels : Cache String Channel) (now : Instant) (update : ChannelUpdate) :
    Option (Cache String Channel) :=
  if (channels.peek now update.channelId).isSome then
    some (channels.update now update.channelId fun channel => (channel.update update).1).2
  else channels.insert? now update.channelId { id := update.channelId, name := update.name }

theorem eval_absorbChannel (update : ChannelUpdate) :
    ∃ changes lines, Flow.eval Bot.respond (absorbChannel update) b =
      match absorbedChannel? b.channels b.now update with
      | some channels => (some changes, ({ b with channels } : Bot).writeAll lines)
      | none => (none, b.writeAll lines) := by
  rw [absorbChannel, absorbedChannel?]
  simp only [Flow.bind_def, Flow.eval_bind, eval_revise, Flow.pure_def]
  cases hp : b.channels.peek b.now update.channelId with
  | some record =>
    have hpeek : (Bot.channelPlace.view b).peek (Bot.channelPlace.now b) update.channelId =
      some record := hp
    simp only [hpeek, Option.map_some, Option.isNone_some, Bool.false_eq_true, if_false,
      Flow.eval_bind, Option.isSome_some, if_true, Option.getD_some, eval_noteChanges]
    exact ⟨_, _, rfl⟩
  | none =>
    have hpeek : (Bot.channelPlace.view b).peek (Bot.channelPlace.now b) update.channelId = none := hp
    simp only [hpeek, Option.map_none, Option.isNone_none, if_true, Flow.eval_bind,
      Option.isSome_none, Bool.false_eq_true, if_false, Option.getD_none, Action.eval_note,
      Cache.Place.eval_store, eval_noteChanges, Cache.update_of_peek_eq_none hpeek]
    have hself : Bot.channelPlace.put (Bot.channelPlace.view b) b = b := rfl
    have hlog (c : Cache String Channel) (lines : List Log.Line) :
      Bot.channelPlace.put c (b.writeAll lines) = (Bot.channelPlace.put c b).writeAll lines := rfl
    have hinsert (lines : List Log.Line) :
      (Bot.channelPlace.view (b.writeAll lines)).insert? (Bot.channelPlace.now (b.writeAll lines)) =
        b.channels.insert? b.now := rfl
    rw [hself, hinsert]
    cases b.channels.insert? b.now update.channelId _ with
    | none => exact ⟨[], _, rfl⟩
    | some c =>
      simp only [hlog, Bot.writeAll_writeAll, Flow.eval_done]
      exact ⟨_, _, rfl⟩

theorem unhindered_absorbChannel (update : ChannelUpdate) {uses : List Lock} :
    (absorbChannel update).Unhindered uses 0 := by
  apply (unhindered_revise Bot.channelPlace _ _).bind (n := 0)
  intro changes
  have hlast : ∀ x : PUnit, (do
      noteChanges "Channel" update.channelId (changes.getD [])
      return changes.getD [] : Action (List Change)).Unhindered uses 0 := fun _ =>
    (unhindered_noteChanges _ _ _).bind fun _ => .done _
  by_cases hc : changes.isNone = true
  · simp only [hc, if_true]
    exact (Action.unhindered_note _ _).bind fun _ =>
      (Bot.channelPlace.unhindered_store _ _).bind hlast
  · simp only [hc]
    exact hlast ⟨⟩

theorem kept_absorbMember (update : MemberUpdate) :
    let b' := (Flow.eval Bot.respond (absorbMember update) b).2
    b.Kept b' ∧ b'.deeds = b.deeds := by
  obtain ⟨changes, lines, heval⟩ := eval_absorbMember b update
  dsimp only
  rw [heval]
  cases absorbed? b.users b.now update with
  | none => exact ⟨.writeAll b lines, rfl⟩
  | some users => exact ⟨⟨⟨rfl, rfl, rfl, rfl, rfl⟩, rfl⟩, rfl⟩

theorem kept_absorbChannel (update : ChannelUpdate) :
    let b' := (Flow.eval Bot.respond (absorbChannel update) b).2
    b.Kept b' ∧ b'.deeds = b.deeds := by
  obtain ⟨changes, lines, heval⟩ := eval_absorbChannel b update
  dsimp only
  rw [heval]
  cases absorbedChannel? b.channels b.now update with
  | none => exact ⟨.writeAll b lines, rfl⟩
  | some channels => exact ⟨⟨⟨rfl, rfl, rfl, rfl, rfl⟩, rfl⟩, rfl⟩

end GuildBot.Directory
