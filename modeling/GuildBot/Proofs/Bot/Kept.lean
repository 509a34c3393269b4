import GuildBot.Proofs.Bot.Lookup
import GuildBot.Proofs.Cache.Entry

namespace GuildBot.Bot

open Platform

/-- Whether one bot has the settings and the surroundings of another. -/
structure Steady (b b' : Bot) : Prop where
  settings : b'.settings = b.settings
  platform : b'.platform = b.platform
  clock : b'.clock = b.clock
  handClock : b'.handClock = b.handClock
  wallClock : b'.wallClock = b.wallClock

namespace Steady

variable {b b' b'' : Bot}

theorem refl (b : Bot) : b.Steady b := ⟨rfl, rfl, rfl, rfl, rfl⟩

theorem trans (h : b.Steady b') (h' : b'.Steady b'') : b.Steady b'' :=
  ⟨h'.settings.trans h.settings, h'.platform.trans h.platform, h'.clock.trans h.clock,
    h'.handClock.trans h.handClock, h'.wallClock.trans h.wallClock⟩

theorem read (h : b.Steady b') (c : Clock) : b'.read c = b.read c := by
  cases c with
  | hand => exact h.handClock
  | wall => exact h.wallClock

theorem now (h : b.Steady b') : b'.now = b.now := by
  unfold Bot.now
  rw [h.clock, h.read]

theorem le_now (h : b.Steady b') : b.now.nanoseconds ≤ b'.now.nanoseconds :=
  Int.le_of_eq (congrArg Instant.nanoseconds h.now.symm)

theorem lifetime (h : b.Steady b') : b'.lifetime = b.lifetime := by
  unfold Bot.lifetime
  rw [h.settings]

end Steady

/-- Whether one bot comes from another by calls, lines in the log and what it caches. -/
structure Kept (b b' : Bot) : Prop extends b.Steady b' where
  registry : b'.registry = b.registry

namespace Kept

variable {b b' b'' : Bot}

theorem refl (b : Bot) : b.Kept b := ⟨.refl b, rfl⟩

theorem trans (h : b.Kept b') (h' : b'.Kept b'') : b.Kept b'' :=
  ⟨h.toSteady.trans h'.toSteady, h'.registry.trans h.registry⟩

theorem writeAll (b : Bot) (lines : List Log.Line) : b.Kept (b.writeAll lines) :=
  ⟨⟨rfl, rfl, rfl, rfl, rfl⟩, rfl⟩

theorem asked (b : Bot) (c : Call) : b.Kept (b.asked c) := by
  unfold Bot.asked
  split
  · exact ⟨⟨rfl, rfl, rfl, rfl, rfl⟩, rfl⟩
  · exact refl b

theorem askedAll (b : Bot) (calls : List Call) : b.Kept (b.askedAll calls) := by
  induction calls generalizing b with
  | nil => exact refl b
  | cons c calls ih => exact (asked b c).trans (ih (b.asked c))

end Kept

variable (b : Bot) (c : Call) (calls : List Call)

@[simp] theorem log_asked : (b.asked c).log = b.log := by unfold asked; split <;> rfl

@[simp] theorem guilds_askedAll : (b.askedAll calls).guilds = b.guilds := by
  induction calls generalizing b with
  | nil => rfl
  | cons c calls ih => exact (ih (b.asked c)).trans (guilds_asked b c)

@[simp] theorem channels_askedAll : (b.askedAll calls).channels = b.channels := by
  induction calls generalizing b with
  | nil => rfl
  | cons c calls ih => exact (ih (b.asked c)).trans (channels_asked b c)

@[simp] theorem users_askedAll : (b.askedAll calls).users = b.users := by
  induction calls generalizing b with
  | nil => rfl
  | cons c calls ih => exact (ih (b.asked c)).trans (users_asked b c)

/-- Whether all that one bot has done and an earlier one had not is to ask. -/
def Asks (b b' : Bot) : Prop :=
  ∃ calls : List Call, (∀ c ∈ calls, c.IsFetch) ∧ b'.deeds = b.deeds ++ calls.map .call

namespace Asks

variable {b b' b'' : Bot}

theorem of_deeds_eq (h : b'.deeds = b.deeds) : b.Asks b' := ⟨[], by simp, by simp [h]⟩

theorem trans (h : b.Asks b') (h' : b'.Asks b'') : b.Asks b'' := by
  obtain ⟨calls, hc, hd⟩ := h
  obtain ⟨calls', hc', hd'⟩ := h'
  refine ⟨calls ++ calls', ?_, ?_⟩
  · exact fun c h => (List.mem_append.1 h).elim (hc c) (hc' c)
  · rw [hd', hd, List.map_append, List.append_assoc]

theorem asked (b : Bot) {c : Call} (hc : c.IsFetch) : b.Asks (b.asked c) := by
  unfold Bot.asked
  split
  · exact ⟨[c], by simpa using hc, rfl⟩
  · exact of_deeds_eq rfl

theorem prefix_deeds (h : b.Asks b') : b.deeds <+: b'.deeds := by
  obtain ⟨calls, -, hd⟩ := h
  exact ⟨_, hd.symm⟩

end Asks

/-- Whether all that is in the log of one bot and not in that of an earlier one is hushed. -/
def Hushes (b b' : Bot) : Prop := ∃ lines, Directory.Hushed lines ∧ b'.log = b.log ++ lines

theorem Hushes.trans {b b' b'' : Bot} (h : b.Hushes b') (h' : b'.Hushes b'') : b.Hushes b'' := by
  obtain ⟨lines, hl, hg⟩ := h
  obtain ⟨lines', hl', hg'⟩ := h'
  exact ⟨lines ++ lines', hl.append hl', by rw [hg', hg, List.append_assoc]⟩

/-- Whether one bot comes from another by lookups: it has asked, and what it has written to the log
is not on the level of information. -/
structure LooksUp (b b' : Bot) : Prop extends b.Kept b' where
  asks : b.Asks b'
  hushes : b.Hushes b'

namespace LooksUp

variable {b b' b'' : Bot}

theorem refl (b : Bot) : b.LooksUp b :=
  ⟨.refl b, .of_deeds_eq rfl, [], by simp [Directory.Hushed], by simp⟩

theorem trans (h : b.LooksUp b') (h' : b'.LooksUp b'') : b.LooksUp b'' :=
  ⟨h.toKept.trans h'.toKept, h.asks.trans h'.asks, h.hushes.trans h'.hushes⟩

theorem writeAll (b : Bot) {lines : List Log.Line} (hl : Directory.Hushed lines) :
    b.LooksUp (b.writeAll lines) :=
  ⟨.writeAll b lines, .of_deeds_eq rfl, lines, hl, rfl⟩

theorem asked (b : Bot) {c : Call} (hc : c.IsFetch) : b.LooksUp (b.asked c) :=
  ⟨.asked b c, .asked b hc, [], by simp [Directory.Hushed], by simp⟩

theorem askedAll (b : Bot) {calls : List Call} (hc : ∀ c ∈ calls, c.IsFetch) :
    b.LooksUp (b.askedAll calls) := by
  induction calls generalizing b with
  | nil => exact refl b
  | cons c calls ih =>
    exact (asked b (hc c List.mem_cons_self)).trans
      (ih (b.asked c) fun c' hc' => hc c' (List.mem_cons_of_mem _ hc'))

end LooksUp

theorem deeds_prefix_asked : b.deeds <+: (b.asked c).deeds := by
  unfold asked
  split
  · exact List.prefix_append _ _
  · exact List.prefix_refl _

theorem deeds_prefix_askedAll : b.deeds <+: (b.askedAll calls).deeds := by
  induction calls generalizing b with
  | nil => exact List.prefix_refl _
  | cons c calls ih => exact (b.deeds_prefix_asked c).trans (ih (b.asked c))

theorem isFetch_callsForUser (b : Bot) (id guildId : String) :
    ∀ c ∈ b.callsForUser id guildId, c.IsFetch := by
  unfold callsForUser
  split
  · split
    · simp [Call.IsFetch]
    · simp [Call.IsFetch]
  · simp [Call.IsFetch]

end GuildBot.Bot

namespace GuildBot.Directory

open Platform Std

variable {κ α : Type} [Ord κ] [TransOrd κ]

/-- A place for a cache of the bot: only what is cached there is changed through it, and calls and
lines in the log change nothing there. -/
structure Shelf (κ α : Type) [Ord κ] [TransOrd κ] where
  place : Cache.Place Bot Lock κ α
  now_eq : ∀ b : Bot, place.now b = b.now
  view_asked : ∀ (b : Bot) (calls : List Call) (lines : List Log.Line),
    place.view ((b.askedAll calls).writeAll lines) = place.view b
  deeds_put : ∀ (c : Cache κ α) (b : Bot), (place.put c b).deeds = b.deeds
  log_put : ∀ (c : Cache κ α) (b : Bot), (place.put c b).log = b.log
  kept_put : ∀ (c : Cache κ α) (b : Bot), b.Kept (place.put c b)

namespace Shelf

def guilds : Shelf String Guild where
  place := Bot.guildPlace
  now_eq _ := rfl
  view_asked b calls _ := b.guilds_askedAll calls
  deeds_put _ _ := rfl
  log_put _ _ := rfl
  kept_put _ _ := ⟨⟨rfl, rfl, rfl, rfl, rfl⟩, rfl⟩

def channels : Shelf String Channel where
  place := Bot.channelPlace
  now_eq _ := rfl
  view_asked b calls _ := b.channels_askedAll calls
  deeds_put _ _ := rfl
  log_put _ _ := rfl
  kept_put _ _ := ⟨⟨rfl, rfl, rfl, rfl, rfl⟩, rfl⟩

def users : Shelf UserKey User where
  place := Bot.userPlace
  now_eq _ := rfl
  view_asked b calls _ := b.users_askedAll calls
  deeds_put _ _ := rfl
  log_put _ _ := rfl
  kept_put _ _ := ⟨⟨rfl, rfl, rfl, rfl, rfl⟩, rfl⟩

end Shelf

/-- All that a lookup of a record can come to: the record is cached, or it is fetched and stored, or
it is fetched and cannot be stored, or the fetch leaves a partial record, or it breaks down. -/
inductive Sought (shelf : Shelf κ α) (key : κ) (learned : Option (Except (Partial α) α))
    (calls : List Call) (b : Bot) : Option (Found α) × Bot → Prop where
  | cached (record : α) (hp : (shelf.place.view b).peek b.now key = some record) :
    Sought shelf key learned calls b (some (.ok (some record)), b)
  | fetched (record : α) (c : Cache κ α) (lines : List Log.Line) (hl : Hushed lines)
    (hp : (shelf.place.view b).peek b.now key = none) (hr : learned = some (.ok record))
    (hi : (shelf.place.view b).insert? b.now key record = some c) :
    Sought shelf key learned calls b
      (some (.ok (some record)), shelf.place.put c ((b.askedAll calls).writeAll lines))
  | full (record : α) (lines : List Log.Line) (hl : Hushed lines)
    (hp : (shelf.place.view b).peek b.now key = none) (hr : learned = some (.ok record))
    (hi : (shelf.place.view b).insert? b.now key record = none) :
    Sought shelf key learned calls b (none, (b.askedAll calls).writeAll lines)
  | partly (p : Partial α) (lines : List Log.Line) (hl : Hushed lines)
    (hp : (shelf.place.view b).peek b.now key = none) (hr : learned = some (.error p)) :
    Sought shelf key learned calls b (some (.error p), (b.askedAll calls).writeAll lines)
  | broken (lines : List Log.Line) (hl : Hushed lines)
    (hp : (shelf.place.view b).peek b.now key = none) (hr : learned = none) :
    Sought shelf key learned calls b (none, (b.askedAll calls).writeAll lines)

theorem Sought.looksUp {shelf : Shelf κ α} {key : κ} {learned : Option (Except (Partial α) α)}
    {calls : List Call} {b : Bot} {r : Option (Found α) × Bot}
    (h : Sought shelf key learned calls b r) (hc : ∀ c ∈ calls, c.IsFetch) : b.LooksUp r.2 := by
  have hasked {lines : List Log.Line} (hl : Hushed lines) :
      b.LooksUp ((b.askedAll calls).writeAll lines) :=
    (Bot.LooksUp.askedAll b hc).trans (.writeAll _ hl)
  cases h with
  | cached record _ => exact .refl b
  | fetched record c lines hl _ _ _ =>
    obtain ⟨hk, ha, lines, hl, hg⟩ := hasked hl
    exact ⟨hk.trans (shelf.kept_put _ _), ha.trans (.of_deeds_eq (shelf.deeds_put _ _)), lines, hl,
      (shelf.log_put _ _).trans hg⟩
  | full record lines hl _ _ _ => exact hasked hl
  | partly p lines hl _ _ => exact hasked hl
  | broken lines hl _ _ => exact hasked hl

/-- What a lookup finds, by what is cached and what is learned. -/
def foundOf (shelf : Shelf κ α) (key : κ) (learned : Option (Except (Partial α) α)) (b : Bot) :
    Option (Found α) :=
  match (shelf.place.view b).peek b.now key, learned with
  | some record, _ => some (.ok (some record))
  | none, some (.ok record) => ((shelf.place.view b).insert? b.now key record).map fun _ =>
    .ok (some record)
  | none, some (.error p) => some (.error p)
  | none, none => none

private theorem Sought.fst_eq {shelf : Shelf κ α} {key : κ} {learned : Option (Except (Partial α) α)}
    {calls : List Call} {b : Bot} {r : Option (Found α) × Bot}
    (h : Sought shelf key learned calls b r) : r.1 = foundOf shelf key learned b := by
  unfold foundOf
  cases h with
  | cached record hp => rw [hp]
  | fetched record c lines _ hp hr hi => rw [hp, hr]; simp [hi]
  | full record lines _ hp hr hi => rw [hp, hr]; simp [hi]
  | partly p lines _ hp hr => rw [hp, hr]
  | broken lines _ hp hr => rw [hp, hr]

/-- A lookup that learns something finds something, as long as what it learns can be stored. -/
theorem Sought.isSome {shelf : Shelf κ α} {key : κ} {learned : Option (Except (Partial α) α)}
    {calls : List Call} {b : Bot} {r : Option (Found α) × Bot}
    (h : Sought shelf key learned calls b r) (hl : learned.isSome = true)
    (hr : (b.now.add? (shelf.place.view b).lifetime).isSome = true) : r.1.isSome = true := by
  cases h with
  | cached record _ => rfl
  | fetched record c lines _ _ _ _ => rfl
  | full record lines _ _ _ hi =>
    rw [← Cache.insert?_isSome_iff _ _ key record, hi] at hr
    cases hr
  | partly p lines _ _ _ => rfl
  | broken lines _ _ hn =>
    rw [hn] at hl
    cases hl

private theorem sought_find (shelf : Shelf κ α) (key : κ) {fetch : Action (Except (Partial α) α)}
    {learned : Option (Except (Partial α) α)} {calls : List Call} {b : Bot}
    (hfetch : ∃ lines, Hushed lines ∧ Flow.eval Bot.respond fetch b =
      (learned, (b.askedAll calls).writeAll lines)) {id : String} (hid : id ≠ "") :
    Sought shelf key learned calls b
      (Flow.eval Bot.respond (find shelf.place id key fetch) b) := by
  cases hp : (shelf.place.view b).peek b.now key with
  | some record =>
    rw [eval_find_of_peek shelf.place key fetch b hid (by rw [shelf.now_eq]; exact hp)]
    exact .cached record hp
  | none =>
    obtain ⟨lines, hl, heval⟩ := hfetch
    have hnow : ((b.askedAll calls).writeAll lines).now = b.now :=
      ((Bot.Kept.askedAll b calls).trans (.writeAll _ lines)).now
    rw [eval_find_of_peek_none shelf.place key fetch b hid (by rw [shelf.now_eq]; exact hp), heval]
    unfold settle
    dsimp only
    rw [shelf.view_asked, shelf.now_eq, hnow]
    rcases hr : learned with _ | p | record
    · exact .broken lines hl hp rfl
    · exact .partly p lines hl hp rfl
    · cases hi : (shelf.place.view b).insert? b.now key record with
      | none =>
        simp only [hi]
        exact .full record lines hl hp rfl hi
      | some c =>
        simp only [hi]
        exact .fetched record c lines hl hp rfl hi

theorem sought_guild {id : String} (hid : id ≠ "") (b : Bot) :
    Sought .guilds id (b.learnGuild id) [.fetchGuild id] b
      (Flow.eval Bot.respond (guild id) b) :=
  sought_find .guilds id (eval_note_fetchPart b "Fetching guild info ..." (.fetchGuild id)
    "guild info" "getting guild info" ({ id } : Guild)) hid

theorem sought_channel {id : String} (hid : id ≠ "") (b : Bot) :
    Sought .channels id (b.learnChannel id) [.fetchChannel id] b
      (Flow.eval Bot.respond (channel id) b) :=
  sought_find .channels id (eval_note_fetchPart b "Fetching channel info ..." (.fetchChannel id)
    "channel info" "getting channel info" ({ id } : Channel)) hid

theorem sought_user {id : String} (hid : id ≠ "") (guildId : String) (b : Bot) :
    Sought .users ⟨id, guildId⟩ (b.learnUser id guildId) (b.callsForUser id guildId) b
      (Flow.eval Bot.respond (user id guildId) b) :=
  sought_find .users ⟨id, guildId⟩ (eval_fetchUser b id guildId) hid

theorem eval_channel_registry (id : String) (b : Bot) (registry : List Entry) :
    (Flow.eval Bot.respond (channel id) { b with registry }).1 =
      (Flow.eval Bot.respond (channel id) b).1 := by
  by_cases hid : id = ""
  · subst hid
    rfl
  · rw [(sought_channel hid _).fst_eq, (sought_channel hid b).fst_eq]
    rfl

theorem looksUp_guild (id : String) (b : Bot) :
    b.LooksUp (Flow.eval Bot.respond (guild id) b).2 := by
  by_cases hid : id = ""
  · subst hid
    exact .refl b
  · exact (sought_guild hid b).looksUp (by simp [Call.IsFetch])

theorem looksUp_channel (id : String) (b : Bot) :
    b.LooksUp (Flow.eval Bot.respond (channel id) b).2 := by
  by_cases hid : id = ""
  · subst hid
    exact .refl b
  · exact (sought_channel hid b).looksUp (by simp [Call.IsFetch])

theorem looksUp_user (id guildId : String) (b : Bot) :
    b.LooksUp (Flow.eval Bot.respond (user id guildId) b).2 := by
  by_cases hid : id = ""
  · subst hid
    exact .refl b
  · exact (sought_user hid guildId b).looksUp (b.isFetch_callsForUser id guildId)

theorem eval_channels_snd (guildId : String) (b : Bot) :
    (Flow.eval Bot.respond (channels guildId) b).2 =
      if guildId = "" then b else b.asked (.fetchGuildChannels guildId) := by
  by_cases hg : guildId = ""
  · subst hg
    rfl
  · rw [eval_channels b hg, if_neg hg]

end GuildBot.Directory
