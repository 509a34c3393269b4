import GuildBot.Proofs.Bot.Act
import GuildBot.Proofs.Bot.Identity
import GuildBot.Proofs.Bot.Process
import GuildBot.Proofs.Cache.Lifetime

/-!
# What one message can make the bot do

Every lookup finds something, if only a partial record, unless what it has fetched cannot be stored. So the
listeners are told of every message that the bot did not write itself. What they do about it is one act.
-/

namespace GuildBot

open Platform Directory Std

namespace Bot

variable {b b' : Bot}

/-- Whether a bot comes from another by lookups that end, and caches for as long. -/
private structure Resolving (b₀ b : Bot) : Prop where
  looksUp : b₀.LooksUp b
  guilds : b.guilds.lifetime = b₀.guilds.lifetime
  channels : b.channels.lifetime = b₀.channels.lifetime
  users : b.users.lifetime = b₀.users.lifetime

namespace Resolving

variable {b₀ : Bot}

private theorem refl (b : Bot) : b.Resolving b := ⟨.refl b, rfl, rfl, rfl⟩

private theorem asked (h : b₀.Resolving b) {calls : List Call} (hc : ∀ c ∈ calls, c.IsFetch)
    {lines : List Log.Line} (hl : Hushed lines) :
    b₀.Resolving ((b.askedAll calls).writeAll lines) where
  looksUp := h.looksUp.trans ((LooksUp.askedAll b hc).trans (.writeAll _ hl))
  guilds := (congrArg Cache.lifetime (b.guilds_askedAll calls)).trans h.guilds
  channels := (congrArg Cache.lifetime (b.channels_askedAll calls)).trans h.channels
  users := (congrArg Cache.lifetime (b.users_askedAll calls)).trans h.users

private theorem isAnswered (h : b₀.Resolving b) (ha : b₀.IsAnswered) : b.IsAnswered := by
  rw [IsAnswered, h.looksUp.platform]
  exact ha

end Resolving

namespace IsAnswered

private theorem isSome_learnPart (h : b.IsAnswered) {β : Type} (c : Call) (purpose : String)
    (stub : β) : (b.learnPart c purpose stub).isSome = true := by
  rw [learnPart, Option.isSome_map]
  exact h b.deeds c

private theorem isSome_learnUser (h : b.IsAnswered) (id guildId : String) :
    (b.learnUser id guildId).isSome = true := by
  have hu := h.isSome_learnPart (.fetchUser id) "getting user info" ({ id } : User)
  have hasked : (b.asked (.fetchUser id)).IsAnswered := by
    rw [IsAnswered, (Kept.asked b _).platform]
    exact h
  unfold learnUser
  split
  · split
    · rfl
    · rw [Option.isSome_map]
      exact hasked.isSome_learnPart (.fetchMember guildId id) _ _
  · rfl
  · next hn =>
    rw [hn] at hu
    cases hu

section

variable {b₀ : Bot} {κ α : Type} [Ord κ] [TransOrd κ] {shelf : Shelf κ α} {key : κ}
  {learned : Option (Except (Partial α) α)} {calls : List Call} {f : Action (Found α)}

private theorem ends_of_sought (hb : b₀.Resolving b)
    (hs : Sought shelf key learned calls b (Flow.eval respond f b)) (hl : learned.isSome = true)
    (hc : ∀ c ∈ calls, c.IsFetch)
    (hrange : b₀.InRange → (b.now.add? (shelf.place.view b).lifetime).isSome = true)
    (hput : ∀ c (b : Bot), b₀.Resolving b → c.lifetime = (shelf.place.view b).lifetime →
      b₀.LooksUp (shelf.place.put c b) → b₀.Resolving (shelf.place.put c b)) :
    Flow.Ends respond (fun b' => ¬b₀.InRange ∧ b₀.LooksUp b') f b fun _ b' => b₀.Resolving b' := by
  have hlooks := hb.looksUp.trans (hs.looksUp hc)
  unfold Flow.Ends
  generalize Flow.eval respond f b = r at hs hlooks ⊢
  cases hs with
  | cached record hp => exact hb
  | fetched record c lines hl _ _ hi =>
    refine hput c _ (hb.asked hc hl) ?_ hlooks
    rw [shelf.view_asked, Cache.lifetime_insert? hi]
  | full record lines _ _ _ hi =>
    refine ⟨fun h => ?_, hlooks⟩
    have hfits := hrange h
    rw [← Cache.insert?_isSome_iff _ _ key record, hi] at hfits
    cases hfits
  | partly p lines hl _ _ => exact hb.asked hc hl
  | broken lines _ _ hn =>
    rw [hn] at hl
    cases hl

end

section

variable {b₀ : Bot} (ha : b₀.IsAnswered) (hb : b₀.Resolving b)

include ha hb

private theorem ends_guild (id : String) :
    Flow.Ends respond (fun b' => ¬b₀.InRange ∧ b₀.LooksUp b') (guild id) b fun _ b' =>
      b₀.Resolving b' := by
  by_cases hid : id = ""
  · subst hid
    exact .of_eval (eval_find_empty _ _ _ _) hb
  · refine ends_of_sought hb (sought_guild hid b)
      ((hb.isAnswered ha).isSome_learnPart (.fetchGuild id) _ _) (by simp [Call.IsFetch]) ?_ ?_
    · intro h
      rw [hb.looksUp.now, show (Shelf.guilds.place.view b).lifetime = _ from hb.guilds]
      exact h.guilds
    · exact fun c b hb hc hlooks => ⟨hlooks, hc.trans hb.guilds, hb.channels, hb.users⟩

private theorem ends_channel (id : String) :
    Flow.Ends respond (fun b' => ¬b₀.InRange ∧ b₀.LooksUp b') (channel id) b fun _ b' =>
      b₀.Resolving b' := by
  by_cases hid : id = ""
  · subst hid
    exact .of_eval (eval_find_empty _ _ _ _) hb
  · refine ends_of_sought hb (sought_channel hid b)
      ((hb.isAnswered ha).isSome_learnPart (.fetchChannel id) _ _) (by simp [Call.IsFetch]) ?_ ?_
    · intro h
      rw [hb.looksUp.now, show (Shelf.channels.place.view b).lifetime = _ from hb.channels]
      exact h.channels
    · exact fun c b hb hc hlooks => ⟨hlooks, hb.guilds, hc.trans hb.channels, hb.users⟩

private theorem ends_user (id guildId : String) :
    Flow.Ends respond (fun b' => ¬b₀.InRange ∧ b₀.LooksUp b') (user id guildId) b fun _ b' =>
      b₀.Resolving b' := by
  by_cases hid : id = ""
  · subst hid
    exact .of_eval (eval_find_empty _ _ _ _) hb
  · refine ends_of_sought hb (sought_user hid guildId b)
      ((hb.isAnswered ha).isSome_learnUser id guildId) (b.isFetch_callsForUser id guildId) ?_ ?_
    · intro h
      rw [hb.looksUp.now, show (Shelf.users.place.view b).lifetime = _ from hb.users]
      exact h.users
    · exact fun c b hb hc hlooks => ⟨hlooks, hb.guilds, hb.channels, hc.trans hb.users⟩

end

private theorem ends_resolveMessage (ha : b.IsAnswered) (raw : RawMessage) :
    Flow.Ends respond (fun b' => ¬b.InRange ∧ b.LooksUp b') (resolveMessage raw) b fun m b' =>
      b.LooksUp b' ∧ m.id = raw.messageId ∧ m.content = raw.content := by
  refine (Bot.ends_resolveMessage (I := b.Resolving) (C := fun _ => True) raw ?_
    (fun _ hb => ha.ends_user hb _ _) (fun _ hb => ha.ends_guild hb _) ?_ (.refl b)).mono
      (fun _ h => h) fun _ _ ⟨hb, hid, hcontent, _⟩ => ⟨hb.looksUp, hid, hcontent⟩
  · intro b' lines hl hb
    have hwritten : b.Resolving ((b'.askedAll []).writeAll lines) := hb.asked (by simp) hl
    exact hwritten
  · exact fun b' hb => (ha.ends_channel hb _).mono (fun _ h => h) fun _ _ h => ⟨h, trivial⟩

end IsAnswered

private theorem Sound.channel_of_resolveMessage (hs : b.Sound) (ht : Truthful b.platform)
    {raw : RawMessage} {m : Message} (heval : Flow.eval respond (resolveMessage raw) b = (some m, b')) :
    m.channel.id = raw.channelId := by
  let I (b : Bot) : Prop := b.Sound ∧ Truthful b.platform
  have hkeeps {b b' : Bot} (hb : I b) (hs : b'.Sound) (hlooks : b.LooksUp b') : I b' :=
    ⟨hs, hlooks.platform ▸ hb.2⟩
  have hends := Bot.ends_resolveMessage (I := I) (P := fun _ => True)
    (C := fun channel => channel.map Channel.id = (some raw.channelId).filter (· ≠ "")) raw
    (fun _ lines _ hb => ⟨hb.1.writeAll lines, hb.2⟩)
    (fun b hb => .of_value trivial fun _ _ => hkeeps hb (sound_user hb.2 hb.1 _ _) (looksUp_user _ _ b))
    (fun b hb => .of_value trivial fun _ _ => hkeeps hb (sound_guild hb.2 hb.1 _) (looksUp_guild _ b))
    (fun b hb => .of_value trivial fun found hfound => ⟨hkeeps hb (sound_channel hb.2 hb.1 _)
      (looksUp_channel _ b), id_of_channel hb.2 hb.1 hfound⟩) ⟨hs, ht⟩
  unfold Flow.Ends at hends
  rw [heval] at hends
  obtain ⟨-, -, -, channel, hid, hchannel⟩ := hends
  rw [hchannel]
  exact id_getD hid rfl

private theorem process_message {raw : RawMessage} (hself : raw.fromSelf = false) :
    process (.message raw) =
      (resolveMessage raw).bind fun m => Audience.announce (.message m) := by
  rw [process, hself]
  rfl

private theorem ends_of_unresolved {raw : RawMessage} {b₁ : Bot} (hself : raw.fromSelf = false)
    (hresolve : Flow.eval respond (resolveMessage raw) b = (none, b₁)) :
    (Machine.alone b (work (.message raw)) none).Ends respond .panicked b₁ := by
  have heval : Flow.eval respond (process (.message raw)) b = (none, b₁) := by
    rw [process_message hself, Flow.eval_bind, hresolve]
  have hends := Machine.ends_ofPlan respond b (obeys_process (.message raw)) fun plan s hplan => by
    rw [heval] at hplan
    cases hplan
  rwa [Flow.eval_bind, heval] at hends

/-- When a message has been resolved, the listeners are told of it, of which at most one acts. -/
private theorem ends_of_resolved {raw : RawMessage} {m : Message} {b₁ : Bot}
    (hself : raw.fromSelf = false)
    (hresolve : Flow.eval respond (resolveMessage raw) b = (some m, b₁)) (hstock : b₁.HasStock)
    (hb : b₁.IsAnswered) :
    let act := Act.ofMessage m b₁.words
    ∃ b', (Machine.alone b (work (.message raw)) none).Ends respond (.value (act.failed b₁ m)) b' ∧
      b'.deeds = (b₁.askedAll (act.calls b₁ m ++ act.flags b₁ m)).deeds := by
  obtain ⟨b', htold, hmakes⟩ := Audience.eval_announce_message hstock hb m
  have heval : Flow.eval respond ((process (.message raw)).bind Plan.inTurn) b =
      (some ((Act.ofMessage m b₁.words).failed b₁ m), b') := by
    rw [process_message hself, Flow.bind_bind, Flow.eval_bind, hresolve]
    exact htold
  have hsole (plan : Audience.Telling (List String)) (s : Bot)
      (hplan : Flow.eval respond (process (.message raw)) b = (some plan, s)) : plan.HasSole := by
    rw [process_message hself, Flow.eval_bind, hresolve] at hplan
    exact Audience.hasSole_announced hstock hplan
  have hends := Machine.ends_ofPlan respond b (obeys_process (.message raw)) hsole
  rw [heval] at hends
  exact ⟨b', hends, hmakes.deeds⟩

/-- Processing a message that the bot did not write itself comes to an end, and what is done about it
is one act, of the dice or of the ping listener. Only when the clock would end before that expires which is
fetched for the message, processing may panic, and no listener is told. -/
theorem one_act_for_message (raw : RawMessage) (hstock : b.HasStock) (hb : b.IsAnswered)
    (hself : raw.fromSelf = false) :
    (∃ m b₁ b', Flow.eval respond (resolveMessage raw) b = (some m, b₁) ∧ b.LooksUp b₁ ∧
      m.id = raw.messageId ∧ m.content = raw.content ∧
      (b.Sound → Truthful b.platform → m.channel.id = raw.channelId) ∧
      (Listener.answerRoll tools m = pure (.ok ()) ∨ Listener.answerPing tools m = pure (.ok ())) ∧
      let act := Act.ofMessage m b₁.words
      (Machine.alone b (work (.message raw)) none).Ends respond (.value (act.failed b₁ m)) b' ∧
        b'.deeds = (b₁.askedAll (act.calls b₁ m ++ act.flags b₁ m)).deeds) ∨
    ¬b.InRange ∧ ∃ b', b.LooksUp b' ∧
      (Machine.alone b (work (.message raw)) none).Ends respond .panicked b' := by
  have hresolves := hb.ends_resolveMessage raw
  unfold Flow.Ends at hresolves
  rcases hresolve : Flow.eval respond (resolveMessage raw) b with ⟨_ | m, b₁⟩
  · rw [hresolve] at hresolves
    obtain ⟨hrange, hlooks⟩ := hresolves
    exact .inr ⟨hrange, b₁, hlooks, ends_of_unresolved hself hresolve⟩
  · rw [hresolve] at hresolves
    obtain ⟨hlooks, hid, hcontent⟩ := hresolves
    have hstock₁ : b₁.HasStock := by
      rw [HasStock, hlooks.registry]
      exact hstock
    have hb₁ : b₁.IsAnswered := by
      rw [IsAnswered, hlooks.platform]
      exact hb
    obtain ⟨b', hends, hdeeds⟩ := ends_of_resolved hself hresolve hstock₁ hb₁
    exact .inl ⟨m, b₁, b', rfl, hlooks, hid, hcontent,
      fun hs ht => hs.channel_of_resolveMessage ht hresolve,
      Audience.answerRoll_or_answerPing_idle m, hends, hdeeds⟩

/-- A platform that refuses every call. -/
def rebuffing : Behaviour := fun _ _ => { result := some (.error (.of (.other "forbidden"))) }

def rebuffedBot : Bot := (ofSettings { token := "t" } rebuffing .hand ⟨0⟩ ⟨0⟩).registerStock.2

def ping : RawMessage :=
  { channelId := "1", authorId := "42", messageId := "2", content := "!ping" }

/-- The ping listener fails when it cannot react, and neither can its failure be flagged. -/
theorem one_act_for_message_ping :
    rebuffedBot.HasStock ∧ rebuffedBot.IsAnswered ∧ ping.fromSelf = false ∧
    ∃ b₁ b', rebuffedBot.LooksUp b₁ ∧
      (Machine.alone rebuffedBot (work (.message ping)) none).Ends respond (.value ["ping"]) b' ∧
      b'.deeds = b₁.deeds ++ [.call (.addReaction "1" "2" "👍"), .call (.addReaction "1" "2" "🤯")] := by
  have hstock : rebuffedBot.HasStock := rfl
  have hb : rebuffedBot.IsAnswered := fun _ _ => rfl
  have hrange : rebuffedBot.InRange := ⟨by decide, by decide, by decide⟩
  have hsound : rebuffedBot.Sound :=
    (Sound.ofSettings { token := "t" } rebuffing .hand ⟨0⟩ ⟨0⟩).same rfl rfl rfl rfl
  have htruthful : Truthful rebuffing := by
    constructor <;> exact fun _ _ _ h => by cases h
  obtain ⟨m, b₁, b', -, hlooks, hid, hcontent, hchannel, -, hends, hdeeds⟩ | ⟨hnot, -⟩ :=
    one_act_for_message ping hstock hb rfl
  case inr => exact absurd hrange hnot
  have hact : Act.ofMessage m b₁.words = .reaction "ping" "👍" := if_pos hcontent
  have hplatform : b₁.platform = rebuffing := hlooks.platform
  have hemoji : b₁.settings.failureEmoji = "🤯" := by
    rw [hlooks.settings]
    rfl
  have hfails : (Act.reaction "ping" "👍").fails b₁ m = true := by
    rw [Act.fails, Bot.succeeds, answer, hplatform]
    rfl
  have hasked {b : Bot} (hp : b.platform = rebuffing) (c : Call) :
      (b.asked c).deeds = b.deeds ++ [.call c] := by
    rw [Bot.asked, hp]
    rfl
  rw [hact, Act.failed, hfails] at hends
  rw [hact, Act.calls, Act.flags, hfails, hemoji, hid, hchannel hsound htruthful] at hdeeds
  refine ⟨hstock, hb, rfl, b₁, b', hlooks, hends, hdeeds.trans ?_⟩
  exact (hasked ((Kept.asked b₁ _).platform.trans hplatform) _).trans (by
    rw [hasked hplatform, List.append_assoc]
    rfl)

/-- A platform that knows every user, and nothing else. -/
def acquainted : Behaviour := fun _ c => {
  result := some (match c with
    | .fetchUser id => .ok { id, username := "bob" }
    | _ => .error (.of (.other "forbidden"))) }

def acquaintedBot (ttl : Nat) (now : Instant) : Bot :=
  (ofSettings { token := "t", cacheTtl := ttl } acquainted .hand now now).registerStock.2

/-- The author of a message cannot be cached when the clock is about to end, or for too long. Processing
then panics, and the listeners are not told. -/
theorem message_lost_at_end_of_clock :
    (∀ b ∈ [acquaintedBot 5 .latest, acquaintedBot 9000000000000 ⟨0⟩],
      b.settings.flaw? = none ∧ b.HasStock ∧ b.IsAnswered) ∧ ping.fromSelf = false ∧
    ∀ b ∈ [acquaintedBot 5 .latest, acquaintedBot 9000000000000 ⟨0⟩], ∃ b',
      (Machine.alone b (work (.message ping)) none).Ends respond .panicked b' ∧
      b'.deeds = [.call (.fetchUser "42")] := by
  refine ⟨?_, rfl, ?_⟩
  · simp only [List.forall_mem_cons]
    exact ⟨⟨by decide, rfl, fun _ _ => rfl⟩, ⟨by decide, rfl, fun _ _ => rfl⟩, nofun⟩
  · simp only [List.forall_mem_cons]
    exact ⟨⟨_, ⟨5, rfl, rfl, rfl⟩, rfl⟩, ⟨_, ⟨5, rfl, rfl, rfl⟩, rfl⟩, nofun⟩

end Bot

end GuildBot
