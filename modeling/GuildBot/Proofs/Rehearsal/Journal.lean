import GuildBot.Proofs.Rehearsal.Step
import GuildBot.Rehearsal.Evidence

namespace GuildBot

open Platform Std Directory

namespace Bot

variable {b b' b'' : Bot}

private theorem newsIn_append (p : Behaviour) (past ds ds' : List Deed) :
    newsIn p past (ds ++ ds') = newsIn p past ds ++ newsIn p (past ++ ds) ds' := by
  induction ds generalizing past with
  | nil => simp [newsIn]
  | cons d ds ih => simp [newsIn, ih]

theorem newsSince_of_deeds_eq (h : b'.deeds = b.deeds) : b.newsSince b' = [] := by
  rw [newsSince, h, List.drop_length]
  rfl

theorem newsSince_trans (hp : b'.platform = b.platform) (h : b.deeds <+: b'.deeds)
    (h' : b'.deeds <+: b''.deeds) : b.newsSince b'' = b.newsSince b' ++ b'.newsSince b'' := by
  obtain ⟨ds, hd⟩ := h
  obtain ⟨ds', hd'⟩ := h'
  rw [newsSince, newsSince, newsSince, hp, ← hd', ← hd, List.append_assoc, List.drop_left,
    List.drop_left, ← List.append_assoc, List.drop_left, newsIn_append]

theorem newsSince_asked (b : Bot) (c : Call) : b.newsSince (b.asked c) =
    if (b.platform b.deeds c).sent then newsOf b.platform b.deeds (.call c) else [] := by
  unfold asked
  split
  · simp [newsSince, newsIn]
  · exact newsSince_of_deeds_eq rfl

private theorem member_not_mem_newsOf {p : Behaviour} {past : List Deed} {c : Call}
    (hc : ∀ guildId userId, c ≠ .fetchMember guildId userId) (k : UserKey) (m : Member) :
    News.member k m ∉ newsOf p past (.call c) := by
  intro hmem
  unfold newsOf at hmem
  split at hmem
  · split at hmem
    · cases List.mem_singleton.1 hmem
    · cases hmem
  · next heq => exact hc _ _ (Deed.call.inj heq)
  · cases hmem

private theorem member_not_mem_newsSince {c : Call} (hc : ∀ guildId userId, c ≠ .fetchMember guildId userId)
    (k : UserKey) (m : Member) : News.member k m ∉ b.newsSince (b.asked c) := by
  rw [newsSince_asked]
  split
  · exact member_not_mem_newsOf hc k m
  · exact List.not_mem_nil

private theorem key_of_mem_newsSince {guildId userId : String} {k : UserKey} {m : Member}
    (h : News.member k m ∈ b.newsSince (b.asked (.fetchMember guildId userId))) :
    k = ⟨userId, guildId⟩ := by
  rw [newsSince_asked] at h
  split at h
  · simp only [newsOf] at h
    split at h
    · cases List.mem_singleton.1 h
      rfl
    · cases h
  · cases h

private theorem answer_of_learnPart {β : Type} {c : Call} {purpose : String} {stub : β} {r : c.Payload}
    (h : b.learnPart c purpose stub = some (.ok r)) : b.answer c = some (.ok r) := by
  obtain ⟨x, hx, heq⟩ := Option.map_eq_some_iff.1 h
  cases x with
  | ok r' =>
    cases heq
    exact hx
  | error f => cases heq

section

variable (hp : Candid b.platform)

include hp

private theorem newsSince_of_fetchGuild {id : String} {g : Guild}
    (h : b.answer (.fetchGuild id) = some (.ok g)) :
    b.newsSince (b.asked (.fetchGuild id)) = [.guild id g] := by
  have hr : (b.platform b.deeds (.fetchGuild id)).result = some (.ok g) := h
  rw [newsSince_asked, if_pos (hp.sent_of_ok _ _ _ hr), newsOf, hr]

private theorem newsSince_of_fetchMember {guildId userId : String} {m : Member}
    (h : b.answer (.fetchMember guildId userId) = some (.ok m)) :
    b.newsSince (b.asked (.fetchMember guildId userId)) = [.member ⟨userId, guildId⟩ m] := by
  have hr : (b.platform b.deeds (.fetchMember guildId userId)).result = some (.ok m) := h
  rw [newsSince_asked, if_pos (hp.sent_of_ok _ _ _ hr), newsOf, hr]

end

private theorem newsSince_askedAll_cons (b : Bot) (c : Call) (calls : List Call) :
    b.newsSince (b.askedAll (c :: calls)) =
      b.newsSince (b.asked c) ++ (b.asked c).newsSince ((b.asked c).askedAll calls) :=
  newsSince_trans (Kept.asked b c).platform (b.deeds_prefix_asked c)
    ((b.asked c).deeds_prefix_askedAll calls)

private theorem key_of_mem_newsSince_askedAll {id guildId : String} {k : UserKey} {m : Member}
    (h : News.member k m ∈ b.newsSince (b.askedAll (b.callsForUser id guildId))) :
    k = ⟨id, guildId⟩ := by
  have huser : ∀ guildId' userId, Call.fetchUser id ≠ .fetchMember guildId' userId := nofun
  have hcalls : b.callsForUser id guildId = [.fetchUser id] ∨
      b.callsForUser id guildId = [.fetchUser id, .fetchMember guildId id] := by
    unfold callsForUser
    split
    · split
      · exact .inl rfl
      · exact .inr rfl
    · exact .inl rfl
  rcases hcalls with hcalls | hcalls
  · rw [hcalls] at h
    exact absurd h (member_not_mem_newsSince huser k m)
  · rw [hcalls, newsSince_askedAll_cons] at h
    rcases List.mem_append.1 h with h | h
    · exact absurd h (member_not_mem_newsSince huser k m)
    · exact key_of_mem_newsSince h

private theorem newsSince_of_learnUser (hp : Candid b.platform) {id guildId : String} (hg : guildId ≠ "")
    {u : User} (h : b.learnUser id guildId = some (.ok u)) :
    ∃ m, b.newsSince (b.askedAll (b.callsForUser id guildId)) = [.member ⟨id, guildId⟩ m] ∧
      u.roles guildId = m.roles := by
  unfold learnUser at h
  split at h
  · next user huser =>
    have hanswer := answer_of_learnPart huser
    have hcalls : b.callsForUser id guildId = [.fetchUser id, .fetchMember guildId id] := by
      unfold callsForUser
      rw [hanswer]
      exact if_neg hg
    rw [if_neg hg] at h
    obtain ⟨x, hx, heq⟩ := Option.map_eq_some_iff.1 h
    cases x with
    | error p => cases heq
    | ok m =>
      cases heq
      have hcandid : Candid (b.asked (.fetchUser id)).platform := by
        rw [(Kept.asked b _).platform]
        exact hp
      have hnone : b.newsSince (b.asked (.fetchUser id)) = [] := by
        rw [newsSince_asked]
        split
        · rfl
        · rfl
      refine ⟨m, ?_, ?_⟩
      · rw [hcalls, newsSince_askedAll_cons, hnone]
        exact newsSince_of_fetchMember hcandid (answer_of_learnPart hx)
      · exact congrArg Member.roles ExtTreeMap.getD_insert_self
  · cases h
  · cases h

private theorem memberships_of_learnUser (hp : Candid b.platform) {id guildId : String} {p : Partial User}
    (h : b.learnUser id guildId = some (.error p)) : p.stub.memberships = ∅ := by
  unfold learnUser at h
  split at h
  · next user huser =>
    have hanswer : (b.platform b.deeds (.fetchUser id)).result = some (.ok user) :=
      answer_of_learnPart huser
    split at h
    · cases h
    · obtain ⟨x, hx, heq⟩ := Option.map_eq_some_iff.1 h
      obtain ⟨y, -, rfl⟩ := Option.map_eq_some_iff.1 hx
      cases y with
      | ok m => cases heq
      | error f =>
        cases heq
        exact hp.memberships _ _ _ hanswer
  · next p' hp' =>
    cases h
    obtain ⟨y, -, heq⟩ := Option.map_eq_some_iff.1 hp'
    cases y with
    | ok u => cases heq
    | error f =>
      cases heq
      rfl
  · cases h

end Bot

namespace Rehearsal

namespace Journal

variable {j j' : Journal} {b b' b'' : Bot} {key : UserKey}

private theorem lastMember?_append (j j' : Journal) (key : UserKey) :
    Journal.lastMember? key (j ++ j') = (Journal.lastMember? key j').or (Journal.lastMember? key j) := by
  unfold lastMember?
  rw [List.filterMap_append, List.getLast?_append]

def heard (j : Journal) (b b' : Bot) : Journal := j ++ (b.newsSince b').map (b.now, ·)

theorem heard_of_deeds_eq (h : b'.deeds = b.deeds) : j.heard b b' = j := by
  rw [heard, Bot.newsSince_of_deeds_eq h]
  exact List.append_nil j

theorem heard_trans (hk : b.Steady b') (h : b.deeds <+: b'.deeds) (h' : b'.deeds <+: b''.deeds) :
    j.heard b b'' = (j.heard b b').heard b' b'' := by
  rw [heard, heard, heard, Bot.newsSince_trans hk.platform h h', hk.now, List.map_append,
    List.append_assoc]

private theorem lastMember?_append_of_forall_ne (j : Journal)
    (h : ∀ t k m, (t, News.member k m) ∈ j' → k ≠ key) :
    Journal.lastMember? key (j ++ j') = Journal.lastMember? key j := by
  have hnone : Journal.lastMember? key j' = none := by
    rw [lastMember?, List.getLast?_eq_none_iff, List.filterMap_eq_nil_iff]
    rintro ⟨t, news⟩ hmem
    cases news with
    | guild id g => rfl
    | member k m => exact if_neg (h t k m hmem)
  rw [lastMember?_append, hnone, Option.none_or]

private theorem lastMember?_append_member (j : Journal) (t : Instant) (m : Member) :
    Journal.lastMember? key (j ++ [(t, .member key m)]) = some (t, m) := by
  rw [lastMember?_append]
  simp [lastMember?]

private theorem lastMember?_heard (j : Journal) (h : ∀ k m, News.member k m ∈ b.newsSince b' → k ≠ key) :
    Journal.lastMember? key (j.heard b b') = Journal.lastMember? key j := by
  refine lastMember?_append_of_forall_ne j fun t k m hmem => ?_
  obtain ⟨news, hnews, heq⟩ := List.mem_map.1 hmem
  cases heq
  exact h k m hnews

end Journal

/-- Whether what a bot has cached of guilds and of users in guilds is in a journal. -/
structure Informed (j : Journal) (b : Bot) : Prop where
  guilds_lifetime : b.guilds.lifetime = b.lifetime
  users_lifetime : b.users.lifetime = b.lifetime
  guilds : ∀ id e, b.guilds.entries[id]? = some e →
    ∃ t, (t, .guild id e.value) ∈ j ∧ t.nanoseconds ≤ b.now.nanoseconds ∧
      e.expiry.nanoseconds ≤ t.nanoseconds + b.lifetime.nanoseconds
  users : ∀ key e, key.guildId ≠ "" → b.users.entries[key]? = some e →
    b.now.nanoseconds < e.expiry.nanoseconds →
      ∃ t m, j.lastMember? key = some (t, m) ∧ t.nanoseconds ≤ b.now.nanoseconds ∧
        e.expiry.nanoseconds ≤ t.nanoseconds + b.lifetime.nanoseconds ∧
        e.value.roles key.guildId = m.roles

namespace Informed

variable {j j' : Journal} {b b' : Bot}

/-- A bot with the same caches, later and when more has come. What has come may be about users that
are not cached any more. -/
theorem later (h : Informed j b) (hs : b'.settings = b.settings)
    (hn : b.now.nanoseconds ≤ b'.now.nanoseconds) (hg : b'.guilds = b.guilds)
    (hu : b'.users = b.users) (hj : ∀ x ∈ j, x ∈ j')
    (hm : ∀ key e, b.users.entries[key]? = some e → b.now.nanoseconds < e.expiry.nanoseconds →
      j'.lastMember? key = j.lastMember? key) : Informed j' b' := by
  have hd : b'.lifetime = b.lifetime := by rw [Bot.lifetime, hs, Bot.lifetime]
  refine ⟨by rw [hg, hd, h.guilds_lifetime], by rw [hu, hd, h.users_lifetime], ?_, ?_⟩
  · intro id e he
    rw [hg] at he
    obtain ⟨t, ht, hle, hx⟩ := h.guilds id e he
    exact ⟨t, hj _ ht, by omega, by rw [hd]; exact hx⟩
  · intro key e hkey he hl
    rw [hu] at he
    have hlive : b.now.nanoseconds < e.expiry.nanoseconds := by omega
    obtain ⟨t, m, hlast, hle, hx, hr⟩ := h.users key e hkey he hlive
    exact ⟨t, m, (hm key e he hlive).trans hlast, by omega, by rw [hd]; exact hx, hr⟩

theorem asked (h : Informed j b) (hk : b.Steady b') (hg : b'.guilds = b.guilds)
    (hu : b'.users = b.users)
    (hm : ∀ k m, News.member k m ∈ b.newsSince b' → b.users.peek b.now k = none) :
    Informed (j.heard b b') b' := by
  apply h.later hk.settings hk.le_now hg hu (fun x hx => List.mem_append_left _ hx)
  intro key e he hl
  refine Journal.lastMember?_heard j fun k m hmem heq => ?_
  have hdead := Cache.peek_eq_none_iff.1 (hm k m hmem) e (heq ▸ he)
  omega

private theorem askedAll (h : Informed j b) (calls : List Call) (lines : List Log.Line)
    (hm : ∀ k m, News.member k m ∈ b.newsSince (b.askedAll calls) → b.users.peek b.now k = none) :
    Informed (j.heard b ((b.askedAll calls).writeAll lines)) ((b.askedAll calls).writeAll lines) :=
  h.asked ((Bot.Kept.askedAll b calls).trans (.writeAll _ lines)).toSteady (b.guilds_askedAll calls)
    (b.users_askedAll calls) hm

private theorem putGuild (h : Informed j b) {id : String} {g : Guild} {c : Cache String Guild}
    (hmem : (b.now, .guild id g) ∈ j) (hi : b.guilds.insert? b.now id g = some c) :
    Informed j { b with guilds := c } := by
  refine ⟨(Cache.lifetime_insert? hi).trans h.guilds_lifetime, h.users_lifetime,
    ?_, h.users⟩
  intro k e he
  rw [show _ = c.entries[k]? from rfl, Cache.getElem?_insert? hi] at he
  by_cases hk : k = id
  · subst hk
    rw [if_pos rfl] at he
    cases he
    exact ⟨b.now, hmem, Int.le_refl _,
      Int.le_of_eq (Cache.nanoseconds_expiryFrom h.guilds_lifetime _)⟩
  · rw [if_neg hk] at he
    exact h.guilds k e he

/-- A lookup of a guild: what it finds came as news, or is a partial record, which has no roles. -/
theorem of_sought_guild (h : Informed j b) (hp : Candid b.platform)
    (hd : 0 < b.lifetime.nanoseconds) {id : String} {r : Option (Found Guild) × Bot}
    (hs : Sought .guilds id (b.learnGuild id) [.fetchGuild id] b r) :
    Informed (j.heard b r.2) r.2 ∧ ∀ found g, r.1 = some found → found.record? = some g →
      g.roles = ∅ ∨ ∃ t, (t, .guild id g) ∈ j.heard b r.2 ∧ t.IsFresh b.lifetime b.now := by
  have hfetch : ∀ guildId userId, Call.fetchGuild id ≠ .fetchMember guildId userId := by
    rintro _ _ ⟨⟩
  have hasked (lines : List Log.Line) := h.askedAll [.fetchGuild id] lines
    fun k m hk => absurd hk (Bot.member_not_mem_newsSince hfetch k m)
  cases hs with
  | cached record hp =>
    have hsame : j.heard b b = j := Journal.heard_of_deeds_eq rfl
    dsimp only
    rw [hsame]
    refine ⟨h, ?_⟩
    rintro _ g ⟨⟩ ⟨⟩
    obtain ⟨e, he, hl, rfl⟩ := Cache.peek_eq_some_iff.1 hp
    obtain ⟨t, ht, hle, hx⟩ := h.guilds id e he
    exact .inr ⟨t, ht, hle, by omega⟩
  | fetched record c lines _ _ hr hi =>
    have hnews := Bot.newsSince_of_fetchGuild hp (Bot.answer_of_learnPart hr)
    have hmem : (b.now, News.guild id record) ∈
        j.heard b ((b.askedAll [.fetchGuild id]).writeAll lines) := by
      refine List.mem_append_right _ (List.mem_map.2 ⟨_, ?_, rfl⟩)
      exact hnews ▸ List.mem_singleton_self _
    have hnow := ((Bot.Kept.askedAll b [.fetchGuild id]).trans (.writeAll _ lines)).now
    have hstored : ((b.askedAll [.fetchGuild id]).writeAll lines).guilds.insert? b.now id record =
        some c := by
      rw [Bot.guilds_writeAll, Bot.guilds_askedAll]
      exact hi
    rw [← hnow] at hmem hstored
    refine ⟨(hasked lines).putGuild hmem hstored, ?_⟩
    rintro _ g ⟨⟩ ⟨⟩
    exact .inr ⟨b.now, hnow ▸ hmem, Int.le_refl _, by omega⟩
  | full record lines _ _ _ _ =>
    refine ⟨hasked lines, ?_⟩
    rintro _ _ ⟨⟩
  | partly p lines _ _ hr =>
    refine ⟨hasked lines, ?_⟩
    rintro _ g ⟨⟩ ⟨⟩
    refine .inl ?_
    obtain ⟨r, -, hr⟩ := Option.map_eq_some_iff.1 hr
    cases r with
    | ok g => cases hr
    | error f =>
      cases hr
      rfl
  | broken lines _ _ _ =>
    refine ⟨hasked lines, ?_⟩
    rintro _ _ ⟨⟩

private theorem putUser (h : Informed j b) {key : UserKey} {u : User} {c : Cache UserKey User}
    (hi : b.users.insert? b.now key u = some c)
    (hlast : key.guildId ≠ "" → ∃ m, j.lastMember? key = some (b.now, m) ∧
      u.roles key.guildId = m.roles) : Informed j { b with users := c } := by
  refine ⟨h.guilds_lifetime, (Cache.lifetime_insert? hi).trans h.users_lifetime, h.guilds,
    ?_⟩
  intro k e hk he hl
  rw [show _ = c.entries[k]? from rfl, Cache.getElem?_insert? hi] at he
  by_cases heq : k = key
  · subst heq
    rw [if_pos rfl] at he
    cases he
    obtain ⟨m, hm, hr⟩ := hlast hk
    exact ⟨b.now, m, hm, Int.le_refl _,
      Int.le_of_eq (Cache.nanoseconds_expiryFrom h.users_lifetime _), hr⟩
  · rw [if_neg heq] at he
    exact h.users k e hk he hl

/-- A lookup of a user in a guild: the roles of the record that it finds are those of the last news of
the user, or it is a partial record, which has no roles. -/
theorem of_sought_user (h : Informed j b) (hp : Candid b.platform)
    (hd : 0 < b.lifetime.nanoseconds) {id guildId : String} {r : Option (Found User) × Bot}
    (hs : Sought .users ⟨id, guildId⟩ (b.learnUser id guildId) (b.callsForUser id guildId) b r) :
    Informed (j.heard b r.2) r.2 ∧ ∀ found u, r.1 = some found → found.record? = some u →
      guildId ≠ "" → u.roles guildId = ∅ ∨ ∃ t m, (j.heard b r.2).lastMember? ⟨id, guildId⟩ =
        some (t, m) ∧ t.IsFresh b.lifetime b.now ∧ u.roles guildId = m.roles := by
  have hasked (hpeek : b.users.peek b.now ⟨id, guildId⟩ = none) (lines : List Log.Line) :=
    h.askedAll (b.callsForUser id guildId) lines
      fun k m hk => Bot.key_of_mem_newsSince_askedAll hk ▸ hpeek
  cases hs with
  | cached record hp =>
    have hsame : j.heard b b = j := Journal.heard_of_deeds_eq rfl
    dsimp only
    rw [hsame]
    refine ⟨h, ?_⟩
    rintro _ u ⟨⟩ ⟨⟩ hg
    obtain ⟨e, he, hl, rfl⟩ := Cache.peek_eq_some_iff.1 hp
    obtain ⟨t, m, hlast, hle, hx, hr⟩ := h.users ⟨id, guildId⟩ e hg he hl
    exact .inr ⟨t, m, hlast, ⟨hle, by omega⟩, hr⟩
  | fetched record c lines _ hpeek hr hi =>
    have hnow := ((Bot.Kept.askedAll b (b.callsForUser id guildId)).trans (.writeAll _ lines)).now
    have hstored : ((b.askedAll (b.callsForUser id guildId)).writeAll lines).users.insert? b.now
        ⟨id, guildId⟩ record = some c := by
      rw [Bot.users_writeAll, Bot.users_askedAll]
      exact hi
    have hlast (hg : guildId ≠ "") :
        ∃ m, (j.heard b ((b.askedAll (b.callsForUser id guildId)).writeAll lines)).lastMember?
          ⟨id, guildId⟩ = some (b.now, m) ∧ record.roles guildId = m.roles := by
      obtain ⟨m, hnews, hm⟩ := Bot.newsSince_of_learnUser hp hg hr
      have hheard : j.heard b ((b.askedAll (b.callsForUser id guildId)).writeAll lines) =
          j ++ (b.newsSince (b.askedAll (b.callsForUser id guildId))).map (b.now, ·) := rfl
      rw [hheard, hnews]
      exact ⟨m, Journal.lastMember?_append_member j b.now m, hm⟩
    rw [← hnow] at hstored
    refine ⟨(hasked hpeek lines).putUser hstored (by rw [hnow]; exact hlast), ?_⟩
    rintro _ u ⟨⟩ ⟨⟩ hg
    obtain ⟨m, hm, hroles⟩ := hlast hg
    exact .inr ⟨b.now, m, hm, ⟨Int.le_refl _, by omega⟩, hroles⟩
  | full record lines _ hpeek _ _ =>
    refine ⟨hasked hpeek lines, ?_⟩
    rintro _ _ ⟨⟩
  | partly p lines _ hpeek hr =>
    refine ⟨hasked hpeek lines, ?_⟩
    rintro _ u ⟨⟩ ⟨⟩ _
    refine .inl ?_
    simp [User.roles, User.membership, Bot.memberships_of_learnUser hp hr]
  | broken lines _ hpeek _ =>
    refine ⟨hasked hpeek lines, ?_⟩
    rintro _ _ ⟨⟩

private theorem absorbed (h : Informed j b) {update : MemberUpdate} {users : Cache UserKey User}
    (hab : absorbed? b.users b.now update = some users) :
    Informed (j ++ [(b.now, .member ⟨update.userId, update.guildId⟩ update.member)])
      { b with users } := by
  refine ⟨h.guilds_lifetime, (lifetime_absorbed? hab).trans h.users_lifetime, ?_, ?_⟩
  · intro id e he
    obtain ⟨t, ht, hle, hx⟩ := h.guilds id e he
    exact ⟨t, List.mem_append_left _ ht, hle, hx⟩
  · intro k e hk he hl
    by_cases hkey : k = ⟨update.userId, update.guildId⟩
    · subst hkey
      obtain ⟨hroles, hexpiry⟩ := absorbed?_entry hab hk rfl he
      refine ⟨b.now, update.member, Journal.lastMember?_append_member j _ _, Int.le_refl _, ?_,
        hroles⟩
      rcases hexpiry with hexpiry | ⟨e₀, he₀, hlive, hexpiry⟩
      · rw [hexpiry]
        exact Int.le_of_eq (Cache.nanoseconds_expiryFrom h.users_lifetime _)
      · obtain ⟨t, m, -, hle, hx, -⟩ := h.users _ e₀ hk he₀ hlive
        have hspan : e₀.expiry.nanoseconds ≤ b.now.nanoseconds + b.lifetime.nanoseconds := by omega
        rw [hexpiry]
        exact hspan
    · rw [absorbed?_entry_of_ne hab hk hkey] at he
      obtain ⟨t, m, hlast, hrest⟩ := h.users k e hk he hl
      refine ⟨t, m, ?_, hrest⟩
      rw [← hlast]
      apply Journal.lastMember?_append_of_forall_ne
      intro t k' m hmem heq
      cases List.mem_singleton.1 hmem
      exact hkey heq.symm

theorem pushed_member (h : Informed j b) (update : MemberUpdate) :
    Informed (j ++ [(b.now, .member ⟨update.userId, update.guildId⟩ update.member)])
      (Flow.eval Bot.respond (absorbMember update) b).2 := by
  obtain ⟨changes, lines, heval⟩ := eval_absorbMember b update
  rw [heval]
  cases hab : absorbed? b.users b.now update with
  | none =>
    have hdead := peek_of_absorbed?_eq_none hab
    refine h.later rfl (Int.le_refl _) rfl rfl (fun _ hx => List.mem_append_left _ hx) ?_
    intro key e he hl
    apply Journal.lastMember?_append_of_forall_ne
    intro t k m hmem heq
    cases List.mem_singleton.1 hmem
    have hle := Cache.peek_eq_none_iff.1 hdead e (heq ▸ he)
    omega
  | some users =>
    exact (h.absorbed hab).later rfl (Int.le_refl _) rfl rfl (fun _ hx => hx) fun _ _ _ _ => rfl

theorem pushed_channel (h : Informed j b) (update : ChannelUpdate) :
    Informed j (Flow.eval Bot.respond (absorbChannel update) b).2 := by
  obtain ⟨changes, lines, heval⟩ := eval_absorbChannel b update
  have hsame {b' : Bot} (hk : b.Steady b') (hg : b'.guilds = b.guilds) (hu : b'.users = b.users) :
      Informed j b' := h.later hk.settings hk.le_now hg hu (fun _ hx => hx) fun _ _ _ _ => rfl
  rw [heval]
  cases absorbedChannel? b.channels b.now update with
  | none => exact hsame ⟨rfl, rfl, rfl, rfl, rfl⟩ rfl rfl
  | some channels => exact hsame ⟨rfl, rfl, rfl, rfl, rfl⟩ rfl rfl

end Informed

end Rehearsal

end GuildBot
