import GuildBot.Proofs.Rehearsal.Journal

namespace GuildBot

open Platform Std Directory Activity

private theorem Guild.getElem?_roles_of_roleId? {g : Guild} {name roleId : String}
    (h : g.roleId? name = some roleId) : g.roles[roleId]? = some name := by
  rw [roleId?] at h
  simpa using List.find?_some h

/-- Each role of a name is come upon first in some order, and no other role is. -/
theorem Guild.exists_roleId?_iff {g : Guild} {name roleId : String} :
    (∃ roleOrder, { g with roleOrder }.roleId? name = some roleId) ↔ g.roles[roleId]? = some name := by
  constructor
  · rintro ⟨roleOrder, h⟩
    exact getElem?_roles_of_roleId? (g := { g with roleOrder }) h
  · intro h
    exact ⟨[roleId], by simp [roleId?, h]⟩

namespace Bot

/-- The listeners, each with its clock and the decisions of its tracker. -/
def deciders (b : Bot) : List (String × Listener × Clock × Cache UserKey Bool) :=
  b.registry.map fun e => (e.id, e.listener, e.clock, e.tracker.decisions)

/-- Whether one bot comes from another by asking, and by lines in the log that tell of no activity. -/
structure Quiet (b b' : Bot) : Prop where
  asks : b.Asks b'
  log : ∃ lines, (∀ text : String, ⟨.info, s!"Recording activity: {text}"⟩ ∉ lines) ∧
    b'.log = b.log ++ lines

namespace Quiet

variable {b b' b'' : Bot}

theorem of_looksUp (h : b.LooksUp b') : b.Quiet b' := by
  obtain ⟨lines, hl, hlog⟩ := h.hushes
  refine ⟨h.asks, lines, ?_, hlog⟩
  intro text hmem
  exact hl _ hmem rfl

theorem trans (h : b.Quiet b') (h' : b'.Quiet b'') : b.Quiet b'' := by
  obtain ⟨lines, hl, hlog⟩ := h.log
  obtain ⟨lines', hl', hlog'⟩ := h'.log
  refine ⟨h.asks.trans h'.asks, lines ++ lines', ?_, ?_⟩
  · intro text hmem
    exact (List.mem_append.1 hmem).elim (hl text) (hl' text)
  · rw [hlog', hlog, List.append_assoc]

private theorem noteOptIn (b : Bot) (userId : String) :
    b.Quiet (b.writeAll [⟨.info, s!"User {userId} is opted into tracking."⟩]) := by
  refine ⟨.of_deeds_eq rfl, _, ?_, rfl⟩
  intro text hmem
  have hline := congrArg (fun line : Log.Line => line.message.toList.head?) (List.mem_singleton.1 hmem)
  simp only [String.toList_append, List.head?_append] at hline
  exact absurd (Option.some.inj hline) (by decide)

theorem not_recordsSince (h : b.Quiet b') : ¬ b.RecordsSince b' := by
  obtain ⟨lines, hl, hlog⟩ := h.log
  rintro (⟨text, hmem⟩ | hmessages)
  · rw [hlog, List.drop_left] at hmem
    exact hl text hmem
  · exact hmessages (messagesSince_of_asks h.asks)

end Quiet

end Bot

namespace Rehearsal

/-- Whether one bot comes from another without news, and with what is cached of guilds and users and
what is decided about them as it was. -/
structure Unmoved (b b' : Bot) : Prop extends b.Steady b' where
  guilds : b'.guilds = b.guilds
  users : b'.users = b.users
  deeds : b.deeds <+: b'.deeds
  news : b.newsSince b' = []
  deciders : b'.deciders = b.deciders

namespace Unmoved

variable {b b' b'' : Bot}

theorem of_deeds_eq (hs : b.Steady b') (hg : b'.guilds = b.guilds) (hu : b'.users = b.users)
    (hd : b'.deeds = b.deeds)
    (hr : b'.deciders = b.deciders) : Unmoved b b' :=
  ⟨hs, hg, hu, hd ▸ List.prefix_refl _, Bot.newsSince_of_deeds_eq hd, hr⟩

theorem trans (h : Unmoved b b') (h' : Unmoved b' b'') : Unmoved b b'' := by
  refine ⟨h.toSteady.trans h'.toSteady, h'.guilds.trans h.guilds, h'.users.trans h.users,
    h.deeds.trans h'.deeds, ?_, h'.deciders.trans h.deciders⟩
  rw [Bot.newsSince_trans h.platform h.deeds h'.deeds, h.news, h'.news]
  rfl

theorem writeAll (b : Bot) (lines : List Log.Line) : Unmoved b (b.writeAll lines) :=
  .of_deeds_eq (Bot.Kept.writeAll b lines).toSteady rfl rfl rfl rfl

theorem asked (b : Bot) {c : Call} (hc : ∀ p past, newsOf p past (.call c) = []) :
    Unmoved b (b.asked c) := by
  have hk := Bot.Kept.asked b c
  refine ⟨hk.toSteady, b.guilds_asked c, b.users_asked c, b.deeds_prefix_asked c, ?_,
    congrArg (List.map _) hk.registry⟩
  rw [Bot.newsSince_asked, hc]
  split
  · rfl
  · rfl

end Unmoved

theorem unmoved_channel (id : String) (b : Bot) :
    Unmoved b (Flow.eval Bot.respond (channel id) b).2 := by
  by_cases hid : id = ""
  · subst hid
    exact .of_deeds_eq (.refl b) rfl rfl rfl rfl
  · have hasked (lines : List Log.Line) :
        Unmoved b ((b.askedAll [.fetchChannel id]).writeAll lines) :=
      (Unmoved.asked b fun _ _ => rfl).trans (.writeAll _ lines)
    cases hr : Flow.eval Bot.respond (channel id) b with
    | mk found b' =>
      have hsought := sought_channel hid b
      rw [hr] at hsought
      cases hsought with
      | cached record hp => exact .of_deeds_eq (.refl b) rfl rfl rfl rfl
      | fetched record c lines hl hp hr hi =>
        exact (hasked lines).trans (.of_deeds_eq ⟨rfl, rfl, rfl, rfl, rfl⟩ rfl rfl rfl rfl)
      | full record lines hl hp hr hi => exact hasked lines
      | partly p lines hl hp hr => exact hasked lines
      | broken lines hl hp hr => exact hasked lines

/-- Whether a bot that comes from another is informed by what was told on the way. -/
structure Learns (j : Journal) (b b' : Bot) : Prop where
  informed : Informed (j.heard b b') b'
  steady : b.Steady b'
  deeds : b.deeds <+: b'.deeds

namespace Learns

variable {j : Journal} {b b₁ b₂ : Bot}

private theorem heard_eq (h : Learns j b b₁) (hd : b₁.deeds <+: b₂.deeds) :
    j.heard b b₂ = (j.heard b b₁).heard b₁ b₂ :=
  Journal.heard_trans h.steady h.deeds hd

theorem refl (h : Informed j b) : Learns j b b := by
  refine ⟨?_, .refl b, List.prefix_refl _⟩
  rw [Journal.heard_of_deeds_eq rfl]
  exact h

theorem heard_unmoved (h : Learns j b b₁) (hu : Unmoved b₁ b₂) : j.heard b b₂ = j.heard b b₁ := by
  rw [h.heard_eq hu.deeds, Journal.heard, hu.news]
  exact List.append_nil _

theorem unmoved (h : Learns j b b₁) (hu : Unmoved b₁ b₂) : Learns j b b₂ := by
  refine ⟨?_, h.steady.trans hu.toSteady, h.deeds.trans hu.deeds⟩
  rw [h.heard_unmoved hu]
  exact h.informed.later hu.settings hu.le_now hu.guilds hu.users (fun _ hx => hx)
    fun _ _ _ _ => rfl

end Learns

/-- Whether a bot that comes from another is informed by what was told on the way, and no more has
come of it: it has found out about records, and its listeners are as they were. -/
structure Ponders (j : Journal) (b b' : Bot) : Prop extends Learns j b b' where
  registry : b'.registry = b.registry
  quiet : b.Quiet b'

namespace Ponders

variable {j : Journal} {b b₁ b₂ : Bot}

theorem refl (h : Informed j b) : Ponders j b b :=
  ⟨.refl h, rfl, .of_looksUp (.refl b)⟩

theorem looksUp (h : Ponders j b b₁) (hl : b₁.LooksUp b₂)
    (hi : Informed ((j.heard b b₁).heard b₁ b₂) b₂) : Ponders j b b₂ := by
  rw [← h.heard_eq hl.asks.prefix_deeds] at hi
  exact ⟨⟨hi, h.steady.trans hl.toSteady, h.deeds.trans hl.asks.prefix_deeds⟩,
    hl.registry.trans h.registry, h.quiet.trans (.of_looksUp hl)⟩

theorem unmoved (h : Ponders j b b₁) (hu : Unmoved b₁ b₂) (hl : b₁.LooksUp b₂) : Ponders j b b₂ :=
  ⟨h.toLearns.unmoved hu, hl.registry.trans h.registry, h.quiet.trans (.of_looksUp hl)⟩

theorem writeAll (h : Ponders j b b₁) {lines : List Log.Line} (hq : b₁.Quiet (b₁.writeAll lines)) :
    Ponders j b (b₁.writeAll lines) ∧ j.heard b (b₁.writeAll lines) = j.heard b b₁ :=
  ⟨⟨h.toLearns.unmoved (.writeAll b₁ lines), h.registry, h.quiet.trans hq⟩,
    h.heard_unmoved (.writeAll b₁ lines)⟩

theorem hushed (h : Ponders j b b₁) {lines : List Log.Line} (hl : Hushed lines) :
    Ponders j b (b₁.writeAll lines) ∧ j.heard b (b₁.writeAll lines) = j.heard b b₁ :=
  h.writeAll (.of_looksUp (.writeAll b₁ hl))

section

variable (h : Ponders j b b₁)

include h

theorem ends_channel (id : String) :
    Flow.Ends Bot.respond (Ponders j b) (channel id) b₁ fun _ => Ponders j b :=
  .of_state (h.unmoved (unmoved_channel id b₁) (looksUp_channel id b₁))

variable (hp : Candid b.platform) (hd : 0 < b.lifetime.nanoseconds)

include hp hd

theorem ends_guild (id : String) :
    Flow.Ends Bot.respond (Ponders j b) (guild id) b₁ fun found b₂ =>
      Ponders j b b₂ ∧ ∀ g, found.record? = some g → id ≠ "" ∧ (g.roles = ∅ ∨
        ∃ t, (t, .guild id g) ∈ j.heard b b₂ ∧ t.IsFresh b.lifetime b.now) := by
  by_cases hid : id = ""
  · subst hid
    refine .of_eval (eval_find_empty _ _ _ _) ⟨h, ?_⟩
    intro g hg
    cases hg
  · have hlooks := looksUp_guild id b₁
    have hsought := h.informed.of_sought_guild (by rw [h.steady.platform]; exact hp)
      (by rw [h.steady.lifetime]; exact hd) (sought_guild hid b₁)
    have hponders := h.looksUp hlooks hsought.1
    have hfound := hsought.2
    rw [← h.heard_eq hlooks.asks.prefix_deeds, h.steady.lifetime, h.steady.now] at hfound
    apply Flow.Ends.of_value hponders
    intro found heq
    refine ⟨hponders, ?_⟩
    intro g hg
    exact ⟨hid, hfound found g heq hg⟩

theorem ends_user (id guildId : String) :
    Flow.Ends Bot.respond (Ponders j b) (user id guildId) b₁ fun found b₂ =>
      Ponders j b b₂ ∧ b₁.deeds <+: b₂.deeds ∧ ∀ u, found.record? = some u → guildId ≠ "" →
        u.roles guildId = ∅ ∨ ∃ t m, (j.heard b b₂).lastMember? ⟨id, guildId⟩ = some (t, m) ∧
          t.IsFresh b.lifetime b.now ∧ u.roles guildId = m.roles := by
  by_cases hid : id = ""
  · subst hid
    refine .of_eval (eval_find_empty _ _ _ _) ⟨h, List.prefix_refl _, ?_⟩
    intro u hu
    cases hu
  · have hlooks := looksUp_user id guildId b₁
    have hsought := h.informed.of_sought_user (by rw [h.steady.platform]; exact hp)
      (by rw [h.steady.lifetime]; exact hd) (sought_user hid guildId b₁)
    have hponders := h.looksUp hlooks hsought.1
    have hfound := hsought.2
    rw [← h.heard_eq hlooks.asks.prefix_deeds, h.steady.lifetime, h.steady.now] at hfound
    apply Flow.Ends.of_value hponders
    intro found heq
    refine ⟨hponders, hlooks.asks.prefix_deeds, ?_⟩
    intro u hu
    exact hfound found u heq hu

theorem ends_resolveVoice (raw : RawVoice) :
    Flow.Ends Bot.respond (Ponders j b) (Bot.resolveVoice raw) b₁ fun _ => Ponders j b := by
  have hresolve := Bot.ends_resolveVoice (I := Ponders j b) (P := Ponders j b) raw
    (G := fun _ => True) (C := fun _ => True) (U := fun _ => True)
    (fun _ _ hl h' => (h'.hushed hl).1)
    (fun _ h' => (h'.ends_guild hp hd raw.guildId).mono (fun _ h => h)
      fun _ _ hq => ⟨hq.1, trivial⟩)
    (fun id _ _ h' => (h'.ends_channel id).mono (fun _ h => h) fun _ _ hq => ⟨hq, trivial⟩)
    (fun _ => trivial)
    (fun _ h' => (h'.ends_user hp hd raw.userId raw.guildId).mono (fun _ h => h)
      fun _ _ hq => ⟨hq.1, trivial⟩) h
  exact hresolve.mono (fun _ h => h) fun _ _ hq => hq.1

private theorem ends_user_evidence {role roleId guildId : String} (hg : guildId ≠ "")
    (hguild : ∃ t g, (t, News.guild guildId g) ∈ j.heard b b₁ ∧ t.IsFresh b.lifetime b.now ∧
      g.roles[roleId]? = some role) (userId : String) :
    Flow.Ends Bot.respond (Ponders j b) (user userId guildId) b₁ fun found b₂ =>
      Ponders j b b₂ ∧ (found.record?.any (·.hasRole guildId roleId) = true →
        Evidence (j.heard b b₂) b.lifetime role ⟨userId, guildId⟩ b.now) := by
  apply (h.ends_user hp hd userId guildId).mono (fun _ h => h)
  rintro found b₂ ⟨h₂, hprefix, huser⟩
  refine ⟨h₂, ?_⟩
  intro hany
  obtain ⟨u, hu, hhas⟩ := (Option.any_eq_true _ _).1 hany
  obtain ⟨t, g, ht, hfresh, hname⟩ := hguild
  refine ⟨roleId, ⟨t, g, ?_, hfresh, hname⟩, ?_⟩
  · rw [h.heard_eq hprefix]
    exact List.mem_append_left _ ht
  · rcases huser u hu hg with hnone | ⟨t', m, hlast, hfresh', hm⟩
    · simp [User.hasRole, hnone] at hhas
    · exact ⟨t', m, hlast, hfresh', hm ▸ hhas⟩

/-- The tracker finds out that a user holds the role only on evidence. -/
theorem ends_holdsRole (role guildId userId : String) :
    Flow.Ends Bot.respond (Ponders j b) (holdsRole Directory.tools role guildId userId) b₁
      fun tracked b₂ => Ponders j b b₂ ∧ (tracked = true →
        Evidence (j.heard b b₂) b.lifetime role ⟨userId, guildId⟩ b.now) := by
  unfold holdsRole
  apply (h.ends_guild hp hd guildId).bind
  rintro found b₂ ⟨h₂, hguild⟩
  obtain ⟨lines, hl, heval⟩ := eval_makeDo "guild" found b₂
  apply Flow.Ends.bind_of_eval heval
  obtain ⟨h₃, hheard₃⟩ := h₂.hushed hl
  cases hr : found.record?.bind (·.roleId? role) with
  | none =>
    let line : Log.Line := ⟨.debug, s!"Guild has no `{role}` role."⟩
    have hline : Hushed [line] := by simp [Hushed, line]
    apply Flow.Ends.bind_of_eval (Action.eval_note _ _ _)
    exact .done ⟨(h₃.hushed hline).1, fun htracked => absurd htracked Bool.false_ne_true⟩
  | some roleId =>
    obtain ⟨g, hg, hrole⟩ := Option.bind_eq_some_iff.1 hr
    have hname := Guild.getElem?_roles_of_roleId? hrole
    obtain ⟨hne, hroles⟩ := hguild g hg
    have hnews : ∃ t g, (t, News.guild guildId g) ∈ j.heard b (b₂.writeAll lines) ∧
        t.IsFresh b.lifetime b.now ∧ g.roles[roleId]? = some role := by
      rw [hheard₃]
      rcases hroles with hroles | ⟨t, ht, hfresh⟩
      · simp [hroles] at hname
      · exact ⟨t, g, ht, hfresh, hname⟩
    apply (h₃.ends_user_evidence hp hd hne hnews userId).bind
    rintro found' b₄ ⟨h₄, hevidence⟩
    obtain ⟨lines', hl', heval'⟩ := eval_makeDo "user" found' b₄
    apply Flow.Ends.bind_of_eval heval'
    obtain ⟨h₅, hheard₅⟩ := h₄.hushed hl'
    rw [← hheard₅] at hevidence
    by_cases hany : found'.record?.any (·.hasRole guildId roleId) = true
    · rw [if_pos hany]
      obtain ⟨h₆, hheard₆⟩ := h₅.writeAll (.noteOptIn _ userId)
      apply Flow.Ends.bind_of_eval (Action.eval_note _ _ _)
      apply Flow.Ends.done
      refine ⟨h₆, ?_⟩
      intro _
      rw [hheard₆]
      exact hevidence hany
    · rw [if_neg hany]
      exact .done ⟨h₅, fun htracked => absurd htracked Bool.false_ne_true⟩

end

end Ponders

end Rehearsal

end GuildBot
