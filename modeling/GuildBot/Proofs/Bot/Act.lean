import GuildBot.Bot.Act
import GuildBot.Proofs.Bot.Flag
import GuildBot.Proofs.Bot.Kept
import GuildBot.Proofs.Flow.SoleBranch

/-!
# Acts of the listeners

What the dice and the ping listener do about a message is an act, and each act comes down to its calls.
A listener that has nothing to do makes none, and of the two at most one has something to do.
-/

namespace GuildBot

open Platform Directory Listener

namespace Bot

variable {b b' b'' : Bot} {calls calls' : List Call}

private theorem answer_congr (hp : b'.platform = b.platform) (hd : b'.deeds = b.deeds) (c : Call) :
    b'.answer c = b.answer c := by
  rw [answer, answer, hp, hd]

private theorem askedAll_congr (hp : b'.platform = b.platform) (hd : b'.deeds = b.deeds) (calls : List Call) :
    (b'.askedAll calls).deeds = (b.askedAll calls).deeds := by
  induction calls generalizing b b' with
  | nil => exact hd
  | cons c calls ih =>
    refine ih (((Kept.asked b' c).platform.trans hp).trans (Kept.asked b c).platform.symm) ?_
    unfold asked
    rw [hp, hd]
    split
    · rfl
    · exact hd

structure Makes (calls : List Call) (b b' : Bot) : Prop extends b.Kept b' where
  deeds : b'.deeds = (b.askedAll calls).deeds

namespace Makes

theorem refl (b : Bot) : Makes [] b b := ⟨.refl b, rfl⟩

theorem writeAll (b : Bot) (lines : List Log.Line) : Makes [] b (b.writeAll lines) :=
  ⟨.writeAll b lines, rfl⟩

theorem asked (b : Bot) (c : Call) : Makes [c] b (b.asked c) := ⟨.asked b c, rfl⟩

theorem trans (h : Makes calls b b') (h' : Makes calls' b' b'') : Makes (calls ++ calls') b b'' := by
  have hplatform : b'.platform = (b.askedAll calls).platform :=
    h.platform.trans (Kept.askedAll b calls).platform.symm
  refine ⟨h.toKept.trans h'.toKept, ?_⟩
  rw [h'.deeds, askedAll_congr hplatform h.deeds calls', askedAll, askedAll, askedAll,
    List.foldl_append]

private theorem writeAll_after (h : Makes calls b b') (lines : List Log.Line) :
    Makes calls b (b'.writeAll lines) := by
  have hwritten := h.trans (.writeAll b' lines)
  rwa [List.append_nil] at hwritten

theorem drawn (h : Makes calls b b') {words : List Nat} : Makes calls b { b' with words } :=
  ⟨⟨⟨h.settings, h.platform, h.clock, h.handClock, h.wallClock⟩, h.registry⟩, h.deeds⟩

private theorem succeeds_eq (h : Makes [] b b') : b'.succeeds = b.succeeds := by
  funext c
  rw [succeeds, succeeds, answer_congr h.platform h.deeds]

end Makes

end Bot

namespace Act

open GuildBot.Bot

variable {a : Act} {m : Message} {b : Bot}

/-- Whether a program of a listener comes down to the calls of an act, and fails if the act does. -/
def IsDone (a : Act) (m : Message) (b : Bot) (f : Action (Outcome Unit)) : Prop :=
  ∃ r b', Flow.eval respond f b = (some r, b') ∧ Makes (a.calls b m) b b' ∧ r.isOk = !a.fails b m

private theorem calls_congr {b' : Bot} (h : b'.succeeds = b.succeeds) : a.calls b' m = a.calls b m := by
  cases a <;> simp only [calls, h]

private theorem fails_congr {b' : Bot} (h : b'.succeeds = b.succeeds) : a.fails b' m = a.fails b m := by
  cases a <;> simp only [fails, h]

private theorem isDone_nothing (m : Message) (b : Bot) : nothing.IsDone m b (.done (.ok ())) :=
  ⟨.ok (), b, rfl, .refl b, rfl⟩

theorem IsDone.after {α : Type} {f : Action α} {g : α → Action (Outcome Unit)} {x : α} {b' : Bot}
    (heval : Flow.eval respond f b = (some x, b')) (hmakes : Makes [] b b')
    (h : a.IsDone m b' (g x)) : a.IsDone m b (f.bind g) := by
  obtain ⟨r, b'', hg, hmakes', hok⟩ := h
  refine ⟨r, b'', ?_, ?_, ?_⟩
  · rw [Flow.eval_bind, heval]
    exact hg
  · rw [← calls_congr hmakes.succeeds_eq]
    exact hmakes.trans hmakes'
  · rw [← fails_congr hmakes.succeeds_eq]
    exact hok

private theorem listenerId?_of_ping {words : List Nat} (hping : m.content = "!ping") :
    (ofMessage m words).listenerId? = some "ping" := by
  rw [ofMessage, if_pos hping]
  rfl

private theorem listenerId?_of_fails {words : List Nat} (hping : m.content ≠ "!ping")
    (hfails : (ofMessage m words).fails b m = true) :
    (ofMessage m words).listenerId? = some "dice" := by
  rw [ofMessage, if_neg hping] at hfails ⊢
  cases hrequest : Dice.request? m.content with
  | none =>
    rw [hrequest] at hfails
    cases hfails
  | some request =>
    dsimp only
    cases Dice.judge request <;> rfl

variable (hb : ∀ deeds c, (b.platform deeds c).result.isSome = true)

include hb

private theorem eval_answered (c : Call) :
    ∃ r, b.answer c = some r ∧ Flow.eval Bot.respond (Action.call c) b = (some r, b.asked c) := by
  obtain ⟨r, hr⟩ := Option.isSome_iff_exists.1 (hb b.deeds c)
  exact ⟨r, hr, (Action.eval_call c b).trans (congrArg (·, b.asked c) hr)⟩

theorem eval_send (channelId text : String) :
    ∃ r : Outcome Unit, b.answer (.sendMessage channelId text) = some r ∧
      Flow.eval Bot.respond (tools.send channelId text) b =
        (some r, b.asked (.sendMessage channelId text)) :=
  eval_answered hb (.sendMessage channelId text)

private theorem eval_react (m : Message) (emoji : String) :
    ∃ r : Outcome Unit, b.answer (.addReaction m.channel.id m.id emoji) = some r ∧
      Flow.eval Bot.respond (react tools m emoji) b =
        (some r, b.asked (.addReaction m.channel.id m.id emoji)) :=
  eval_answered hb (.addReaction m.channel.id m.id emoji)

private theorem isDone_reaction (id emoji : String) :
    (reaction id emoji).IsDone m b (react tools m emoji) := by
  obtain ⟨r, hanswer, heval⟩ := eval_react hb m emoji
  refine ⟨r, _, heval, .asked b _, ?_⟩
  rw [fails, Bot.succeeds, hanswer]
  cases r with
  | ok u => rfl
  | error f => rfl

private theorem isDone_reply (text : String) :
    (reply text).IsDone m b (Listener.respond tools m none text) := by
  obtain ⟨r, hanswer, heval⟩ := eval_send hb m.channel.id text
  rw [IsDone, Listener.respond, Flow.bind_def, Flow.eval_bind, heval, fails, Bot.succeeds, hanswer]
  cases r with
  | ok u => exact ⟨_, _, rfl, .asked b _, rfl⟩
  | error f => exact ⟨_, _, rfl, .asked b _, rfl⟩

private theorem isDone_refusal (text emoji : String) :
    (refusal text emoji).IsDone m b (Listener.respond tools m (some emoji) text) := by
  obtain ⟨r, hanswer, heval⟩ := eval_send hb m.channel.id text
  have hmakes := Makes.asked b (.sendMessage m.channel.id text)
  rw [IsDone, Listener.respond, Flow.bind_def, Flow.eval_bind, heval, calls, fails, Bot.succeeds, hanswer]
  cases r with
  | error f => exact ⟨_, _, rfl, hmakes, rfl⟩
  | ok u =>
    -- The reaction is made as best it can be: if it fails, that is noted and no more.
    have hplatform := hmakes.platform
    obtain ⟨r', -, heval'⟩ := eval_react (b := b.asked (.sendMessage m.channel.id text))
      (fun ds c => by rw [hplatform]; exact hb ds c) m emoji
    have hboth := hmakes.trans (Makes.asked _ (.addReaction m.channel.id m.id emoji))
    dsimp only
    rw [Flow.bind_def, Flow.eval_bind, heval']
    cases r' with
    | ok u => exact ⟨_, _, rfl, hboth, rfl⟩
    | error f => exact ⟨_, _, rfl, hboth.writeAll_after _, rfl⟩

theorem isDone_carryOut (request : String) (v : Dice.Verdict) :
    (ofVerdict m.author.id b.words v).IsDone m b (carryOut tools m request v) := by
  cases v with
  | malformed =>
    exact .after (Action.eval_note _ _ b) (.writeAll b _)
      (isDone_refusal (b := b.writeAll _) hb "malformed command" annoyed)
  | tooManyDice => exact isDone_refusal hb _ _
  | noDice => exact isDone_reaction hb _ _
  | tooManySides => exact isDone_refusal hb _ _
  | noSides => exact isDone_reaction hb _ _
  | offsetTooGreat => exact isDone_refusal hb _ _
  | accepted roll =>
    -- Rolling draws words, and makes no call either.
    refine .after (Action.eval_note _ _ b) (.writeAll b _) ?_
    refine .after (Flow.eval_act ..) (Makes.refl _).drawn ?_
    exact isDone_reply (b := { b.writeAll _ with words := _ }) hb _

private theorem isDone_answerRoll (m : Message) (hping : m.content ≠ "!ping") :
    (ofMessage m b.words).IsDone m b (answerRoll tools m) := by
  rw [ofMessage, if_neg hping, answerRoll]
  cases Dice.request? m.content with
  | none => exact isDone_nothing m b
  | some request => exact isDone_carryOut hb request (Dice.judge request)

private theorem isDone_answerPing (hping : m.content = "!ping") :
    (ofMessage m b.words).IsDone m b (answerPing tools m) := by
  rw [ofMessage, if_pos hping, answerPing, pingCommand, if_pos hping]
  exact isDone_reaction hb "ping" _

end Act

namespace Audience

open GuildBot.Bot

variable {settings : Settings} {e : Entry} {m : Message} {b : Bot}

private theorem tell_of_idle {event : Event} (h : hear settings e event = pure (.ok ())) :
    tell settings event e = .done none := by
  unfold tell
  rw [h]
  rfl

private theorem eval_tell_of_isDone {a : Act} (h : a.IsDone m b (hear settings e (.message m)))
    (hid : a.fails b m = true → a.listenerId? = some e.id) :
    ∃ id? b', Flow.eval respond (tell settings (.message m) e) b = (some id?, b') ∧
      id?.toList = a.failed b m ∧ Makes (a.calls b m) b b' := by
  obtain ⟨r, b', heval, hmakes, hok⟩ := h
  rw [tell, Flow.eval_rescue, Flow.bind_def, Flow.eval_bind, heval, Act.failed]
  cases r with
  | ok u =>
    have hfails : a.fails b m = false := by
      rw [← Bool.not_not (a.fails b m), ← hok]
      rfl
    rw [hfails]
    exact ⟨none, b', rfl, rfl, hmakes⟩
  | error f =>
    have hfails : a.fails b m = true := by
      rw [← Bool.not_not (a.fails b m), ← hok]
      rfl
    rw [hfails, hid hfails]
    exact ⟨some e.id, _, rfl, rfl, hmakes.writeAll_after _⟩

private theorem eval_flag_message (hb : ∀ deeds c, (b.platform deeds c).result.isSome = true) (m : Message)
    (failed : List String) :
    ∃ b', Flow.eval respond (flag (.message m) failed) b = (some failed, b') ∧
      Makes ((Event.message m).flagCalls b.settings.failureEmoji failed) b b' := by
  by_cases hfailed : failed = []
  · subst hfailed
    exact ⟨b, rfl, .refl b⟩
  · obtain ⟨line, hflag⟩ := flag_message m hfailed
    let b₁ := b.writeAll [⟨.warn, line⟩]
    let c : Call := .addReaction m.channel.id m.id b.settings.failureEmoji
    have heval : Flow.eval respond (flag (.message m) failed) b =
        Flow.eval respond (afterFlag failed (b₁.answer c)) (b₁.asked c) := by
      rw [hflag]
      rfl
    have hmakes : Makes [c] b (b₁.asked c) := (Makes.writeAll b _).trans (.asked b₁ c)
    rw [Event.flagCalls, if_neg hfailed, heval]
    obtain ⟨r, hr⟩ := Option.isSome_iff_exists.1 (hb b.deeds c)
    have hanswer : b₁.answer c = some r := hr
    rw [hanswer]
    cases r with
    | ok u => exact ⟨_, rfl, hmakes⟩
    | error f => exact ⟨_, rfl, hmakes.writeAll_after _⟩

theorem registry_of_stock (h : b.HasStock) : ∃ d p a : Entry, b.registry = [d, p, a] ∧
    (d.id = "dice" ∧ d.listener = .dice) ∧ (p.id = "ping" ∧ p.listener = .ping) ∧
      a.id = "activity" ∧ a.listener = .activity := by
  rw [HasStock, stock] at h
  obtain ⟨d, registry, hd, hdice, h⟩ := List.map_eq_cons_iff.1 h
  obtain ⟨p, registry, rfl, hping, h⟩ := List.map_eq_cons_iff.1 h
  obtain ⟨a, registry, rfl, hactivity, h⟩ := List.map_eq_cons_iff.1 h
  obtain rfl := List.map_eq_nil_iff.1 h
  simp only [Prod.mk.injEq] at hdice hping hactivity
  exact ⟨d, p, a, hd, hdice, hping, hactivity⟩

private theorem answerRoll_of_ping (hping : m.content = "!ping") : answerRoll tools m = pure (.ok ()) := by
  have hnone : Dice.request? "!ping" = none := by decide +kernel
  rw [answerRoll, hping, hnone]

private theorem answerPing_of_not_ping (hping : m.content ≠ "!ping") :
    answerPing tools m = pure (.ok ()) :=
  if_neg hping

theorem answerRoll_or_answerPing_idle (m : Message) :
    answerRoll tools m = pure (.ok ()) ∨ answerPing tools m = pure (.ok ()) := by
  by_cases hping : m.content = "!ping"
  · exact .inl (answerRoll_of_ping hping)
  · exact .inr (answerPing_of_not_ping hping)

/-- At most one of the stock listeners has something to do about a message. -/
theorem hasSole_announced (h : b.HasStock) {plan : Telling (List String)} {s : Bot}
    (hplan : Flow.eval respond (announce (.message m)) b = (some plan, s)) : plan.HasSole := by
  obtain ⟨d, p, a, hregistry, ⟨-, hd⟩, ⟨-, hp⟩, -, ha⟩ := registry_of_stock h
  obtain rfl := Option.some.inj (congrArg Prod.fst hplan)
  have hidle {e : Entry} (he : hear b.settings e (.message m) = pure (.ok ())) :
      (tell b.settings (.message m) e).IsIdle := ⟨none, tell_of_idle he⟩
  have hactivity : (tell b.settings (.message m) a).IsIdle := hidle (by simp only [hear, ha])
  have hothers : (tell b.settings (.message m) d).IsIdle ∨ (tell b.settings (.message m) p).IsIdle :=
    (answerRoll_or_answerPing_idle m).imp (fun h => hidle (by simp only [hear, hd, h]))
      fun h => hidle (by simp only [hear, hp, h])
  have hsole : AllButOne Flow.IsIdle ([d, p, a].map (tell b.settings (.message m))) :=
    .of_pairwise (by simp [hothers, hactivity])
  rwa [← hregistry] at hsole

private theorem ends_announce_message (hb : ∀ deeds c, (b.platform deeds c).result.isSome = true)
    {a : Act} {b₁ : Bot} (results : List (Option String))
    (htold : Flow.eval respond ((b.registry.map (tell b.settings (.message m))).mapM id) b =
      (some results, b₁)) (hmakes : Makes (a.calls b m) b b₁)
    (hfailed : results.filterMap id = a.failed b m) :
    ∃ b', Flow.eval respond ((announce (.message m)).bind Plan.inTurn) b =
      (some (a.failed b m), b') ∧ Makes (a.calls b m ++ a.flags b m) b b' := by
  obtain ⟨b', hflag, hflags⟩ := eval_flag_message (b := b₁)
    (fun deeds c => by rw [hmakes.platform]; exact hb deeds c) m (a.failed b m)
  have hcalls : (Event.message m).flagCalls b₁.settings.failureEmoji (a.failed b m) =
      a.flags b m := by
    rw [Event.flagCalls, Act.flags, Act.failed, hmakes.settings]
    cases a with
    | nothing => rfl
    | reaction id emoji => split <;> rfl
    | reply text => split <;> rfl
    | refusal text emoji => split <;> rfl
  rw [hcalls] at hflags
  refine ⟨b', ?_, hmakes.trans hflags⟩
  have heval : Flow.eval respond ((announce (.message m)).bind Plan.inTurn) b =
      Flow.eval respond (((b.registry.map (tell b.settings (.message m))).mapM id).bind
        fun results => flag (.message m) (results.filterMap id)) b := rfl
  rw [heval, Flow.eval_bind, htold]
  dsimp only
  rw [hfailed, hflag]

/-- Telling the stock listeners of a message comes down to one act, and what flags it. -/
theorem eval_announce_message (h : b.HasStock)
    (hb : ∀ deeds c, (b.platform deeds c).result.isSome = true) (m : Message) :
    let a := Act.ofMessage m b.words
    ∃ b', Flow.eval respond ((announce (.message m)).bind Plan.inTurn) b =
        (some (a.failed b m), b') ∧ Makes (a.calls b m ++ a.flags b m) b b' := by
  obtain ⟨d, p, a, hregistry, ⟨hdid, hd⟩, ⟨hpid, hp⟩, -, ha⟩ := registry_of_stock h
  have hidle {e : Entry} (he : hear b.settings e (.message m) = pure (.ok ())) :
      tell b.settings (.message m) e = .done none := tell_of_idle he
  have hactivity : tell b.settings (.message m) a = .done none := hidle (by simp only [hear, ha])
  by_cases hping : m.content = "!ping"
  · have hdice : tell b.settings (.message m) d = .done none :=
      hidle (by simp only [hear, hd, answerRoll_of_ping hping])
    have hhear : hear b.settings p (.message m) = answerPing tools m := by simp only [hear, hp]
    obtain ⟨id?, b₁, heval, hfailed, hmakes⟩ := eval_tell_of_isDone
      (hhear ▸ Act.isDone_answerPing hb hping) fun _ => hpid ▸ Act.listenerId?_of_ping hping
    refine ends_announce_message hb [none, id?, none] ?_ hmakes (by rw [← hfailed]; cases id? <;> rfl)
    rw [hregistry]
    simp only [List.map_cons, List.map_nil, List.mapM_cons, List.mapM_nil, Flow.bind_def,
      Flow.pure_def, id_eq, hdice, hactivity, Flow.bind, Flow.eval_bind, heval, Flow.eval_done]
  · have hplain : tell b.settings (.message m) p = .done none :=
      hidle (by simp only [hear, hp, answerPing_of_not_ping hping])
    have hhear : hear b.settings d (.message m) = answerRoll tools m := by simp only [hear, hd]
    obtain ⟨id?, b₁, heval, hfailed, hmakes⟩ := eval_tell_of_isDone
      (hhear ▸ Act.isDone_answerRoll hb m hping) fun hfails =>
        hdid ▸ Act.listenerId?_of_fails hping hfails
    refine ends_announce_message hb [id?, none, none] ?_ hmakes (by rw [← hfailed]; cases id? <;> rfl)
    rw [hregistry]
    simp only [List.map_cons, List.map_nil, List.mapM_cons, List.mapM_nil, Flow.bind_def,
      Flow.pure_def, id_eq, hplain, hactivity, Flow.bind, Flow.eval_bind, heval, Flow.eval_done]

end Audience

end GuildBot
