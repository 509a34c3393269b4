import GuildBot.Proofs.Rehearsal.Holdings
import GuildBot.Proofs.Rehearsal.Step

/-!
# Lookups follow the ledger

What a lookup in a run returns is what the ledger of the run says, and where the ledger has no record
that counts, the lookup goes to the platform.
-/

namespace GuildBot.Rehearsal

open Platform Std Directory

/-- Whether the caches of a bot are as a ledger says. -/
structure Agrees (b : Bot) (l : Ledger) : Prop where
  guilds : Records b.lifetime b.now b.guilds l.guilds
  channels : Records b.lifetime b.now b.channels l.channels
  users : Records b.lifetime b.now b.users l.users

namespace Agrees

variable {b b' : Bot} {l : Ledger}

theorem ofSettings (settings : Settings) (platform : Behaviour) (clock : Clock)
    (handClock wallClock : Instant) :
    Agrees (.ofSettings settings platform clock handClock wallClock) {} :=
  ⟨.ofDuration _ _, .ofDuration _ _, .ofDuration _ _⟩

theorem later (h : Agrees b l) (hs : b'.settings = b.settings)
    (hn : b.now.nanoseconds ≤ b'.now.nanoseconds) (hg : b'.guilds = b.guilds)
    (hc : b'.channels = b.channels) (hu : b'.users = b.users) : Agrees b' l := by
  have hd : b'.lifetime = b.lifetime := by rw [Bot.lifetime, hs, Bot.lifetime]
  refine ⟨?_, ?_, ?_⟩
  · rw [hd, hg]; exact h.guilds.later hn
  · rw [hd, hc]; exact h.channels.later hn
  · rw [hd, hu]; exact h.users.later hn

end Agrees

/-- A cache of the bot with the holdings of the ledger that tell of it, and how a lookup through it is
shown. -/
structure Account (κ α : Type) [Ord κ] [TransOrd κ] [LawfulEqOrd κ] [DecidableEq κ] extends
    Shelf κ α where
  wrap : Found α → Finding
  holdings : Ledger → Holdings κ α
  setHoldings : Holdings κ α → Ledger → Ledger
  setHoldings_holdings : ∀ l, setHoldings (holdings l) l = l
  isComplete_wrap : ∀ found, (Shown.found (wrap (.ok found))).isComplete = true
  records : ∀ {b l}, Agrees b l → Records b.lifetime b.now (place.view b) (holdings l)
  agrees_put : ∀ {b l c hs}, Agrees b l → Records b.lifetime b.now c hs →
    Agrees (place.put c b) (setHoldings hs l)

namespace Account

def guilds : Account String Guild where
  toShelf := .guilds
  wrap := .guild
  holdings l := l.guilds
  setHoldings guilds l := { l with guilds }
  setHoldings_holdings _ := rfl
  isComplete_wrap _ := rfl
  records h := h.guilds
  agrees_put h hr := ⟨hr, h.channels, h.users⟩

def channels : Account String Channel where
  toShelf := .channels
  wrap := .channel
  holdings l := l.channels
  setHoldings channels l := { l with channels }
  setHoldings_holdings _ := rfl
  isComplete_wrap _ := rfl
  records h := h.channels
  agrees_put h hr := ⟨h.guilds, hr, h.users⟩

def users : Account UserKey User where
  toShelf := .users
  wrap := .user
  holdings l := l.users
  setHoldings users l := { l with users }
  setHoldings_holdings _ := rfl
  isComplete_wrap _ := rfl
  records h := h.users
  agrees_put h hr := ⟨h.guilds, h.channels, hr⟩

end Account

/-- What a lookup in a run comes to: what was found, if anything was, and else what is learned by
some calls. -/
structure Looked (b : Bot) (found? : Option Finding) (learned : Shown) (calls : List Call)
    (r : Shown × Bot) : Prop where
  hit : ∀ f, found? = some f → r.1 = .found f ∧ r.2 = b
  miss : found? = none → r.1 = learned ∧ r.2.deeds = (b.askedAll calls).deeds
  incomplete : r.1.isComplete = false →
    r.2.guilds = b.guilds ∧ r.2.channels = b.channels ∧ r.2.users = b.users

section

variable {κ α : Type} [Ord κ] [TransOrd κ] [LawfulEqOrd κ] [DecidableEq κ] (acc : Account κ α)
  {b : Bot} {l : Ledger} {key : κ} {learned : Option (Except (Partial α) α)} {calls : List Call}
  {r : Option (Found α) × Bot}

private theorem looked_of_miss {found? : Option Finding} {shown : Shown} {b' : Bot}
    (hf : found? = none) (hs : shown = shownOf b acc.wrap learned)
    (hd : b'.deeds = (b.askedAll calls).deeds)
    (hc : shown.isComplete = false →
      b'.guilds = b.guilds ∧ b'.channels = b.channels ∧ b'.users = b.users) :
    Looked b found? (shownOf b acc.wrap learned) calls (shown, b') := by
  refine ⟨?_, fun _ => ⟨hs, hd⟩, hc⟩
  intro f hf'
  rw [hf] at hf'
  cases hf'

private theorem add?_of_insert? (h : Agrees b l) (record : α) :
    ((acc.place.view b).insert? b.now key record).isSome = (b.now.add? b.lifetime).isSome := by
  rw [Bool.eq_iff_iff, Cache.insert?_isSome_iff, (acc.records h).lifetime]

private theorem looked_of_sought (h : Agrees b l) (hs : Sought acc.toShelf key learned calls b r) :
    Looked b (((acc.holdings l).live? b.lifetime b.now key).map fun record =>
        acc.wrap (.ok (some record)))
      (shownOf b acc.wrap learned) calls
      (r.1.elim .panicked (fun f => .found (acc.wrap f)), r.2) := by
  rw [← (acc.records h).peek_eq key]
  have hsame (lines : List Log.Line) :
      let b' := (b.askedAll calls).writeAll lines
      b'.guilds = b.guilds ∧ b'.channels = b.channels ∧ b'.users = b.users :=
    ⟨b.guilds_askedAll calls, b.channels_askedAll calls, b.users_askedAll calls⟩
  cases hs with
  | cached record hp =>
    refine ⟨?_, ?_, fun _ => ⟨rfl, rfl, rfl⟩⟩
    · intro f hf
      rw [hp] at hf
      cases hf
      exact ⟨rfl, rfl⟩
    · intro hn
      rw [hp] at hn
      cases hn
  | fetched record c lines _ hp hr hi =>
    have hsome : (b.now.add? b.lifetime).isSome = true := by
      rw [← add?_of_insert? acc h record, hi]
      rfl
    refine looked_of_miss acc (by rw [hp]; rfl) ?_ (acc.deeds_put _ _) ?_
    · rw [hr, shownOf, if_pos hsome]
      rfl
    · intro hc
      rw [Option.elim_some, acc.isComplete_wrap] at hc
      cases hc
  | full record lines _ hp hr hi =>
    have hnone : ¬(b.now.add? b.lifetime).isSome = true := by
      rw [← add?_of_insert? acc h record, hi]
      simp
    refine looked_of_miss acc (by rw [hp]; rfl) ?_ rfl fun _ => hsame lines
    rw [hr, shownOf, if_neg hnone]
    rfl
  | partly p lines _ hp hr =>
    exact looked_of_miss acc (by rw [hp]; rfl) (by rw [hr]; rfl) rfl fun _ => hsame lines
  | broken lines _ hp hr =>
    exact looked_of_miss acc (by rw [hp]; rfl) (by rw [hr]; rfl) rfl fun _ => hsame lines

private theorem agrees_of_sought (h : Agrees b l) (hs : Sought acc.toShelf key learned calls b r) :
    Agrees r.2 (acc.setHoldings ((acc.holdings l).lookUp b.lifetime b.now key learned) l) := by
  have hrec := acc.records h
  have hasked (lines : List Log.Line) : Agrees ((b.askedAll calls).writeAll lines) l :=
    have hkept := (Bot.Kept.askedAll b calls).trans (.writeAll _ lines)
    h.later hkept.settings hkept.le_now (b.guilds_askedAll calls)
      (b.channels_askedAll calls) (b.users_askedAll calls)
  have hkeep {b' : Bot} (h' : Agrees b' l)
      (hsame : (acc.holdings l).lookUp b.lifetime b.now key learned = acc.holdings l) :
      Agrees b' (acc.setHoldings ((acc.holdings l).lookUp b.lifetime b.now key learned) l) := by
    rwa [hsame, acc.setHoldings_holdings]
  cases hs with
  | cached record hp =>
    refine hkeep h ?_
    unfold Holdings.lookUp
    rw [← hrec.peek_eq key, hp]
  | fetched record c lines _ hp hr hi =>
    have hkept := (Bot.Kept.askedAll b calls).trans (.writeAll _ lines)
    have hlook := hrec.lookUp hp learned
    rw [hr, stored, hi, Option.getD_some, ← hr] at hlook
    apply acc.agrees_put (hasked lines)
    rw [hkept.lifetime, hkept.now]
    exact hlook
  | full record lines _ hp hr hi =>
    refine hkeep (hasked lines) ?_
    unfold Holdings.lookUp
    rw [← hrec.peek_eq key, hp, hr]
    exact hrec.put_of_insert?_eq_none hi
  | partly p lines _ hp hr =>
    refine hkeep (hasked lines) ?_
    unfold Holdings.lookUp
    rw [← hrec.peek_eq key, hp, hr]
  | broken lines _ hp hr =>
    refine hkeep (hasked lines) ?_
    unfold Holdings.lookUp
    rw [← hrec.peek_eq key, hp, hr]

end

variable {b : Bot} {l : Ledger}

private theorem elim_map {α β γ : Type} (o : Option α) (f : α → β) (x : γ) (g : β → γ) :
    (o.map f).elim x g = o.elim x fun a => g (f a) := by
  cases o <;> rfl

private theorem looked (h : Agrees b l) {q : Query} (hq : q.IsNamed) :
    let r := Session.stepBot b (.look q)
    Looked b (l.find? b q) (q.learned b) (q.calls b) (r.1, r.2.2) ∧
      Agrees r.2.2 (l.lookUp b q) := by
  obtain ⟨hshown, hbot⟩ := Session.stepBot_look b q
  dsimp only
  rw [hshown, hbot]
  cases q with
  | guild id =>
    have hlook : (Query.guild id).look = (guild id).bind fun found => .done (.guild found) := rfl
    rw [Ledger.lookUp, if_neg hq, hlook, Flow.eval_bind_done, elim_map]
    have hsought := sought_guild hq b
    exact ⟨looked_of_sought .guilds h hsought, agrees_of_sought .guilds h hsought⟩
  | channel id =>
    have hlook : (Query.channel id).look =
      (channel id).bind fun found => .done (.channel found) := rfl
    rw [Ledger.lookUp, if_neg hq, hlook, Flow.eval_bind_done, elim_map]
    have hsought := sought_channel hq b
    exact ⟨looked_of_sought .channels h hsought, agrees_of_sought .channels h hsought⟩
  | user id guildId =>
    have hlook : (Query.user id guildId).look =
      (user id guildId).bind fun found => .done (.user found) := rfl
    rw [Ledger.lookUp, if_neg hq, hlook, Flow.eval_bind_done, elim_map]
    have hsought := sought_user hq guildId b
    exact ⟨looked_of_sought .users h hsought, agrees_of_sought .users h hsought⟩
  | channels guildId => exact hq.elim

private theorem agrees_look_of_not_isNamed (h : Agrees b l) {q : Query} (hq : ¬q.IsNamed) :
    Agrees (Session.stepBot b (.look q)).2.2 (l.lookUp b q) := by
  rw [(Session.stepBot_look b q).2]
  cases q with
  | guild id =>
    obtain rfl := Decidable.not_not.1 hq
    exact h
  | channel id =>
    obtain rfl := Decidable.not_not.1 hq
    exact h
  | user id guildId =>
    obtain rfl := Decidable.not_not.1 hq
    exact h
  | channels guildId =>
    have hlook : (Query.channels guildId).look =
      (channels guildId).bind fun found => .done (.channels found) := rfl
    rw [hlook, Flow.eval_bind_done]
    by_cases hg : guildId = ""
    · subst hg
      exact h
    · rw [eval_channels b hg]
      exact h.later (Bot.Kept.asked b _).settings (by simp) (b.guilds_asked _) (b.channels_asked _)
        (b.users_asked _)

theorem pushed_member (h : Agrees b l) (update : MemberUpdate) :
    let r := Session.stepBot b (.pushMember update)
    r.2.2.deeds = b.deeds ∧ Agrees r.2.2 (l.absorbMember b update) := by
  obtain ⟨changes, lines, heval⟩ := eval_absorbMember b update
  dsimp only
  rw [(Session.stepBot_pushMember b update).2, heval]
  have hpeek := h.users.peek_eq ⟨update.userId, update.guildId⟩
  unfold absorbed? Ledger.absorbMember
  dsimp only
  rw [← hpeek]
  by_cases hlive : (b.users.peek b.now ⟨update.userId, update.guildId⟩).isSome = true
  · simp only [hlive, if_true]
    exact ⟨rfl, h.guilds, h.channels, (h.users.revise _ _).revise _ _⟩
  · simp only [hlive]
    have hsome := b.users.insert?_isSome_iff b.now ⟨update.userId, update.guildId⟩
      (User.ofUpdate update true)
    rw [h.users.lifetime] at hsome
    cases hi : b.users.insert? b.now ⟨update.userId, update.guildId⟩ (User.ofUpdate update true) with
    | none =>
      have hadd : ¬(b.now.add? b.lifetime).isSome = true := fun hadd => by
        rw [← hsome, hi] at hadd
        cases hadd
      simp only [hadd]
      exact ⟨rfl, h.guilds, h.channels, h.users⟩
    | some c =>
      have hadd : (b.now.add? b.lifetime).isSome = true := by
        rw [← hsome, hi]
        rfl
      simp only [hadd, if_true]
      exact ⟨rfl, h.guilds, h.channels, (h.users.put hi).revise _ _⟩

theorem pushed_channel (h : Agrees b l) (update : ChannelUpdate) :
    let r := Session.stepBot b (.pushChannel update)
    r.2.2.deeds = b.deeds ∧ Agrees r.2.2 (l.absorbChannel b update) := by
  obtain ⟨changes, lines, heval⟩ := eval_absorbChannel b update
  dsimp only
  rw [(Session.stepBot_pushChannel b update).2, heval]
  have hpeek := h.channels.peek_eq update.channelId
  unfold absorbedChannel? Ledger.absorbChannel
  dsimp only
  rw [← hpeek]
  by_cases hlive : (b.channels.peek b.now update.channelId).isSome = true
  · simp only [hlive, if_true]
    exact ⟨rfl, h.guilds, h.channels.revise _ _, h.users⟩
  · simp only [hlive]
    cases hi : b.channels.insert? b.now update.channelId
        { id := update.channelId, name := update.name } with
    | none =>
      simp only [Bool.false_eq_true, if_false, h.channels.put_of_insert?_eq_none hi]
      exact ⟨rfl, h.guilds, h.channels, h.users⟩
    | some c => exact ⟨rfl, h.guilds, h.channels.put hi, h.users⟩

theorem Agrees.step (h : Agrees b l) {s : Step} (hs : s.IsDirectory)
    (hclock : b.now.nanoseconds ≤ (Session.stepBot b s).2.2.now.nanoseconds) :
    Agrees (Session.stepBot b s).2.2 (l.step b s) := by
  cases s with
  | look q =>
    by_cases hq : q.IsNamed
    · exact (looked h hq).2
    · exact agrees_look_of_not_isNamed h hq
  | pushMember update => exact (pushed_member h update).2
  | pushChannel update => exact (pushed_channel h update).2
  | advance d =>
    obtain ⟨t, ht⟩ := Session.stepBot_advance b d
    rw [ht] at hclock ⊢
    exact h.later rfl hclock rfl rfl rfl
  | setClock t => exact h.later rfl hclock rfl rfl rfl
  | _ => exact hs.elim

theorem Agrees.after (h : Agrees b l) {steps : List Step} (hs : ∀ s ∈ steps, s.IsDirectory)
    (hclock : Session.NeverGoesBack b steps) :
    Agrees (Session.botAfter b steps) (l.after b steps) := by
  induction steps generalizing b l with
  | nil => exact h
  | cons s rest ih =>
    exact ih (h.step (hs s List.mem_cons_self) hclock.1)
      (fun s hs' => hs s (List.mem_cons_of_mem _ hs')) hclock.2

private theorem since_revise {κ α : Type} [DecidableEq κ] (hs : Holdings κ α) (key : κ) (f : α → α)
    (k : κ) : (hs.revise key f k).map Holding.since = (hs k).map Holding.since := by
  unfold Holdings.revise
  by_cases hk : k = key
  · simp [hk, Function.comp_def]
  · simp [hk]

private theorem since_put {κ α : Type} [DecidableEq κ] (hs : Holdings κ α) {key k : κ} (hk : k ≠ key)
    (d : Duration) (now : Instant) (record : α) : hs.put d now key record k = hs k := by
  unfold Holdings.put
  split
  · simp [hk]
  · rfl

private theorem since_absorbMember (update : MemberUpdate) {key : UserKey}
    (hlive : (l.users.live? b.lifetime b.now key).isSome = true) :
    ((l.absorbMember b update).users key).map Holding.since =
      (l.users key).map Holding.since := by
  unfold Ledger.absorbMember
  dsimp only
  split
  · rw [since_revise, since_revise]
  · next hdead =>
    split
    · have hk : key ≠ ⟨update.userId, update.guildId⟩ := by
        rintro rfl
        exact hdead hlive
      rw [since_revise, since_put _ hk]
    · rfl

private theorem since_absorbChannel (update : ChannelUpdate) {key : String}
    (hlive : (l.channels.live? b.lifetime b.now key).isSome = true) :
    ((l.absorbChannel b update).channels key).map Holding.since =
      (l.channels key).map Holding.since := by
  unfold Ledger.absorbChannel
  dsimp only
  split
  · rw [since_revise]
  · next hdead =>
    have hk : key ≠ update.channelId := by
      rintro rfl
      exact hdead hlive
    rw [since_put _ hk]

/-- In a run of lookups, pushed updates and clocks that do not go back, a lookup of a record finds
what the ledger has under its key, and then the bot does nothing. Otherwise it makes the calls for
the record and shows what it learns by them; what is not complete is not cached. Pushed updates make
no calls, and no live record stays longer for them. -/
theorem lookups_follow_ledger (settings : Settings) (platform : Behaviour) (clock : Clock)
    (handClock wallClock : Instant) (steps : List Step) (hsteps : ∀ s ∈ steps, s.IsDirectory)
    (hclock : Session.NeverGoesBack (.ofSettings settings platform clock handClock wallClock) steps) :
    let b₀ := Bot.ofSettings settings platform clock handClock wallClock
    let b := Session.botAfter b₀ steps
    let l := Ledger.after {} b₀ steps
    (∀ q : Query, q.IsNamed →
      let r := Session.stepBot b (.look q)
      Looked b (l.find? b q) (q.learned b) (q.calls b) (r.1, r.2.2)) ∧
    (∀ update : MemberUpdate,
      (Session.stepBot b (.pushMember update)).2.2.deeds = b.deeds ∧
      ∀ key, (l.users.live? b.lifetime b.now key).isSome = true →
        ((l.step b (.pushMember update)).users key).map Holding.since =
          (l.users key).map Holding.since) ∧
    ∀ update : ChannelUpdate,
      (Session.stepBot b (.pushChannel update)).2.2.deeds = b.deeds ∧
      ∀ key, (l.channels.live? b.lifetime b.now key).isSome = true →
        ((l.step b (.pushChannel update)).channels key).map Holding.since =
          (l.channels key).map Holding.since := by
  intro b₀ b l
  have h : Agrees b l :=
    (Agrees.ofSettings settings platform clock handClock wallClock).after hsteps hclock
  refine ⟨fun q hq => (looked h hq).1, fun update => ⟨(pushed_member h update).1, ?_⟩,
    fun update => ⟨(pushed_channel h update).1, ?_⟩⟩
  · exact fun key hlive => since_absorbMember update hlive
  · exact fun key hlive => since_absorbChannel update hlive

/-- A channel announced four seconds ago, with a lifetime of five. -/
def announcedChannel : List Step :=
  [.pushChannel { guildId := "7", channelId := "1", name := "general" }, .advance (.ofSeconds 4)]

theorem lookups_follow_ledger_announcedChannel :
    let b₀ := Bot.ofSettings { token := "t" } unconnected .hand ⟨0⟩ ⟨0⟩
    let b := Session.botAfter b₀ announcedChannel
    (Session.stepBot b (.look (.channel "1"))).1 =
      .found (.channel (.ok (some { id := "1", name := "general" }))) :=
  ((lookups_follow_ledger { token := "t" } unconnected .hand ⟨0⟩ ⟨0⟩ announcedChannel
    (by simp [announcedChannel, Step.IsDirectory]) ⟨by decide, by decide, trivial⟩).1
    (.channel "1") (show "1" ≠ "" by decide)).hit _ rfl |>.1

end GuildBot.Rehearsal
