import GuildBot.Bot.Exchange
import GuildBot.Proofs.Cache.Fetch

namespace GuildBot

open Platform Std

namespace Bot

def writeAll (b : Bot) (lines : List Log.Line) : Bot := { b with log := b.log ++ lines }

variable (b : Bot) (c : Call) (lines : List Log.Line)

@[simp] theorem writeAll_nil : b.writeAll [] = b := by simp [writeAll]

@[simp] theorem writeAll_writeAll (lines' : List Log.Line) :
    (b.writeAll lines).writeAll lines' = b.writeAll (lines ++ lines') := by
  simp [writeAll]

@[simp] theorem answer_writeAll : (b.writeAll lines).answer c = b.answer c := rfl

@[simp] theorem asked_writeAll : (b.writeAll lines).asked c = (b.asked c).writeAll lines := by
  unfold asked writeAll
  split <;> rfl

@[simp] theorem guilds_writeAll : (b.writeAll lines).guilds = b.guilds := rfl
@[simp] theorem channels_writeAll : (b.writeAll lines).channels = b.channels := rfl
@[simp] theorem users_writeAll : (b.writeAll lines).users = b.users := rfl
@[simp] theorem now_writeAll : (b.writeAll lines).now = b.now := rfl
@[simp] theorem deeds_writeAll : (b.writeAll lines).deeds = b.deeds := rfl

@[simp] theorem guilds_asked : (b.asked c).guilds = b.guilds := by unfold asked; split <;> rfl
@[simp] theorem channels_asked : (b.asked c).channels = b.channels := by unfold asked; split <;> rfl
@[simp] theorem users_asked : (b.asked c).users = b.users := by unfold asked; split <;> rfl
@[simp] theorem now_asked : (b.asked c).now = b.now := by unfold asked; split <;> rfl

end Bot

namespace Action

@[simp] theorem eval_note (level : Log.Level) (message : String) (b : Bot) :
    Flow.eval Bot.respond (note level message) b = (some (), b.writeAll [⟨level, message⟩]) := rfl

theorem unhindered_note (level : Log.Level) (message : String) {uses : List Lock} :
    (note level message).Unhindered uses 0 := .act _ fun _ => .done ()

theorem eval_call (c : Call) (b : Bot) :
    Flow.eval Bot.respond (call c) b = (b.answer c, b.asked c) := by
  rw [call]
  simp only [Flow.bind_def, Program.call, Flow.bind, Flow.eval, Bot.respond]
  cases b.answer c <;> rfl

theorem unhindered_call (c : Call) {uses : List Lock} : (call c).Unhindered uses 1 := by
  have hcall : (Program.call c : Action c.Answer).Unhindered uses 1 := .call c
  apply hcall.bind (n := 0)
  intro r
  cases r with
  | none => exact .panic
  | some r => exact .done r

end Action

namespace Directory

section

variable {κ α : Type} [Ord κ] [TransOrd κ] (place : Cache.Place Bot Lock κ α) (key : κ)
  (fetch : Action (Except (Partial α) α)) (b : Bot)

@[simp] theorem eval_find_empty :
    Flow.eval Bot.respond (find place "" key fetch) b = (some (.ok none), b) := rfl

theorem eval_find_of_peek {id : String} (hid : id ≠ "") {record : α}
    (hp : (place.view b).peek (place.now b) key = some record) :
    Flow.eval Bot.respond (find place id key fetch) b = (some (.ok (some record)), b) := by
  simp only [find, hid, if_false, Flow.bind_def, Flow.eval_bind, Cache.Place.eval_get, hp]
  rfl

/-- What comes of a lookup by what a fetch has learned: a complete record is stored. -/
def settle (learned : Option (Except (Partial α) α)) (b : Bot) : Option (Found α) × Bot :=
  match learned with
  | some (.ok record) => match (place.view b).insert? (place.now b) key record with
    | some c => (some (.ok (some record)), place.put c b)
    | none => (none, b)
  | some (.error p) => (some (.error p), b)
  | none => (none, b)

theorem eval_find_of_peek_none {id : String} (hid : id ≠ "")
    (hp : (place.view b).peek (place.now b) key = none) :
    Flow.eval Bot.respond (find place id key fetch) b =
      settle place key (Flow.eval Bot.respond fetch b).1 (Flow.eval Bot.respond fetch b).2 := by
  simp only [find, hid, if_false, Flow.bind_def, Flow.eval_bind, Cache.Place.eval_get, hp]
  rcases Flow.eval Bot.respond fetch b with ⟨_ | p | record, b⟩
  · rfl
  · rfl
  · cases hi : (place.view b).insert? (place.now b) key record <;> simp [settle, hi]

theorem unhindered_find {id : String} {fetch : Action (Except (Partial α) α)} {uses : List Lock}
    {n : Nat} (hf : fetch.Unhindered uses n) (hl : place.lock ∉ uses) :
    (find place id key fetch).Unhindered (place.lock :: uses) (n + 2) := by
  unfold find
  split
  · exact (Flow.Unhindered.done _).mono (List.Subset.refl _) (Nat.zero_le _)
  · apply (place.unhindered_get key hf hl).bind (n := 0)
    intro r
    cases r with
    | error p => exact .done _
    | ok record => exact .done _

end

variable (b : Bot)

/-- Nothing that a lookup writes to the log is on the level of information. -/
def Hushed (lines : List Log.Line) : Prop := ∀ line ∈ lines, line.level ≠ .info

theorem Hushed.append {lines lines' : List Log.Line} (h : Hushed lines) (h' : Hushed lines') :
    Hushed (lines ++ lines') :=
  fun line hl => (List.mem_append.1 hl).elim (h line) (h' line)

private theorem eval_fetchPart {β : Type} (c : Call) (what purpose : String) (stub : β) :
    ∃ lines, Hushed lines ∧ Flow.eval Bot.respond (fetchPart (Action.call c) what purpose stub) b =
      (b.learnPart c purpose stub, (b.asked c).writeAll lines) := by
  rw [fetchPart, Bot.learnPart]
  simp only [Flow.bind_def, Flow.eval_bind, Action.eval_call]
  rcases b.answer c with _ | f | r
  · exact ⟨[], by simp [Hushed], by simp⟩
  · exact ⟨[⟨.error, s!"Failed to retrieve {what}: {f.message}"⟩], by simp [Hushed], rfl⟩
  · exact ⟨[], by simp [Hushed], by simp⟩

theorem unhindered_fetchPart {β : Type} (c : Call) (what purpose : String) (stub : β)
    {uses : List Lock} :
    (fetchPart (Action.call c) what purpose stub).Unhindered uses 1 := by
  apply (Action.unhindered_call c).bind (n := 0)
  intro r
  cases r with
  | ok r => exact .done _
  | error f => exact (Action.unhindered_note _ _).bind (n := 0) fun _ => .done _

theorem eval_note_fetchPart {β : Type} (message : String) (c : Call) (what purpose : String)
    (stub : β) :
    ∃ lines, Hushed lines ∧ Flow.eval Bot.respond
        ((Action.note .debug message).bind fun _ => fetchPart (Action.call c) what purpose stub) b =
      (b.learnPart c purpose stub, (b.asked c).writeAll lines) := by
  obtain ⟨lines, hl, heval⟩ :=
    eval_fetchPart (b.writeAll [⟨.debug, message⟩]) c what purpose stub
  refine ⟨⟨.debug, message⟩ :: lines, by simpa [Hushed] using hl, ?_⟩
  rw [Flow.eval_bind, Action.eval_note]
  simpa [Bot.learnPart] using heval

theorem eval_fetchUser (id guildId : String) :
    ∃ lines, Hushed lines ∧ Flow.eval Bot.respond (fetchUser id guildId) b =
      (b.learnUser id guildId, (b.askedAll (b.callsForUser id guildId)).writeAll lines) := by
  unfold fetchUser fetchPart Bot.learnUser Bot.learnPart Bot.callsForUser
  simp only [Flow.bind_def, Flow.eval_bind, Action.eval_note, Action.eval_call,
    Bot.answer_writeAll, Bot.asked_writeAll]
  cases hu : b.answer (.fetchUser id) with
  | none => exact ⟨[⟨.debug, "Fetching user info ..."⟩], by simp [Hushed], rfl⟩
  | some r =>
    cases r with
    | error f =>
      let what := "user info"
      refine ⟨[⟨.debug, "Fetching user info ..."⟩,
        ⟨.error, s!"Failed to retrieve {what}: {f.message}"⟩], by simp [Hushed], ?_⟩
      simp [Flow.eval_bind, Bot.askedAll, what]
    | ok u =>
      by_cases hg : guildId = ""
      · refine ⟨[⟨.debug, "Fetching user info ..."⟩], by simp [Hushed], ?_⟩
        simp [hg, Bot.askedAll]
      · simp only [Option.map_some, hg, if_false, Flow.eval_bind, Flow.pure_def, Flow.eval_done,
          Action.eval_call, Bot.answer_writeAll, Bot.asked_writeAll]
        cases hm : (b.asked (.fetchUser id)).answer (.fetchMember guildId id) with
        | none => exact ⟨[⟨.debug, "Fetching user info ..."⟩], by simp [Hushed], rfl⟩
        | some r =>
          cases r with
          | error f =>
            let what := "guild member info"
            refine ⟨[⟨.debug, "Fetching user info ..."⟩,
              ⟨.error, s!"Failed to retrieve {what}: {f.message}"⟩], by simp [Hushed], ?_⟩
            simp [Flow.eval_bind, Bot.askedAll, what]
            rfl
          | ok member => exact ⟨[⟨.debug, "Fetching user info ..."⟩], by simp [Hushed], rfl⟩

theorem unhindered_guild (id : String) : (guild id).Unhindered [.guilds] 3 :=
  unhindered_find Bot.guildPlace id
    ((Action.unhindered_note _ _).bind fun _ => unhindered_fetchPart _ _ _ _) List.not_mem_nil

theorem unhindered_channel (id : String) : (channel id).Unhindered [.channels] 3 :=
  unhindered_find Bot.channelPlace id
    ((Action.unhindered_note _ _).bind fun _ => unhindered_fetchPart _ _ _ _) List.not_mem_nil

theorem unhindered_fetchUser (id guildId : String) {uses : List Lock} :
    (fetchUser id guildId).Unhindered uses 2 := by
  apply (Action.unhindered_note _ _).bind (n := 2)
  intro _
  apply (unhindered_fetchPart _ _ _ _).bind (n := 1)
  intro r
  cases r with
  | error p => exact (Flow.Unhindered.done _).mono (List.Subset.refl _) (Nat.zero_le _)
  | ok user =>
    by_cases hg : guildId = ""
    · simp only [hg, if_true]
      exact (Flow.Unhindered.done _).mono (List.Subset.refl _) (Nat.zero_le _)
    · simp only [hg, if_false]
      apply (unhindered_fetchPart _ _ _ _).bind (n := 0)
      intro r
      cases r with
      | error p => exact .done _
      | ok member => exact .done _

theorem unhindered_user (id guildId : String) : (user id guildId).Unhindered [.users] 4 :=
  unhindered_find Bot.userPlace ⟨id, guildId⟩ (unhindered_fetchUser id guildId) List.not_mem_nil

theorem unhindered_channels (guildId : String) {uses : List Lock} :
    (channels guildId).Unhindered uses 1 := by
  unfold channels
  split
  · exact (Flow.Unhindered.done _).mono (List.Subset.refl _) (Nat.zero_le _)
  · exact (Action.unhindered_call _).bind (n := 0) fun _ => .done _

theorem eval_channels {guildId : String} (hg : guildId ≠ "") :
    Flow.eval Bot.respond (channels guildId) b =
      ((b.answer (.fetchGuildChannels guildId)).map (Outcome.inContext "getting channels"),
        b.asked (.fetchGuildChannels guildId)) := by
  simp only [channels, hg, if_false, Flow.bind_def, Flow.eval_bind, Action.eval_call]
  cases b.answer (.fetchGuildChannels guildId) <;> rfl

end Directory

open Directory

theorem eval_makeDo {α : Type} (what : String) (found : Found α) (b : Bot) :
    ∃ lines, Hushed lines ∧ Flow.eval Bot.respond (found.makeDo Action.note what) b =
      (some found.record?, b.writeAll lines) := by
  cases found with
  | ok found => exact ⟨[], by simp [Hushed], by rw [Bot.writeAll_nil]; rfl⟩
  | error p =>
    exact ⟨[⟨.warn, s!"Using partial {what} record: {p.failure.message}"⟩], by simp [Hushed], rfl⟩

theorem unhindered_makeDo {α : Type} (what : String) (found : Found α) {uses : List Lock} :
    (found.makeDo Action.note what).Unhindered uses 0 := by
  cases found with
  | ok found => exact .done _
  | error p => exact (Action.unhindered_note _ _).bind fun _ => .done _

end GuildBot
