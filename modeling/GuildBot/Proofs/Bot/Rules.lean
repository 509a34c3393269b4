import GuildBot.Proofs.Bot.ActionProperty
import GuildBot.Proofs.Cache.Rules
import GuildBot.Proofs.Flow.Lawful

namespace GuildBot

open Platform Std Directory

def Bot.rules : Rules Bot Lock where
  rank := Lock.rank
  allows update := ∀ b : Bot, b.Steady (update b)

theorem Bot.rules_confines : Bot.rules.Confines Bot.respond Bot.Steady where
  refl := .refl
  trans := .trans
  change _ h := h
  call b c := (Kept.asked b c).toSteady

variable {α β : Type} {base : List Lock}

namespace Action

/-- Whether an action that holds some locks obeys the rules, and gives back what it takes. -/
def Obeys (base : List Lock) (f : Action α) : Prop :=
  Flow.Obeys Bot.rules base (fun _ => True) base f

namespace Obeys

theorem done (a : α) : Obeys base (.done a) := ⟨rfl, trivial⟩

theorem act {update : Bot → Bot} {next : Bot → Action α} (hu : ∀ b : Bot, b.Steady (update b))
    (h : ∀ b, Obeys base (next b)) : Obeys base (.act update next) := ⟨hu, h⟩

theorem bind {f : Action α} {g : α → Action β} (hf : f.Obeys base) (hg : ∀ a, (g a).Obeys base) :
    Obeys base (f.bind g) :=
  Flow.Obeys.bind hf fun a _ => hg a

theorem rescue {f instead : Action α} (hf : f.Obeys base) (hi : instead.Obeys base) :
    Obeys base (f.rescue instead) :=
  Flow.Obeys.rescue hf hi

theorem change {update : Bot → Bot} (hu : ∀ b : Bot, b.Steady (update b)) :
    Obeys base (Flow.change update) := act hu fun _ => done ()

theorem swap {f : Bot → α × Bot} (hf : ∀ b : Bot, b.Steady (f b).2) : Obeys base (Flow.swap f) :=
  act hf fun _ => done _

theorem wait (milliseconds : Nat) : Obeys base (Program.wait milliseconds) := fun _ => done ()

theorem note (level : Log.Level) (message : String) : Obeys base (Action.note level message) :=
  change fun _ => ⟨rfl, rfl, rfl, rfl, rfl⟩

theorem call (c : Call) : Obeys base (Action.call c) := by
  intro r
  cases r with
  | none => exact (show base = base from rfl)
  | some r => exact done r

section

variable {κ ε : Type} [Ord κ] [TransOrd κ] {place : Cache.Place Bot Lock κ β}
  (hput : ∀ c (b : Bot), b.Steady (place.put c b)) (key : κ)

include hput

private theorem steady_storing (value : β) (b : Bot) : b.Steady (place.storing key value b) := by
  unfold Cache.Place.storing
  split
  · exact hput _ b
  · exact .refl b

theorem store (value : β) : Obeys base (place.store key value) :=
  place.obeys_store key (steady_storing hput key value)

theorem get {fetch : Action (Except ε β)} (hrank : ∀ k ∈ base, k.rank < place.lock.rank)
    (hfetch : Obeys (base ++ [place.lock]) fetch) : Obeys base (place.get key fetch) :=
  place.obeys_get key (fun b => .refl b) (steady_storing hput key) hrank hfetch

end

end Obeys

end Action

open GuildBot.Action (Obeys)

namespace Directory

private theorem obeys_find {κ : Type} [Ord κ] [TransOrd κ] {place : Cache.Place Bot Lock κ α}
    (hput : ∀ c (b : Bot), b.Steady (place.put c b)) (id : String) (key : κ)
    {fetch : Action (Except (Partial α) α)} (hrank : ∀ k ∈ base, k.rank < place.lock.rank)
    (hfetch : fetch.Obeys (base ++ [place.lock])) : Obeys base (find place id key fetch) := by
  unfold find
  split
  · exact .done _
  · refine (Obeys.get hput key hrank hfetch).bind fun result => ?_
    cases result with
    | ok record => exact .done _
    | error p => exact .done _

/-- What looks nothing up obeys the rules. -/
def obedient : ActionProperty where
  keeps base f := Obeys base f
  done a := Obeys.done a
  panic := rfl
  bind hf hg := Obeys.bind hf hg
  rescue hf hi := Obeys.rescue hf hi
  act hu hnext := Obeys.act (fun b => (hu b).toSteady) hnext
  wait milliseconds := Obeys.wait milliseconds
  call c := Obeys.call c

section

variable (hbase : ∀ k ∈ base, k.rank < 1)

include hbase

private theorem obeys_guild (id : String) : Obeys base (guild id) :=
  obeys_find (fun _ _ => ⟨rfl, rfl, rfl, rfl, rfl⟩) id id hbase
    ((Obeys.note _ _).bind fun _ => obedient.fetchPart _ _ _ _)

private theorem obeys_channel (id : String) : Obeys base (channel id) :=
  obeys_find (fun _ _ => ⟨rfl, rfl, rfl, rfl, rfl⟩) id id hbase
    ((Obeys.note _ _).bind fun _ => obedient.fetchPart _ _ _ _)

private theorem obeys_user (id guildId : String) : Obeys base (user id guildId) :=
  obeys_find (fun _ _ => ⟨rfl, rfl, rfl, rfl, rfl⟩) id
    (⟨id, guildId⟩ : UserKey) hbase (obedient.fetchUser id guildId)

end

private theorem obeys_revise {κ : Type} [Ord κ] [TransOrd κ] {place : Cache.Place Bot Lock κ α}
    (hput : ∀ c (b : Bot), b.Steady (place.put c b)) (key : κ) (apply : α → α × List Change) :
    Obeys base (revise place key apply) :=
  .swap fun b => hput _ b

/-- All parts of listeners obey the rules of the bot. -/
def lawful : ListenerProperty where
  toActionProperty := obedient
  guild id hbase := obeys_guild hbase id
  channel id hbase := obeys_channel hbase id
  user id guildId hbase := obeys_user hbase id guildId
  decide id clock key _ hfetch :=
    have hput (c : Cache UserKey Bool) (b : Bot) :
        b.Steady ((Bot.trackerPlace id clock).decisions.put c b) := ⟨rfl, rfl, rfl, rfl, rfl⟩
    Obeys.get hput key nofun hfetch

theorem obeys_absorbMember (update : MemberUpdate) : Obeys base (absorbMember update) := by
  have hput (c : Cache UserKey User) (b : Bot) : b.Steady (Bot.userPlace.put c b) :=
    ⟨rfl, rfl, rfl, rfl, rfl⟩
  exact obedient.absorbMember update (obeys_revise hput _ _) (Obeys.store hput _ _)
    (obeys_revise hput _ _)

theorem obeys_absorbChannel (update : ChannelUpdate) : Obeys base (absorbChannel update) := by
  have hput (c : Cache String Channel) (b : Bot) : b.Steady (Bot.channelPlace.put c b) :=
    ⟨rfl, rfl, rfl, rfl, rfl⟩
  exact obedient.absorbChannel update (obeys_revise hput _ _) (Obeys.store hput _ _)

end Directory

namespace Audience

theorem obeys_announce (event : Event) :
    Flow.Obeys Bot.rules [] (Plan.Obeys Bot.rules) [] (announce event) := by
  refine ⟨.refl, fun b => ⟨rfl, fun f hf => ?_, fun results => lawful.flag event _⟩⟩
  obtain ⟨e, -, rfl⟩ := List.mem_map.1 hf
  exact lawful.tell b.settings event e

end Audience

namespace Bot

/-- Processing an event obeys the rules of the bot. -/
theorem obeys_process (raw : RawEvent) :
    Flow.Obeys Bot.rules [] (Plan.Obeys Bot.rules) [] (process raw) := by
  have hnothing : Plan.Obeys Bot.rules nothingMore := ⟨nofun, fun _ => Action.Obeys.done _⟩
  cases raw with
  | message raw =>
    simp only [process]
    split
    · exact Flow.Obeys.bind (Obeys.note _ _) fun _ _ => ⟨rfl, hnothing⟩
    · exact Flow.Obeys.bind (lawful.resolveMessage raw) fun _ _ => Audience.obeys_announce _
  | voice raw =>
    exact Flow.Obeys.bind (lawful.resolveVoice raw) fun _ _ => Audience.obeys_announce _
  | member update =>
    exact Flow.Obeys.bind (obeys_absorbMember update) fun _ _ => ⟨rfl, hnothing⟩
  | channel update =>
    exact Flow.Obeys.bind (obeys_absorbChannel update) fun _ _ => ⟨rfl, hnothing⟩

end Bot

end GuildBot
