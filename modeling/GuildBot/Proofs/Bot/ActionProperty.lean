import GuildBot.Proofs.Bot.Process
import GuildBot.Proofs.Flow.Invariant

/-!
# What listeners are made of

Listeners look records up, make calls, write to the log, wait, and keep to themselves what they change.
What holds of all these parts, and of what is put together from parts of which it holds, holds of every
listener.
-/

namespace GuildBot

open Platform Directory

/-- The rank of a lock: locks are asked for in this order. -/
def Lock.rank : Lock → Nat
  | .decisions _ => 0
  | .guilds => 1
  | .channels => 1
  | .users => 1

theorem Lock.rank_lt_of_none (n : Nat) : ∀ k ∈ ([] : List Lock), k.rank < n := by simp

/-- Whether one bot has the settings, the surroundings, the records and the listeners of another. -/
structure Bot.Beside (b b' : Bot) : Prop extends b.Steady b' where
  guilds : b'.guilds = b.guilds
  channels : b'.channels = b.channels
  users : b'.users = b.users
  listeners : b'.registry.map (fun e => (e.id, e.listener)) = b.registry.map fun e => (e.id, e.listener)

namespace Bot.Beside

theorem refl (b : Bot) : b.Beside b := ⟨.refl b, rfl, rfl, rfl, rfl⟩

theorem put_tracker (id : String) (clock : Clock) (tracker : Activity.Tracker) (b : Bot) :
    b.Beside ((trackerPlace id clock).put tracker b) := by
  refine ⟨⟨rfl, rfl, rfl, rfl, rfl⟩, rfl, rfl, rfl, ?_⟩
  simp only [trackerPlace, List.map_map]
  refine List.map_congr_left fun e _ => ?_
  simp only [Function.comp_apply]
  split
  · rfl
  · rfl

end Bot.Beside

/-- A property of actions, each with the locks that are held meanwhile, that is had by the parts of
listeners that look nothing up, and by what is put together. -/
structure ActionProperty where
  keeps : {α : Type} → List Lock → Action α → Prop
  done : ∀ {α : Type} {base : List Lock} (a : α), keeps base (.done a)
  panic : ∀ {α : Type} {base : List Lock}, keeps base (.panic : Action α)
  bind : ∀ {α β : Type} {base : List Lock} {f : Action α} {g : α → Action β}, keeps base f →
    (∀ a, keeps base (g a)) → keeps base (f.bind g)
  rescue : ∀ {α : Type} {base : List Lock} {f instead : Action α}, keeps base f →
    keeps base instead → keeps base (f.rescue instead)
  act : ∀ {α : Type} {base : List Lock} {update : Bot → Bot} {next : Bot → Action α},
    (∀ b : Bot, b.Beside (update b)) → (∀ b, keeps base (next b)) → keeps base (.act update next)
  wait : ∀ {base : List Lock} (milliseconds : Nat), keeps base (Program.wait milliseconds)
  call : ∀ {base : List Lock} (c : Call), keeps base (Action.call c)

/-- A property of all parts of listeners, lookups and decisions included. -/
structure ListenerProperty extends ActionProperty where
  guild : ∀ {base : List Lock} (id : String), (∀ k ∈ base, k.rank < 1) → keeps base (guild id)
  channel : ∀ {base : List Lock} (id : String), (∀ k ∈ base, k.rank < 1) →
    keeps base (channel id)
  user : ∀ {base : List Lock} (id guildId : String), (∀ k ∈ base, k.rank < 1) →
    keeps base (user id guildId)
  /-- The decision of a tracker, which is found out while its lock is held. -/
  decide : ∀ (id : String) (clock : Clock) (key : UserKey) {fetch : Action (Except Empty Bool)},
    keeps [.decisions id] fetch → keeps [] ((Bot.trackerPlace id clock).decisions.get key fetch)

variable {α : Type} {base : List Lock}

namespace ActionProperty

/-- Keeping to an invariant that neither calls nor changes beside it can break. -/
def keeping (I : Bot → Prop) (hbeside : ∀ b b' : Bot, b.Beside b' → I b → I b')
    (hasked : ∀ (b : Bot) (c : Call), I b → I (b.asked c)) : ActionProperty where
  keeps _ f := f.Keeps I Bot.respond (fun _ => True)
  done _ := .done trivial
  panic := trivial
  bind hf hg := hf.bind fun a _ => hg a
  rescue hf hi := hf.rescue hi
  act hu hnext := .act (fun b hb => hbeside b _ (hu b) hb) fun b _ => hnext b
  wait _ := fun _ => trivial
  call c := by
    have hcall : (Program.call c : Action c.Answer).Keeps I Bot.respond (fun _ => True) :=
      .call (fun b hb => hasked b c hb) fun _ _ => trivial
    refine hcall.bind fun r _ => ?_
    cases r with
    | none => trivial
    | some r => exact .done trivial

variable (H : ActionProperty)

theorem change {update : Bot → Bot} (hu : ∀ b : Bot, b.Beside (update b)) :
    H.keeps base (Flow.change update) := H.act hu fun _ => H.done ()

theorem look (view : Bot → α) : H.keeps base (Flow.look view) := H.act .refl fun _ => H.done _

theorem swap {f : Bot → α × Bot} (hf : ∀ b : Bot, b.Beside (f b).2) : H.keeps base (Flow.swap f) :=
  H.act hf fun _ => H.done _

theorem note (level : Log.Level) (message : String) : H.keeps base (Action.note level message) :=
  H.change fun _ => ⟨⟨rfl, rfl, rfl, rfl, rfl⟩, rfl, rfl, rfl, rfl⟩

theorem makeDo (what : String) (found : Found α) : H.keeps base (found.makeDo Action.note what) := by
  cases found with
  | ok found => exact H.done _
  | error p => exact H.bind (H.note _ _) fun _ => H.done _

theorem channels (guildId : String) : H.keeps base (channels guildId) := by
  unfold Directory.channels
  split
  · exact H.done _
  · exact H.bind (H.call _) fun _ => H.done _

theorem noteChanges (what id : String) (changes : List Change) :
    H.keeps base (noteChanges what id changes) := by
  unfold Directory.noteChanges
  induction changes with
  | nil => exact H.done _
  | cons c changes ih => exact H.bind (H.note _ _) fun _ => ih

/-! ## Fetches and pushed updates -/

theorem fetchPart (c : Call) (what purpose : String) (stub : α) :
    H.keeps base (fetchPart (Action.call c) what purpose stub) := by
  refine H.bind (H.call c) fun result => ?_
  cases result with
  | ok record => exact H.done _
  | error f => exact H.bind (H.note _ _) fun _ => H.done _

theorem fetchUser (id guildId : String) : H.keeps base (fetchUser id guildId) := by
  refine H.bind (H.note _ _) fun _ => H.bind (H.fetchPart _ _ _ _) fun result => ?_
  cases result with
  | error p => exact H.done _
  | ok user =>
    dsimp only
    split
    · exact H.done _
    · refine H.bind (H.fetchPart _ _ _ _) fun result => ?_
      cases result with
      | error p => exact H.done _
      | ok member => exact H.done _

theorem absorbMember (update : MemberUpdate)
    (hmember : H.keeps base
      (revise Bot.userPlace ⟨update.userId, update.guildId⟩ (·.update update)))
    (hstore : H.keeps base
      (Bot.userPlace.store ⟨update.userId, update.guildId⟩ (User.ofUpdate update true)))
    (hnames : H.keeps base (revise Bot.userPlace ⟨update.userId, ""⟩ (·.updateNames update))) :
    H.keeps base (absorbMember update) := by
  have hrest (changes : Option (List Change)) : H.keeps base
      ((revise Bot.userPlace ⟨update.userId, ""⟩ (·.updateNames update)).bind fun identity =>
        (Directory.noteChanges "User" update.userId (changes.getD (identity.getD []))).bind fun _ =>
          .done (changes.getD (identity.getD []))) :=
    H.bind hnames fun _ => H.bind (H.noteChanges _ _ _) fun _ => H.done _
  refine H.bind hmember fun changes => ?_
  cases changes with
  | some changes => exact hrest (some changes)
  | none => exact H.bind (H.note _ _) fun _ => H.bind hstore fun _ => hrest none

theorem absorbChannel (update : ChannelUpdate)
    (hrevise : H.keeps base (revise Bot.channelPlace update.channelId (·.update update)))
    (hstore : H.keeps base
      (Bot.channelPlace.store update.channelId { id := update.channelId, name := update.name })) :
    H.keeps base (absorbChannel update) := by
  have hrest (changes : Option (List Change)) : H.keeps base
      ((Directory.noteChanges "Channel" update.channelId (changes.getD [])).bind fun _ =>
        .done (changes.getD [])) :=
    H.bind (H.noteChanges _ _ _) fun _ => H.done _
  refine H.bind hrevise fun changes => ?_
  cases changes with
  | some changes => exact hrest (some changes)
  | none => exact H.bind (H.note _ _) fun _ => H.bind hstore fun _ => hrest none

end ActionProperty

namespace ListenerProperty

variable (C : ListenerProperty)

/-! ## The activity tracker -/

section

variable (policy : Activity.Policy) (id : String) (clock : Clock)

theorem holdsRole (hbase : ∀ k ∈ base, k.rank < 1) (role guildId userId : String) :
    C.keeps base (Activity.holdsRole Directory.tools role guildId userId) := by
  refine C.bind (C.guild guildId hbase) fun found => C.bind (C.makeDo "guild" found) fun guild => ?_
  split
  · exact C.bind (C.note _ _) fun _ => C.done _
  · refine C.bind (C.user userId guildId hbase) fun found =>
      C.bind (C.makeDo "user" found) fun user => ?_
    split
    · exact C.bind (C.note _ _) fun _ => C.done _
    · exact C.done _

theorem isTracked (guildId userId : String) :
    C.keeps [] (Activity.isTracked Directory.tools policy (Bot.trackerPlace id clock) guildId
      userId) := by
  unfold Activity.isTracked
  cases policy.role with
  | none => exact C.done _
  | some role =>
    have hholds : C.keeps [.decisions id]
        (Activity.holdsRole Directory.tools role guildId userId) :=
      C.holdsRole (by simp [Lock.rank]) role guildId userId
    refine C.bind (C.decide id clock _ (C.bind hholds fun _ => C.done _)) fun decision => ?_
    cases decision with
    | ok tracked => exact C.done _
    | error e => exact e.elim

theorem findLogChannel (name guildId : String) (channels : List Channel) :
    C.keeps base (Activity.findLogChannel Directory.tools name guildId channels) := by
  induction channels with
  | nil => exact C.done _
  | cons c rest ih =>
    refine C.bind (C.note _ _) fun _ => ?_
    split
    · exact C.bind (C.note _ _) fun _ => C.done _
    · exact ih

theorem logChannelId (guildId : String) :
    C.keeps base
      (Activity.logChannelId Directory.tools policy (Bot.trackerPlace id clock) guildId) := by
  refine C.bind (C.look _) fun known => ?_
  cases known with
  | some channelId => exact C.done _
  | none =>
    refine C.bind (C.channels guildId) fun found => ?_
    cases found with
    | error f => exact C.done _
    | ok channels =>
      refine C.bind (C.findLogChannel _ _ channels) fun found => ?_
      cases found with
      | none => exact C.done _
      | some channelId =>
        exact C.bind (C.change fun b => .put_tracker id clock _ b) fun _ => C.done _

theorem writeLine (guildId text : String) :
    C.keeps base
      (Activity.writeLine Directory.tools policy (Bot.trackerPlace id clock) guildId text) := by
  refine C.bind (C.note _ _) fun _ => C.bind (C.logChannelId policy id clock guildId) fun found => ?_
  cases found with
  | error f => exact C.done _
  | ok channelId => exact C.bind (C.call _) fun _ => C.done _

theorem recount (update : VoiceUpdate) (previous : Option Channel) :
    C.keeps base
      (Activity.recount Directory.tools policy (Bot.trackerPlace id clock) update previous) := by
  unfold Activity.recount
  split
  · exact C.done _
  · exact C.bind (C.writeLine policy id clock _ _) fun _ => C.done _

theorem track (update : VoiceUpdate) :
    C.keeps [] (Activity.track Directory.tools policy (Bot.trackerPlace id clock) update) := by
  rw [Activity.track_eq]
  refine C.bind (C.isTracked policy id clock _ _) fun tracked => ?_
  cases tracked with
  | false => exact C.bind (C.note _ _) fun _ => C.done _
  | true =>
    refine C.bind (C.swap fun b => .put_tracker id clock _ b) fun seen => ?_
    unfold Activity.follow
    split
    · exact C.done _
    · split
      · next seen _ =>
        refine C.bind ?_ fun c => C.recount policy id clock update (some c)
        refine C.bind (C.channel seen.id (by simp)) fun found => ?_
        split
        · exact C.done _
        · exact C.done _
      · exact C.recount policy id clock update none

end

end ListenerProperty

/-! ## The other listeners -/

namespace ActionProperty

variable (H : ActionProperty)

theorem respond (m : Message) (emoji : Option String) (text : String) :
    H.keeps base (Listener.respond Directory.tools m emoji text) := by
  refine H.bind (H.call _) fun sent => ?_
  cases sent with
  | error f => exact H.done _
  | ok _ =>
    cases emoji with
    | none => exact H.done _
    | some emoji =>
      refine H.bind (H.call _) fun reacted => ?_
      cases reacted with
      | ok _ => exact H.done _
      | error f => exact H.bind (H.note _ _) fun _ => H.done _

theorem answerRoll (m : Message) : H.keeps base (Listener.answerRoll Directory.tools m) := by
  unfold Listener.answerRoll
  split
  · exact H.done _
  · next request _ =>
    unfold Listener.carryOut
    split
    · exact H.bind (H.note _ _) fun _ => H.respond m _ _
    · exact H.respond m _ _
    · exact H.call _
    · exact H.respond m _ _
    · exact H.call _
    · exact H.respond m _ _
    · refine H.bind (H.note _ _) fun _ => H.bind (H.swap ?_) fun rolls => H.respond m _ _
      exact fun _ => ⟨⟨rfl, rfl, rfl, rfl, rfl⟩, rfl, rfl, rfl, rfl⟩

theorem answerPing (m : Message) : H.keeps base (Listener.answerPing Directory.tools m) := by
  unfold Listener.answerPing
  split
  · exact H.call _
  · exact H.done _

end ActionProperty

namespace Audience

def sendScripted : Option (String × String) → Action (Outcome Unit)
  | some (channelId, text) => Action.call (.sendMessage channelId text)
  | none => .done (.ok ())

def concludeScript (fault : Option (Option Failure)) : Outcome Unit → Action (Outcome Unit)
  | .error f => .done (.error f)
  | .ok () => match fault with
    | none => .done (.ok ())
    | some (some f) => .done (.error f)
    | some none => .panic

/-- What a scripted listener does that has been told of an event. -/
def play (s : Script) : Action (Outcome Unit) :=
  (Program.wait s.delay).bind fun _ => (sendScripted s.message).bind (concludeScript s.fault)

theorem follow_eq (id event : String) (s : Script) :
    follow id event s =
      (Flow.change fun b => { b with deeds := b.deeds ++ [.heard id event] }).bind
        fun _ => play s := by
  unfold follow play
  cases s.message with
  | none => rfl
  | some message => rfl

end Audience

namespace ActionProperty

variable (H : ActionProperty)

theorem follow (id event : String) (s : Script) : H.keeps base (Audience.follow id event s) := by
  rw [Audience.follow_eq]
  refine H.bind (H.change ?_) fun _ => H.bind (H.wait _) fun _ => H.bind ?_ fun sent => ?_
  · exact fun _ => ⟨⟨rfl, rfl, rfl, rfl, rfl⟩, rfl, rfl, rfl, rfl⟩
  · cases s.message with
    | none => exact H.done _
    | some message => exact H.call _
  · rcases sent with f | _
    · exact H.done _
    · rcases s.fault with _ | _ | f
      · exact H.done _
      · exact H.panic
      · exact H.done _

/-- No listener looks anything up because of a message. -/
theorem hearMessage (settings : Settings) (e : Entry) (m : Message) :
    H.keeps [] (Audience.hear settings e (.message m)) := by
  unfold Audience.hear
  cases e.listener with
  | dice => exact H.answerRoll m
  | ping => exact H.answerPing m
  | scripted message voice => exact H.follow _ _ _
  | activity => exact H.done _
  | idle => exact H.done _

/-- Nor does one because of a change in voice, unless it tracks activity. -/
theorem hearVoice (settings : Settings) {e : Entry} (he : e.listener ≠ .activity)
    (u : VoiceUpdate) : H.keeps [] (Audience.hear settings e (.voice u)) := by
  unfold Audience.hear
  cases hlistener : e.listener with
  | activity => exact absurd hlistener he
  | scripted message voice => exact H.follow _ _ _
  | dice => exact H.done _
  | ping => exact H.done _
  | idle => exact H.done _

theorem told {settings : Settings} {event : Event} {e : Entry}
    (hhear : H.keeps [] (Audience.hear settings e event)) :
    H.keeps [] (Audience.tell settings event e) := by
  refine H.rescue ?_ (H.bind (H.note _ _) fun _ => H.done _)
  refine H.bind hhear fun outcome => ?_
  cases outcome with
  | ok _ => exact H.done _
  | error f => exact H.bind (H.note _ _) fun _ => H.done _

theorem flag (event : Event) (failed : List String) : H.keeps [] (Audience.flag event failed) := by
  cases event with
  | voice u =>
    simp only [Audience.flag]
    split
    · exact H.done _
    · exact H.bind (H.note _ _) fun _ => H.done _
  | message m =>
    simp only [Audience.flag]
    split
    · exact H.done _
    · refine H.bind (H.note _ _) fun _ => H.bind (H.look id) fun b => ?_
      refine H.bind (H.call _) fun reacted => ?_
      cases reacted with
      | ok _ => exact H.done _
      | error f => exact H.bind (H.note _ _) fun _ => H.done _

end ActionProperty

namespace ListenerProperty

variable (C : ListenerProperty)

theorem hear (settings : Settings) (e : Entry) (event : Event) :
    C.keeps [] (Audience.hear settings e event) := by
  cases event with
  | message m => exact C.hearMessage settings e m
  | voice u =>
    by_cases he : e.listener = .activity
    · simp only [Audience.hear, he]
      exact C.track _ _ _ u
    · exact C.hearVoice settings he u

theorem tell (settings : Settings) (event : Event) (e : Entry) :
    C.keeps [] (Audience.tell settings event e) :=
  C.told (C.hear settings e event)

/-! ## What an event is about -/

theorem resolveMessage (raw : RawMessage) : C.keeps [] (Bot.resolveMessage raw) := by
  have hbase := Lock.rank_lt_of_none 1
  refine C.bind (C.user _ _ hbase) fun found => C.bind (C.makeDo "author" found) fun author => ?_
  refine C.bind (C.guild _ hbase) fun found => C.bind (C.makeDo "guild" found) fun guild => ?_
  refine C.bind (C.channel _ hbase) fun found => C.bind (C.makeDo "channel" found) fun channel => ?_
  exact C.done _

theorem resolveVoice (raw : RawVoice) : C.keeps [] (Bot.resolveVoice raw) := by
  have hbase := Lock.rank_lt_of_none 1
  have hplace : C.keeps [] (Bot.resolvePlace raw.channelId) := by
    cases raw.channelId with
    | none => exact C.done _
    | some id => exact C.bind (C.channel id hbase) fun found => C.makeDo "channel" found
  rw [Bot.resolveVoice_eq]
  refine C.bind (C.guild _ hbase) fun found => C.bind (C.makeDo "guild" found) fun guild => ?_
  refine C.bind hplace fun channel => ?_
  refine C.bind (C.user _ _ hbase) fun found => C.bind (C.makeDo "user" found) fun user => ?_
  exact C.done _

end ListenerProperty

end GuildBot
