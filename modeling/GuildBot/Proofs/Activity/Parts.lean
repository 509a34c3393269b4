import GuildBot.Activity.Tracker
import GuildBot.Proofs.Cache.Fetch

/-!
# The parts of the activity tracker

How the tracker is put together, whatever tools it works with, and that it never waits in vain if they
do not.
-/

namespace GuildBot

variable {σ ℓ γ : Type} {answer : γ → Type}

/-- Whether tools make no more than `n` requests, and ask for none of the locks that they hold. -/
structure Tools.Unhindered [DecidableEq ℓ] (tools : Tools σ ℓ answer) (uses : List ℓ) (n : Nat) :
    Prop where
  guild : ∀ id, (tools.guild id).Unhindered uses n
  channel : ∀ id, (tools.channel id).Unhindered uses n
  user : ∀ id guildId, (tools.user id guildId).Unhindered uses n
  channels : ∀ guildId, (tools.channels guildId).Unhindered uses n
  send : ∀ channelId text, (tools.send channelId text).Unhindered uses n
  note : ∀ level message, (tools.note level message).Unhindered uses 0

namespace Activity

section

variable (tools : Tools σ ℓ answer) (policy : Policy) (place : Place σ ℓ)

/-- What the tracker does about a user who has got from one channel to another. -/
def recount (update : VoiceUpdate) (previous : Option Channel) : Program σ ℓ answer (Outcome Unit) :=
  match transitionText? (update.user.displayName update.guildId) previous update.channel with
  | none => .done (.ok ())
  | some text =>
    (writeLine tools policy place update.guildId text).bind fun r =>
      .done (r.inContext "recording activity")

/-- What the tracker does about a user whom it has seen in a channel before, or in none. -/
def follow (update : VoiceUpdate) (seen : Option Channel) : Program σ ℓ answer (Outcome Unit) :=
  if seen.map Channel.id = update.channel.map Channel.id then .done (.ok ())
  else match seen with
    | some seen => (refresh tools seen).bind fun c => recount tools policy place update (some c)
    | none => recount tools policy place update none

/-- Remembers where the user of an update is, and tells where they were seen before. -/
def see (update : VoiceUpdate) : Program σ ℓ answer (Option Channel) :=
  Flow.swap fun s =>
    let (seen, t) := (place.view s).see update.user.id update.channel
    (seen, place.put t s)

theorem track_eq (update : VoiceUpdate) :
    track tools policy place update =
      (isTracked tools policy place update.guildId update.user.id).bind fun tracked =>
      if tracked then (see place update).bind (follow tools policy place update)
      else
        (tools.note .debug "Ignoring voice state change from opted-out user.").bind
          fun _ => .done (.ok ()) := by
  unfold track follow recount see
  simp only [Flow.bind_def, Flow.pure_def]
  congr 1
  funext tracked
  cases tracked with
  | false => rfl
  | true =>
    simp only [if_true]
    congr 1
    funext seen
    split
    · rfl
    · cases seen with
      | none => rfl
      | some seen =>
        simp only [map_eq_pure_bind, Flow.bind_def, Flow.pure_def, Flow.bind_bind]
        rfl

theorem findLogChannel_cons (name guildId : String) (c : Channel) (rest : List Channel) :
    findLogChannel tools name guildId (c :: rest) =
      (tools.note .debug
        s!"Searching for activity log channel, candidate `{c.name}` ({c.id}).").bind fun _ =>
        if c.name = name then
          (tools.note .info
            s!"Identified activity log channel {c.id} for guild {guildId}.").bind
              fun _ => .done (some c.id)
        else findLogChannel tools name guildId rest := rfl

variable {tools} in
/-- With tools that have no log, a channel is found at once. -/
theorem findLogChannel_of_silent (hnote : ∀ level message, tools.note level message = .done ())
    (name guildId : String) (channels : List Channel) :
    findLogChannel tools name guildId channels =
      .done ((channels.find? fun c => c.name = name).map Channel.id) := by
  induction channels with
  | nil => rfl
  | cons c rest ih =>
    rw [findLogChannel_cons, hnote, Flow.bind]
    by_cases hc : c.name = name
    · simp [hc, hnote, Flow.bind]
    · simp [hc, ih]

end

section

variable [DecidableEq ℓ] {tools : Tools σ ℓ answer} {uses : List ℓ} {n : Nat}
  (h : tools.Unhindered uses n) (policy : Policy) (place : Place σ ℓ)

include h

theorem unhindered_makeDo {α : Type} (what : String) (found : Found α) :
    (found.makeDo tools.note what).Unhindered uses 0 := by
  cases found with
  | ok found => exact .done _
  | error p => exact (h.note _ _).bind (n := 0) fun _ => .done _

private theorem unhindered_holdsRole (role guildId userId : String) :
    (holdsRole tools role guildId userId).Unhindered uses (n + n) := by
  apply (h.guild guildId).bind (n := n)
  intro found
  apply ((unhindered_makeDo h "guild" found).bind (n := n) ?_).mono (List.Subset.refl _) (by omega)
  intro guild
  cases guild.bind (·.roleId? role) with
  | none =>
    exact ((h.note _ _).bind fun _ => .done _).mono (List.Subset.refl _) (Nat.zero_le _)
  | some roleId =>
    apply (h.user userId guildId).bind (n := 0)
    intro found
    apply (unhindered_makeDo h "user" found).bind (n := 0)
    intro user
    by_cases hr : user.any (·.hasRole guildId roleId) = true
    · simp only [hr, if_true]
      exact (h.note _ _).bind fun _ => .done _
    · simp only [hr]
      exact .done _

theorem unhindered_isTracked (hl : place.lock ∉ uses) (guildId userId : String) :
    (isTracked tools policy place guildId userId).Unhindered (place.lock :: uses) (n + n + 2) := by
  unfold isTracked
  cases policy.role with
  | none => exact (Flow.Unhindered.done _).mono (List.Subset.refl _) (Nat.zero_le _)
  | some role =>
    have hfetch := (unhindered_holdsRole h role guildId userId).bind (n := 0)
      (g := fun tracked => .done (.ok tracked : Except Empty Bool)) fun _ => .done _
    apply (Cache.Place.unhindered_get place.decisions _ hfetch hl).bind (n := 0)
    intro decision
    cases decision with
    | ok tracked => exact .done _
    | error e => exact e.elim

private theorem unhindered_findLogChannel (name guildId : String) (channels : List Channel) :
    (findLogChannel tools name guildId channels).Unhindered uses 0 := by
  induction channels with
  | nil => exact .done _
  | cons c rest ih =>
    rw [findLogChannel_cons]
    apply (h.note _ _).bind (n := 0)
    intro _
    by_cases hc : c.name = name
    · simp only [hc, if_true]
      exact (h.note _ _).bind fun _ => .done _
    · simp only [hc, if_false]
      exact ih

private theorem unhindered_logChannelId (guildId : String) :
    (logChannelId tools policy place guildId).Unhindered uses n := by
  refine .act _ ?_
  intro s
  dsimp only [Flow.bind]
  cases (place.view s).logChannels[guildId]? with
  | some channelId => exact (Flow.Unhindered.done _).mono (List.Subset.refl _) (Nat.zero_le _)
  | none =>
    apply (h.channels guildId).bind (n := 0)
    intro channels
    cases channels with
    | error f => exact .done _
    | ok channels =>
      apply (unhindered_findLogChannel h _ _ channels).bind (n := 0)
      intro found
      cases found with
      | none => exact .done _
      | some channelId => exact .act _ fun _ => .done _

private theorem unhindered_writeLine (guildId text : String) :
    (writeLine tools policy place guildId text).Unhindered uses (n + n) := by
  apply ((h.note _ _).bind (n := n + n) ?_).mono (List.Subset.refl _) (by omega)
  intro _
  apply (unhindered_logChannelId h policy place guildId).bind (n := n)
  intro found
  cases found with
  | error f => exact (Flow.Unhindered.done _).mono (List.Subset.refl _) (Nat.zero_le _)
  | ok channelId => exact (h.send _ _).bind (n := 0) fun _ => .done _

private theorem unhindered_refresh (seen : Channel) : (refresh tools seen).Unhindered uses n := by
  apply (h.channel seen.id).bind (n := 0)
  intro found
  rcases found with p | _ | c
  · exact .done _
  · exact .done _
  · exact .done _

private theorem unhindered_recount (update : VoiceUpdate) (previous : Option Channel) :
    (recount tools policy place update previous).Unhindered uses (n + n) := by
  unfold recount
  cases transitionText? (update.user.displayName update.guildId) previous update.channel with
  | none => exact (Flow.Unhindered.done _).mono (List.Subset.refl _) (Nat.zero_le _)
  | some text => exact (unhindered_writeLine h policy place _ _).bind (n := 0) fun _ => .done _

private theorem unhindered_follow (update : VoiceUpdate) (seen : Option Channel) :
    (follow tools policy place update seen).Unhindered uses (n + (n + n)) := by
  unfold follow
  split
  · exact (Flow.Unhindered.done _).mono (List.Subset.refl _) (Nat.zero_le _)
  · cases seen with
    | none =>
      exact (unhindered_recount h policy place update none).mono (List.Subset.refl _) (by omega)
    | some seen =>
      exact (unhindered_refresh h seen).bind (n := n + n) fun c =>
        unhindered_recount h policy place update (some c)

theorem unhindered_track (hl : place.lock ∉ uses) (update : VoiceUpdate) :
    (track tools policy place update).Unhindered (place.lock :: uses)
      (n + n + 2 + (n + (n + n))) := by
  rw [track_eq]
  apply (unhindered_isTracked h policy place hl _ _).bind (n := n + (n + n))
  intro tracked
  cases tracked with
  | false =>
    exact ((h.note _ _).bind fun _ => .done _).mono (by simp) (Nat.zero_le _)
  | true =>
    exact .act _ fun _ => (unhindered_follow h policy place update _).mono (by simp)
      (Nat.le_refl _)

end

end Activity

end GuildBot
