import GuildBot.Proofs.Activity.Parts
import GuildBot.Proofs.Flow.Invariant

namespace GuildBot

variable {σ ℓ γ : Type} {answer : γ → Type} {I : σ → Prop} {respond : Respond σ answer}

/-- Whether the tools by which a tracker finds out about users keep an invariant. -/
structure Tools.Keeps (I : σ → Prop) (respond : Respond σ answer) (tools : Tools σ ℓ answer) : Prop where
  guild : ∀ id, Flow.Keeps I respond (fun _ => True) (tools.guild id)
  user : ∀ id guildId, Flow.Keeps I respond (fun _ => True) (tools.user id guildId)
  note : ∀ level message, Flow.Keeps I respond (fun _ => True) (tools.note level message)

namespace Activity

variable {tools : Tools σ ℓ answer} (h : tools.Keeps I respond)

include h

private theorem keeps_makeDo {α : Type} (what : String) (found : Found α) :
    Flow.Keeps I respond (fun _ => True) (found.makeDo tools.note what) := by
  cases found with
  | ok found => exact .done trivial
  | error p => exact (h.note _ _).bind fun _ _ => .done trivial

private theorem keeps_holdsRole (role guildId userId : String) :
    Flow.Keeps I respond (fun _ => True) (holdsRole tools role guildId userId) := by
  apply (h.guild guildId).bind
  intro found _
  apply (keeps_makeDo h "guild" found).bind
  intro guild _
  cases guild.bind (·.roleId? role) with
  | none => exact (h.note _ _).bind fun _ _ => .done trivial
  | some roleId =>
    apply (h.user userId guildId).bind
    intro found _
    apply (keeps_makeDo h "user" found).bind
    intro user _
    by_cases hr : user.any (·.hasRole guildId roleId) = true
    · simp only [hr, if_true]
      exact (h.note _ _).bind fun _ _ => .done trivial
    · simp only [hr]
      exact .done trivial

theorem keeps_isTracked {place : Place σ ℓ} {guildId userId : String}
    (hput : ∀ s tracked decisions, I s → (place.decisions.view s).insert? (place.decisions.now s)
      ⟨userId, guildId⟩ tracked = some decisions → I (place.decisions.put decisions s))
    (policy : Policy) :
    Flow.Keeps I respond (fun _ => True) (isTracked tools policy place guildId userId) := by
  unfold isTracked
  cases policy.role with
  | none => exact .done trivial
  | some role =>
    have hdecide : Flow.Keeps I respond (fun _ => True) ((holdsRole tools role guildId userId).bind
        fun tracked => .done (.ok tracked : Except Empty Bool)) :=
      (keeps_holdsRole h role guildId userId).bind fun _ _ => .done trivial
    apply (Flow.Keeps.get (fun _ _ _ _ => trivial)
      (fun s decisions tracked hs _ => hput s tracked decisions hs) hdecide).bind
    intro decision _
    cases decision with
    | ok tracked => exact .done trivial
    | error e => exact e.elim

end Activity

end GuildBot
