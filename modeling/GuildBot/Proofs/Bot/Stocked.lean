import GuildBot.Proofs.Bot.Act
import GuildBot.Proofs.Bot.ActionProperty
import GuildBot.Proofs.Flow.LockFree

namespace GuildBot

open Platform Directory

variable {α : Type}

namespace Bot.HasStock

variable {b b' : Bot}

private theorem of_registry (h : b.HasStock) (hr : b'.registry = b.registry) : b'.HasStock := by
  rw [HasStock, hr]
  exact h

theorem of_beside (h : b.HasStock) (hb : b.Beside b') : b'.HasStock :=
  hb.listeners.trans h

theorem asked (h : b.HasStock) (c : Call) : (b.asked c).HasStock :=
  h.of_registry (Kept.asked b c).registry

end Bot.HasStock

/-- Whether an action leaves a bot with the stock listeners, relying on that at each of its turns. If it
comes to a result, `Q` holds of that. -/
abbrev Action.IsStocked (Q : α → Prop) (f : Action α) : Prop := f.Keeps Bot.HasStock Bot.respond Q

open GuildBot.Action (IsStocked)

namespace Directory

/-- Leaving the listeners be is a property of what looks nothing up, and of lookups too. -/
def steadfast : ActionProperty :=
  .keeping Bot.HasStock (fun _ _ h hb => hb.of_beside h) fun _ c hb => hb.asked c

section

variable {κ : Type} [Ord κ] [Std.TransOrd κ] {place : Cache.Place Bot Lock κ α} {key : κ}
  (hput : ∀ (b : Bot) c, (place.put c b).registry = b.registry)

include hput

private theorem stocked_find {id : String} {fetch : Action (Except (Partial α) α)}
    (hfetch : steadfast.keeps [] fetch) : IsStocked (fun _ => True) (find place id key fetch) := by
  unfold find
  split
  · exact .done trivial
  · have hget : IsStocked (fun _ => True) (place.get key fetch) :=
      .get (fun _ _ _ _ => trivial) (fun b c _ hb _ _ => hb.of_registry (hput b c)) hfetch
    refine hget.bind fun result _ => ?_
    cases result with
    | ok record => exact .done trivial
    | error p => exact .done trivial

private theorem stocked_revise (apply : α → α × List Change) :
    IsStocked (fun _ => True) (revise place key apply) :=
  .act (fun b hb => hb.of_registry (hput b _)) fun _ _ => .done trivial

private theorem stocked_store (record : α) : IsStocked (fun _ => True) (place.store key record) := by
  refine .act (fun b hb => ?_) fun b _ => ?_
  · split
    · exact hb.of_registry (hput b _)
    · exact hb
  · split
    · exact .done trivial
    · trivial

end

def stocked : ListenerProperty where
  toActionProperty := steadfast
  guild _ _ := stocked_find (fun _ _ => rfl) <|
    steadfast.bind (steadfast.note _ _) fun _ => steadfast.fetchPart _ _ _ _
  channel _ _ := stocked_find (fun _ _ => rfl) <|
    steadfast.bind (steadfast.note _ _) fun _ => steadfast.fetchPart _ _ _ _
  user id guildId _ := stocked_find (fun _ _ => rfl) (steadfast.fetchUser id guildId)
  decide id clock _ _ hfetch :=
    have hput (b : Bot) (c : Cache UserKey Bool) :
        b.Beside ((Bot.trackerPlace id clock).decisions.put c b) := .put_tracker id clock _ b
    .get (fun _ _ _ _ => trivial) (fun b c _ hb _ _ => hb.of_beside (hput b c)) hfetch

/-- What looks nothing up takes no locks. -/
def lockFree : ActionProperty where
  keeps _ f := f.LockFree
  done _ := trivial
  panic := trivial
  bind hf hg := hf.bind hg
  rescue hf hi := hf.rescue hi
  act _ hnext := hnext
  wait _ := fun _ => trivial
  call c := by
    intro r
    cases r with
    | none => trivial
    | some r => trivial

theorem stocked_absorbMember (update : MemberUpdate) :
    IsStocked (fun _ => True) (absorbMember update) := by
  have hput (b : Bot) (c : Cache UserKey User) : (Bot.userPlace.put c b).registry = b.registry := rfl
  have habsorb : steadfast.keeps [] (absorbMember update) :=
    steadfast.absorbMember update (stocked_revise hput _) (stocked_store hput _)
      (stocked_revise hput _)
  exact habsorb

theorem stocked_absorbChannel (update : ChannelUpdate) :
    IsStocked (fun _ => True) (absorbChannel update) := by
  have hput (b : Bot) (c : Cache String Channel) :
      (Bot.channelPlace.put c b).registry = b.registry := rfl
  have habsorb : steadfast.keeps [] (absorbChannel update) :=
    steadfast.absorbChannel update (stocked_revise hput _) (stocked_store hput _)
  exact habsorb

end Directory

namespace Audience

private theorem lockFree_tell (settings : Settings) (event : Event) {e : Entry}
    (he : e.listener ≠ .activity) :
    (tell settings event e).LockFree := by
  have htell : lockFree.keeps [] (tell settings event e) := by
    cases event with
    | message m => exact lockFree.told (lockFree.hearMessage settings e m)
    | voice u => exact lockFree.told (lockFree.hearVoice settings he u)
  exact htell

private theorem hasOneTaker_announced {b : Bot} (h : b.HasStock) (event : Event)
    (close : List (Option String) → Action (List String)) :
    (⟨b.registry.map (tell b.settings event), close⟩ : Telling (List String)).HasOneTaker := by
  obtain ⟨d, p, a, hregistry, ⟨-, hd⟩, ⟨-, hp⟩, -, -⟩ := registry_of_stock h
  have hdice : (tell b.settings event d).LockFree := lockFree_tell _ _ (by simp [hd])
  have hping : (tell b.settings event p).LockFree := lockFree_tell _ _ (by simp [hp])
  refine .of_pairwise ?_
  rw [hregistry]
  simp [hdice, hping]

private theorem stocked_announce (event : Event) :
    IsStocked (fun plan => plan.Keeps Bot.HasStock Bot.respond ∧ plan.HasOneTaker)
      (announce event) := by
  refine .act (fun b hb => hb) fun b hb => .done ⟨⟨?_, ?_⟩, hasOneTaker_announced hb event _⟩
  · intro f hf
    obtain ⟨e, -, rfl⟩ := List.mem_map.1 hf
    exact stocked.tell b.settings event e
  · exact fun results => stocked.flag event _

end Audience

namespace Bot

/-- What is done about an event leaves the stock listeners, and one strand of it takes locks. -/
theorem stocked_process (raw : RawEvent) :
    IsStocked (fun plan => plan.Keeps HasStock respond ∧ plan.HasOneTaker) (process raw) := by
  have hnothing : nothingMore.Keeps HasStock respond ∧ nothingMore.HasOneTaker :=
    ⟨⟨nofun, fun _ => .done trivial⟩, .of_pairwise .nil⟩
  have hnote (text : String) : stocked.keeps [] (Action.note .debug text) := stocked.note .debug text
  cases raw with
  | message raw =>
    have hresolve : IsStocked (fun _ => True) (resolveMessage raw) := stocked.resolveMessage raw
    simp only [process]
    split
    · exact Flow.Keeps.bind (hnote _) fun _ _ => .done hnothing
    · exact hresolve.bind fun _ _ => Audience.stocked_announce _
  | voice raw =>
    have hresolve : IsStocked (fun _ => True) (resolveVoice raw) := stocked.resolveVoice raw
    exact hresolve.bind fun _ _ => Audience.stocked_announce _
  | member update => exact (stocked_absorbMember update).bind fun _ _ => .done hnothing
  | channel update => exact (stocked_absorbChannel update).bind fun _ _ => .done hnothing

end Bot

end GuildBot
