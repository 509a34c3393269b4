import GuildBot.Event
import GuildBot.Failure
import GuildBot.Flow
import GuildBot.Log
/-!
# What listeners work with

Listeners look records up, write and react to messages, roll dice and write to the log. A lookup
that fails still gives a partial record, of which only the id is sure.
-/

namespace GuildBot

/-- What is left of a record whose lookup failed, and why it did. -/
structure Partial (α : Type) where
  stub : α
  failure : Failure
  deriving DecidableEq, Inhabited

/-- The result of a lookup. There is nothing to look up under an empty id. -/
abbrev Found (α : Type) : Type := Except (Partial α) (Option α)

structure Tools (σ ℓ : Type) {γ : Type} (answer : γ → Type) where
  guild (id : String) : Program σ ℓ answer (Found Guild)
  channel (id : String) : Program σ ℓ answer (Found Channel)
  /-- A user, with their membership of the guild if one is named. -/
  user (id guildId : String) : Program σ ℓ answer (Found User)
  channels (guildId : String) : Program σ ℓ answer (Outcome (List Channel))
  send (channelId text : String) : Program σ ℓ answer (Outcome Unit)
  react (channelId messageId emoji : String) : Program σ ℓ answer (Outcome Unit)
  /-- Rolls dice that have at least one side. -/
  roll (dice sides : Nat) : Program σ ℓ answer (List Nat)
  note (level : Log.Level) (message : String) : Program σ ℓ answer Unit

variable {σ ℓ γ : Type} {answer : γ → Type} {α : Type}

/-- The record to make do with, of a lookup that may have failed. -/
def Found.record? {α : Type} : Found α → Option α
  | .ok found => found
  | .error p => some p.stub

/-- Makes do with the partial record of a lookup that failed, and says so in the log. -/
def Found.makeDo (note : Log.Level → String → Program σ ℓ answer Unit) (what : String) :
    Found α → Program σ ℓ answer (Option α)
  | .ok found => return found
  | .error p => do
    note .warn s!"Using partial {what} record: {p.failure.message}"
    return some p.stub

end GuildBot
