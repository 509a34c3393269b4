import GuildBot.Bot
/-!
# The client of the platform

What stands between the bot and the network. A request is a call with the numbers that its ids stand
for, so the ids of a call are read before any request is made.
-/

namespace GuildBot.Platform

/-- How requests over a network fare, which may hang on all that was done before. -/
abbrev Network : Type := List Deed → (c : Call) → List Nat → Response c.Payload

/-- A client that makes requests over a network. A call with an id that it cannot read is not sent. -/
def client (network : Network) : Behaviour := fun deeds c =>
  match c.checkIds with
  | .error f => { sent := false, result := some (.error f) }
  | .ok numbers => network deeds c numbers

theorem unconnected_eq_client : unconnected =
    client fun _ _ _ => { sent := false, result := some (.error (.of (.other "refused"))) } := by
  funext deeds c
  unfold unconnected client
  cases c.checkIds <;> rfl

end GuildBot.Platform
