import GuildBot.Failure
import GuildBot.Text.Integer
/-!
# Platform ids

The platform numbers everything with positive 64-bit integers. `readId` accepts the decimal texts
of those numbers and names any other text in its failure.
-/

namespace GuildBot.Platform

/-- The number that an id stands for. -/
def readId (id : String) : Outcome Nat :=
  match (Text.unsigned? Text.max64 id).filter (0 < ·) with
  | some n => .ok n
  | none => .error (.of (.invalidId id))

def readIds (ids : List String) : Outcome (List Nat) := ids.mapM readId

end GuildBot.Platform
