import GuildBot.Record
namespace GuildBot.Activity

/-- Tells of a user who joined, left or moved. There is nothing to tell of one who is where they
were, by the ids of the channels. -/
def transitionText? (name : String) (previous next : Option Channel) : Option String :=
  match previous, next with
  | none, none => none
  | none, some next => some s!"{name} joined {next.name}"
  | some previous, none => some s!"{name} left {previous.name}"
  | some previous, some next =>
    if previous.id = next.id then none else some s!"{name} moved from {previous.name} to {next.name}"

end GuildBot.Activity
