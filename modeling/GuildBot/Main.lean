import GuildBot.Rehearsal.Session
import GuildBot.Settings.Load
/-!
# Command line

A console on which the bot can be tried. Settings come from the environment; each line that is
read is a message to the bot, and its log and what it does are printed.
-/

namespace GuildBot.Console

open Rehearsal

def describe : Settings.LoadError → String
  | .field (.missing key) => s!"the setting {key} is missing"
  | .field (.unreadable key) => s!"the setting {key} cannot be read"
  | .malformedFile => "the settings file is malformed"
  | .noSuchFile => "there is no such settings file"
  | .refused flaw => flaw.message

def environment : IO (List (String × String)) := do
  let names := Settings.keys.map fun key => (Settings.environmentMark ++ key).map Char.toUpper
  names.filterMapM fun name => do return (← IO.getEnv name).map (name, ·)

/-- The world of the console: one channel, and one user in it. -/
def world : Document :=
  .record [
    ("channels", .record [("console", .record [("name", .text "console")])]),
    ("users", .record [("you", .record [("username", .text "you")])])]

def messageOf (line : String) : RawMessage :=
  { channelId := "console", authorId := "you", content := line }

def textOf : Deed → String
  | .call c => " ".intercalate c.words
  | .heard id event => s!"{id} heard {event}"

def randomWords : IO (List Nat) :=
  (List.replicate (2 * Dice.maxDice) ()).mapM fun _ => IO.rand 0 (Dice.wordRange - 1)

/-- Passes the lines of the input to the bot until it ends. -/
partial def loop (input : IO.FS.Stream) (s : Session) : IO Unit := do
  let line ← input.getLine
  if line.isEmpty then return
  let words ← randomWords
  let message := messageOf (line.dropEndWhile (· == '\n')).toString
  let (report, s) := { s with bot := { s.bot with words } }.step (.processInTime (.message message))
  for l in report.log do IO.println l.text
  for deed in report.deeds do IO.println (textOf deed)
  loop input s

/-- Loads the settings and talks with the user. -/
def run : IO UInt32 := do
  match Settings.load { environment := ← environment } with
  | .error e =>
    IO.eprintln s!"Error: {describe e}"
    return 1
  | .ok settings =>
    let start := Instant.ofSeconds 0
    let bot := (Bot.ofSettings settings (platform world) .hand start start).registerStock.2
    loop (← IO.getStdin) { bot, world := some world }
    return 0

end GuildBot.Console

def main : IO UInt32 := GuildBot.Console.run
