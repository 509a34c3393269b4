namespace GuildBot.Log

/-- How much a line matters. -/
inductive Level where
  | debug
  | info
  | warn
  | error
  deriving DecidableEq, Repr, Inhabited

def Level.word : Level → String
  | .debug => "DEBUG"
  | .info => "INFO"
  | .warn => "WARN"
  | .error => "ERROR"

structure Line where
  level : Level
  message : String
  deriving DecidableEq, Repr, Inhabited

def Line.text (l : Line) : String := l.level.word ++ " " ++ l.message

end GuildBot.Log
