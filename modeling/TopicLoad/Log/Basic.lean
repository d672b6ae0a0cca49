/-! Log lines, and what is logged at the ends of a program and about errors and successes. -/
namespace TopicLoad
namespace Log

inductive Level where
  | trace
  | debug
  | info
  | warn
  | error
deriving DecidableEq, Repr

def Level.text : Level → String
  | trace => "TRACE"
  | debug => "DEBUG"
  | info => "INFO"
  | warn => "WARN"
  | error => "ERROR"

def Level.rank : Level → Nat
  | trace => 0
  | debug => 1
  | info => 2
  | warn => 3
  | error => 4

/-- The parts of the program whose lines are filtered apart. -/
inductive Part where
  | engine
  | shared
deriving DecidableEq, Repr

def Part.name : Part → String
  | engine => "pubsub_engine"
  | shared => "shared"

/-- `error` is the text of the error that a line is about. -/
structure Line where
  level : Level
  message : String
  error : Option String := none
  part : Part := .engine
deriving DecidableEq, Repr

def debug (message : String) : Line := { level := .debug, message := message }

def info (message : String) : Line := { level := .info, message := message }

def startup (details : String) : Line :=
  { level := .info, message := s!"🚀 Starting {details}", part := .shared }

def shutdown (reason : String) : Line :=
  { level := .info, message := s!"🛑 Shutting down: {reason}", part := .shared }

def failure (context error : String) : Line :=
  { level := .error, message := s!"❌ {context} failed: {error}", error := some error
    part := .shared }

def success (message : String) : Line :=
  { level := .info, message := s!"✅ {message}", part := .shared }

end Log
end TopicLoad
