import RepoAtlas.Text.Search

/-!
# What a command tells the user

Lines for progress, success and failure, with the time where it is asked for, and lines of a log with
colours for its levels. Troubles have an exit code each.
-/

namespace RepoAtlas.Command

/-- What was written to standard output and to standard error. -/
structure Transcript where
  out : String := ""
  err : String := ""

namespace Transcript

/-- Write a line to standard output. -/
def say (t : Transcript) (line : String) : Transcript :=
  { t with out := t.out ++ line ++ "\n" }

/-- Write a line to standard error. -/
def warn (t : Transcript) (line : String) : Transcript :=
  { t with err := t.err ++ line ++ "\n" }

/-- Write lines to standard output. -/
def sayAll (t : Transcript) (lines : List String) : Transcript :=
  lines.foldl say t

end Transcript

/-- A message to the user. -/
inductive Notice where
  /-- A detail, shown only to those who want to know more. -/
  | detail (message : String)
  | plain (message : String)
  | success (message : String)
  | warning (message : String)
  | failure (message : String)
  /-- A step of the work, perhaps with its number and how many there are. -/
  | step (message : String) (place : Option (Int × Int))
  deriving DecidableEq, Repr

/-- Tell the user something at a time of day. -/
def Transcript.tell (t : Transcript) (verbose : Bool) (time : String) : Notice → Transcript
  | .detail m => if verbose then t.say ("[" ++ time ++ "] " ++ m) else t
  | .plain m => t.say m
  | .success m => t.say ("✓ " ++ m)
  | .warning m => t.say ("⚠️  " ++ m)
  | .failure m => t.warn ("✗ " ++ m)
  | .step m (some (n, total)) => t.say (s!"[{n}/{total}] " ++ m)
  | .step m none => t.say ("→ " ++ m)

/-- A number of microseconds in minutes and seconds. -/
def elapsedText (micros : Int) : String :=
  let minutes := micros.fdiv 60000000
  let seconds := (micros.fmod 60000000).tdiv 1000000
  if minutes > 0 then s!"{minutes}m {seconds}s" else s!"{seconds}s"

/-- What stops a command. -/
inductive Trouble where
  | general (message : String)
  | settings (message : String)
  | repository (message : String)
  | files (message : String)
  /-- Something that the command does not know about. -/
  | unexpected (message : String)
  deriving DecidableEq, Repr

/-- The exit code of a trouble. -/
def Trouble.exit : Trouble → Nat
  | .general _ => 1
  | .settings _ => 2
  | .repository _ => 3
  | .files _ => 5
  | .unexpected _ => 1

/-- The message of a trouble. -/
def Trouble.message : Trouble → String
  | .general m => m
  | .settings m => m
  | .repository m => m
  | .files m => m
  | .unexpected m => m

/-- Report a trouble. Those who want to know more also see where an unexpected one came from, which is
nowhere if it was not raised by something. -/
def Transcript.report (t : Transcript) (verbose : Bool) : Trouble → Transcript
  | .unexpected m =>
    let t := t.warn ("\nUnexpected error: " ++ m)
    if verbose then t.warn "NoneType: None\n" else t
  | other => t.warn ("\nError: " ++ other.message)

/-- The levels of a log. -/
inductive Level where
  | debug
  | info
  | warning
  | error
  | critical
  deriving DecidableEq, Repr

namespace Level

/-- All levels, the least urgent first. -/
def all : List Level := [.debug, .info, .warning, .error, .critical]

/-- The name of a level. -/
def name : Level → String
  | .debug => "DEBUG"
  | .info => "INFO"
  | .warning => "WARNING"
  | .error => "ERROR"
  | .critical => "CRITICAL"

/-- The level with a name. -/
def ofName? (n : String) : Option Level :=
  all.find? fun l => l.name = n

/-- How urgent a level is. -/
def rank : Level → Nat
  | .debug => 10
  | .info => 20
  | .warning => 30
  | .error => 40
  | .critical => 50

/-- What switches the terminal to the colour of a level. -/
def colour : Level → String
  | .debug => "\x1b[34m"
  | .info => "\x1b[36m"
  | .warning => "\x1b[33m"
  | .error => "\x1b[31m"
  | .critical => "\x1b[31m\x1b[1m"

end Level

/-- What switches the terminal back. -/
def plainColour : String := "\x1b[0m"

/-- What switches the terminal to the colour of times. -/
def timeColour : String := "\x1b[34m"

/-- A text with blanks behind it, so that it is at least `width` long. -/
def padded (width : Nat) (s : String) : String :=
  s ++ String.ofList (List.replicate (width - s.length) ' ')

/-- A line of the log. -/
def logLine (time : String) (level : Level) (message : String) : String :=
  timeColour ++ "[" ++ time ++ "]" ++ plainColour ++ " " ++ level.colour ++ padded 8 level.name ++
    plainColour ++ " " ++ level.colour ++ message ++ plainColour

/-- How an error is shown below a line of the log. -/
def errorText (name text : String) : String :=
  if text = "" then name else name ++ ": " ++ text

/-- The lines of the messages that are urgent enough. -/
def logText (time : String) (least : Level) (messages : List (Level × String)) : String :=
  String.join ((messages.filter fun (l, _) => least.rank ≤ l.rank).map fun (l, m) =>
    logLine time l m ++ "\n")

/-- Two digits of a number below one hundred. -/
def twoDigits (n : Nat) : String :=
  (if n < 10 then "0" else "") ++ toString n

/-- The time of day of a number of seconds since midnight of some day. -/
def timeOfDay (seconds : Int) : String :=
  let s := (seconds.fmod 86400).toNat
  Text.join ":" [twoDigits (s / 3600), twoDigits (s / 60 % 60), twoDigits (s % 60)]

end RepoAtlas.Command
