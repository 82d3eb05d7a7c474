import RepoAtlas.Text.Search

/-!
# Arguments of a command

Options have a long name and perhaps a short one. The value of one that takes a value stands after an equals
sign, directly behind its letter or in the next argument. Two dashes alone end the options, and a group of
commands stops at the first argument that is none.
-/

namespace RepoAtlas.Command

/-- An option. -/
structure OptionSpec where
  /-- The name with its two dashes. -/
  long : String
  short : Option Char := none
  takesValue : Bool := false

/-- What is wrong with arguments. -/
inductive ArgumentFault where
  | unknown (argument : String)
  | noValue (option : String)
  | unwantedValue (option : String)
  | surplus (argument : String)
  deriving DecidableEq, Repr

/-- Arguments that were read. -/
structure Arguments where
  /-- Values of options, the last given one first. -/
  values : List (String × String) := []
  /-- Options without value, in the order in which they are given. -/
  flags : List String := []
  /-- All other arguments. -/
  rest : List String := []

namespace Arguments

/-- The value of an option; the last one given counts. -/
def value? (a : Arguments) (long : String) : Option String :=
  a.values.lookup long

/-- Whether an option without value is given. -/
def has (a : Arguments) (long : String) : Bool :=
  a.flags.contains long

/-- Add the value of an option. -/
def withValue (a : Arguments) (long value : String) : Arguments :=
  { a with values := (long, value) :: a.values }

/-- Add options without value. -/
def withFlags (a : Arguments) (longs : List String) : Arguments :=
  { a with flags := a.flags ++ longs }

end Arguments

/-- The options of a cluster of letters: those without value, and if one takes a value its name and the
letters behind it. -/
def readCluster (options : List OptionSpec) :
    List Char → Except ArgumentFault (List String × Option (String × List Char))
  | [] => .ok ([], none)
  | c :: cs =>
    match options.find? fun o => o.short = some c with
    | none => .error (.unknown (String.ofList ['-', c]))
    | some o =>
      if o.takesValue then .ok ([], some (o.long, cs))
      else (readCluster options cs).map fun (flags, value) => (o.long :: flags, value)

/-- Whether an argument looks like an option. -/
def looksLikeOption (arg : String) : Bool :=
  Text.begins arg "-" && arg != "-"

/-- What an argument that looks like an option gives. -/
inductive OptionReading where
  /-- Options without value. -/
  | flags (longs : List String)
  /-- An option with its value, after others without. -/
  | value (longs : List String) (long value : String)
  /-- An option whose value is the next argument, after others without. -/
  | needsNext (longs : List String) (long : String)

/-- Read an argument that looks like an option. -/
def readOption (options : List OptionSpec) (arg : String) : Except ArgumentFault OptionReading :=
  let (name, given) := Text.cutFirst '=' arg
  match options.find? fun o => o.long = name with
  | some o =>
    match o.takesValue, given with
    | true, some v => .ok (.value [] name v)
    | true, none => .ok (.needsNext [] name)
    | false, some _ => .error (.unwantedValue name)
    | false, none => .ok (.flags [name])
  | none =>
    if Text.begins arg "--" then .error (.unknown name)
    else
      (readCluster options (arg.toList.drop 1)).map fun
        | (flags, none) => .flags flags
        | (flags, some (long, [])) => .needsNext flags long
        | (flags, some (long, cs)) => .value flags long (String.ofList cs)

/-- Read arguments; `anywhere` says whether options may stand behind other arguments. -/
def readArguments (options : List OptionSpec) (anywhere : Bool) (done : Arguments) :
    List String → Except ArgumentFault Arguments
  | [] => .ok done
  | arg :: more =>
    if arg = "--" then .ok { done with rest := done.rest ++ more }
    else if looksLikeOption arg then
      match readOption options arg with
      | .error f => .error f
      | .ok (.flags longs) => readArguments options anywhere (done.withFlags longs) more
      | .ok (.value longs long v) =>
        readArguments options anywhere ((done.withFlags longs).withValue long v) more
      | .ok (.needsNext longs long) =>
        match more with
        | [] => .error (.noValue long)
        | v :: more =>
          readArguments options anywhere ((done.withFlags longs).withValue long v) more
    else if anywhere then
      readArguments options anywhere { done with rest := done.rest ++ [arg] } more
    else .ok { done with rest := done.rest ++ arg :: more }

end RepoAtlas.Command
