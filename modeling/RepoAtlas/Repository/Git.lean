import RepoAtlas.Report.Coupling

/-!
# What git says

Git is asked for the log of a repository and for its newest commit. It may give an answer, take too
long, be missing, or be interrupted by the user; an interruption ends everything.
-/

namespace RepoAtlas.Repository

/-- What a call of git gives. -/
inductive GitAnswer where
  | finished (code : Int) (output errors : String)
  | timedOut
  | missing
  | interrupted
  deriving DecidableEq, Repr

/-- The user ended the program. -/
inductive Interruption where
  | byUser
  deriving DecidableEq, Repr

/-- The call for the log of a repository. -/
def logCommand : List String :=
  ["git", "log", "--name-only", "--format=COMMIT:%H", "--no-merges", "-n", "500"]

/-- What a call that succeeded gave; an interruption is passed on. -/
def GitAnswer.output? : GitAnswer → Except Interruption (Option String)
  | .finished code out _ => .ok (if code = 0 then some out else none)
  | .timedOut => .ok none
  | .missing => .ok none
  | .interrupted => .error .byUser

/-- Whether the log is asked for: the repository is kept by git and has files with components. -/
def asksForLog (keptByGit : Bool) (cs : Components) : Bool :=
  keptByGit && !(Report.trackedFiles cs).isEmpty

/-- The couplings that the log of a repository shows. -/
def couplingsOf (limits : Report.CouplingLimits) (keptByGit : Bool) (log : GitAnswer)
    (cs : Components) : Except Interruption (List Report.Coupling) :=
  if asksForLog keptByGit cs then
    log.output?.map fun out => (out.map (Report.couplings limits cs)).getD []
  else .ok []

/-- The newest commit of a repository; the empty text if it is not known. -/
def headOf (keptByGit : Bool) (head : GitAnswer) : Except Interruption String :=
  if keptByGit then head.output?.map fun out => (out.map Text.strip).getD "" else .ok ""

end RepoAtlas.Repository
