import ContractBuild.Store.Pool
/-!
Jobs: the compilation of one source each, side by side up to a limit, and what they come to.
Results are kept in the order of the jobs, whatever order they end in.
-/
namespace ContractBuild

/-- A source to compile, or why it cannot be. `selected` says that its interface is wanted. -/
structure Job where
  unit : SourceUnit
  selected : Bool
  work : Except BuildError Request

structure JobResult where
  name : String
  path : Path
  cacheHit : Bool
  selected : Bool
  outcome : Except BuildError Artifact

namespace JobResult

def isOk (result : JobResult) : Bool :=
  result.outcome.isOk

/-- Whether a wanted interface is missing. -/
def blocksExport (result : JobResult) : Bool :=
  result.selected && !result.isOk

end JobResult

namespace Job

def ofRequest (request : Request) (selected : Bool) : Job :=
  ⟨request.unit, selected, .ok request⟩

def name (job : Job) : String :=
  job.unit.artifactName

/-- The result that belongs to a strand. A strand that has come to rest without an answer counts
as cancelled. -/
def result (job : Job) (strand : Strand) : JobResult :=
  { name := job.name
    path := job.unit.path
    cacheHit := strand.cacheHit
    selected := job.selected
    outcome := strand.phase.outcome?.getD (.error .cancelled) }

/-- Runs jobs with at most `limit` of them at work. -/
def runAll (limit : Nat) (jobs : List Job) (state : BuildState) : List JobResult × BuildState :=
  let (pool, state) := (Pool.ofWork limit (jobs.map Job.work)).run state
  ((jobs.zip pool.strands).map fun (job, strand) => job.result strand, state)

end Job

/-- What compiling all sources came to. -/
structure CompileSummary where
  compiled : List String
  cacheHits : List String
  errors : List BuildError
  blocked : List String
  deriving DecidableEq

namespace CompileSummary

def empty : CompileSummary := ⟨[], [], [], []⟩

def add (summary : CompileSummary) (result : JobResult) : CompileSummary :=
  match result.outcome with
  | .ok _ =>
    if result.cacheHit then { summary with cacheHits := summary.cacheHits ++ [result.name] }
    else { summary with compiled := summary.compiled ++ [result.name] }
  | .error cause =>
    { summary with
      errors := summary.errors ++ [cause]
      blocked := if result.selected then summary.blocked ++ [result.name] else summary.blocked }

def ofResults (results : List JobResult) : CompileSummary :=
  results.foldl add empty

end CompileSummary
end ContractBuild
