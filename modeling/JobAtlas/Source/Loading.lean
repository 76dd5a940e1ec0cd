import JobAtlas.Job.Import
import JobAtlas.Path
import JobAtlas.Source.Basic

/-!
# Loading

`load` reads every job of a source in the order of the paths. A job that is not
read is reported and does not keep others from being read. Jobs have distinct
names: the stem of the path, or the stem with the first free number behind it.
-/

namespace JobAtlas

/-- Why one job is not loaded. -/
inductive LoadFault where
  | unread (path : Path) (fault : Source.Fault)
  | unparsed (path : Path) (error : Markup.Error)
deriving DecidableEq, Repr

namespace LoadFault

def path : LoadFault → Path
  | unread path _ | unparsed path _ => path

def message : LoadFault → String
  | unread path fault => "Failed to read " ++ path.shown ++ ": " ++ fault.report.message
  | unparsed path error =>
    "Failed to parse " ++ path.shown ++ ": " ++ (ImportError.ofMarkup error).message

end LoadFault

/-- The report on a job that is not loaded. -/
structure LoadFailure where
  path : Path
  error : String
deriving DecidableEq, Repr, Inhabited

def LoadFailure.ofFault (f : LoadFault) : LoadFailure := ⟨f.path, f.message⟩

/-- The jobs of a source, and reports on those that are not loaded, both in the
order of the paths. -/
structure Loaded where
  jobs : List Job
  failures : List LoadFailure
deriving DecidableEq, Inhabited

/-- A name with a number behind it. -/
def numbered (name : String) (n : Nat) : String := name ++ "_" ++ toString n

/-- The name itself, or with the first free number from 2 on. Of one number
more than there are names, one is free. -/
def freeName (taken : List String) (name : String) : String :=
  if name ∈ taken then
    (((List.range' 2 (taken.length + 1)).map (numbered name)).find? (· ∉ taken)).getD name
  else name

/-- Read the job at a path and give it a name. -/
def Source.loadJob (s : Source) (path : Path) (name : String) : Except LoadFault Job :=
  match s.read path with
  | .error fault => .error (.unread path fault)
  | .ok text =>
    match Job.parse name text with
    | .error error => .error (.unparsed path error)
    | .ok job => .ok job

/-- What becomes of each path, when some names are taken. -/
def Source.outcomes (s : Source) (taken : List String) : List Path → List (Except LoadFault Job)
  | [] => []
  | path :: paths =>
    let name := freeName taken (Path.jobName path)
    match s.loadJob path name with
    | .error fault => .error fault :: s.outcomes taken paths
    | .ok job => .ok job :: s.outcomes (name :: taken) paths

def Loaded.ofOutcomes (outcomes : List (Except LoadFault Job)) : Loaded where
  jobs := outcomes.filterMap fun
    | .ok job => some job
    | .error _ => none
  failures := outcomes.filterMap fun
    | .ok _ => none
    | .error fault => some (.ofFault fault)

namespace Loaded

variable (job : Job) (fault : LoadFault) (os : List (Except LoadFault Job))

@[simp] theorem jobs_ofOutcomes_ok : (ofOutcomes (.ok job :: os)).jobs = job :: (ofOutcomes os).jobs :=
  rfl

@[simp] theorem jobs_ofOutcomes_error :
    (ofOutcomes (.error fault :: os)).jobs = (ofOutcomes os).jobs := rfl

@[simp] theorem failures_ofOutcomes_ok :
    (ofOutcomes (.ok job :: os)).failures = (ofOutcomes os).failures := rfl

@[simp] theorem failures_ofOutcomes_error :
    (ofOutcomes (.error fault :: os)).failures = .ofFault fault :: (ofOutcomes os).failures := rfl

end Loaded

/-- Load every job of a source; only the listing of the source can fail. -/
def Source.load (s : Source) : Except Source.Fault Loaded :=
  s.paths.map fun paths => .ofOutcomes (s.outcomes [] paths)

/-- The written form of a report. There is none if the path is no text. -/
def LoadFailure.toData? (f : LoadFailure) : Option Data :=
  f.path.text?.map fun path => .record (Data.field "path" path ++ Data.field "error" f.error)

def LoadFailure.ofData? : Data → Option LoadFailure := Data.Reader.read? do
  let path : String ← Data.required "path"
  return { path, error := ← Data.required "error" }

end JobAtlas
