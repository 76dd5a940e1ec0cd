import JobAtlas.Data.Basic
import JobAtlas.Text.Case
import JobAtlas.Text.Search

/-!
# Roles of jobs

Where a job stands in the hierarchy of jobs follows from markers in its name,
and for a name without markers from whether the job runs another one.
-/

namespace JobAtlas

/-- The role of a job in the hierarchy. -/
inductive JobRole where
  | orchestrator
  | orchestratorMid
  | orchestratorTop
  | processor
deriving DecidableEq, Repr, Inhabited

namespace JobRole

def label : JobRole → String
  | orchestrator => "orchestrator"
  | orchestratorMid => "orchestrator_mid"
  | orchestratorTop => "orchestrator_top"
  | processor => "processor"

/-- The roles in the order in which reports list them. -/
def all : List JobRole := [orchestrator, orchestratorMid, orchestratorTop, processor]

/-- The roles that markers in a name give, in the order in which they are sought. -/
def markers : List (String × JobRole) :=
  [("grandmaster", orchestratorTop), ("master", orchestratorMid), ("child", processor)]

/-- The role of a job by its name, in any case, and by whether it runs another job. -/
def infer (name : String) (hasSubJob : Bool) : JobRole :=
  let lowerName := Text.lowerCase name
  match markers.find? fun m => Text.contains lowerName m.1 with
  | some (_, role) => role
  | none => if hasSubJob then orchestrator else processor

end JobRole

instance : Coded JobRole where
  toData r := .text r.label
  ofData? d := do
    let s ← d.label?
    JobRole.all.find? (·.label == s)

end JobAtlas
