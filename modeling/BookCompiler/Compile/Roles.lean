import BookCompiler.Draft.Pipeline

namespace BookCompiler

def assignRole (role : Role) (name : String) : List ParameterDraft → List ParameterDraft
  | [] => []
  | p :: rest =>
    if p.name = name then { p with role := some role } :: rest else p :: assignRole role name rest

namespace PipelineDraft

def declares (d : PipelineDraft) (role : Role) : Bool :=
  d.parameters.any fun p => p.role == some role

def unproducedNames (d : PipelineDraft) : List String :=
  (d.parameters.filter fun p => p.role.isNone && !d.isTaskResult p.name).map ParameterDraft.name

/-- Where no input is declared, what no task produces is an input. -/
def inferInputs (d : PipelineDraft) : PipelineDraft :=
  { d with
    parameters :=
      if d.declares .input then d.parameters
      else d.unproducedNames.foldl (fun ps name => assignRole .input name ps) d.parameters }

/-- What is left is intermediate where an output is declared, and an output where none is. -/
def inferOutputs (d : PipelineDraft) : PipelineDraft :=
  let role := if d.declares .output then Role.intermediate else Role.output
  { d with parameters := d.parameters.map fun p => { p with role := some (p.role.getD role) } }

def resolveRoles (d : PipelineDraft) : PipelineDraft := d.inferInputs.inferOutputs

end PipelineDraft

end BookCompiler
