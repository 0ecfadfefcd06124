import BookCompiler.Compile.Error
import BookCompiler.Pipeline.Basic

namespace BookCompiler

def firstRepeated? (seen : List String) : List String → Option String
  | [] => none
  | name :: rest => if seen.contains name then some name else firstRepeated? (name :: seen) rest

namespace Task

def usedNames (t : Task) : List String := t.dependencies ++ t.result.toList

def isReady (known : List String) (t : Task) : Bool :=
  t.dependencies.all fun name => known.contains name || isReserved name

def missingNames (known : List String) (t : Task) : List String :=
  t.dependencies.filter (!known.contains ·)

def expectationFault? (t : Task) : Option LogicFault :=
  if !t.jokers.isEmpty && t.expectations.isEmpty && t.format.isNone then
    some (.uncheckedJoker t.title)
  else
    t.expectations.toList.findSome? fun (unit, b) =>
      b.crossed.map fun (min, max) => .crossedBounds unit min max t.title

end Task

/-- Tasks run in rounds: each round runs every task whose dependencies are known. What is known at
the end, and the tasks that never run. With as many rounds as tasks, the last one runs none. -/
def runRounds : (rounds : Nat) → (known : List String) → List Task → List String × List Task
  | 0, known, waiting => (known, waiting)
  | rounds + 1, known, waiting =>
    let (ready, blocked) := waiting.partition (Task.isReady known)
    if ready.isEmpty then (known, waiting)
    else runRounds rounds (known ++ ready.filterMap Task.result) blocked

namespace Pipeline

def uniqueNames (p : Pipeline) : Except LogicFault Unit :=
  match firstRepeated? [] (p.parameters.map Parameter.name) with
  | some name => .error (.parameterRepeated name)
  | none =>
    match firstRepeated? [] (p.tasks.map Task.name) with
    | some name => .error (.taskRepeated name)
    | none => .ok ()

def declaredParameters (p : Pipeline) : Except LogicFault Unit :=
  let undefined? (t : Task) : Option LogicFault :=
    (t.usedNames.find? fun name => (p.parameter? name).isNone).map fun name =>
      .undefinedParameter name t.title
  match p.tasks.findSome? undefined? with
  | some fault => .error fault
  | none => .ok ()

def producerFault? (p : Pipeline) (producers : List (String × String)) :
    List Task → Option LogicFault
  | [] => none
  | t :: rest =>
    match t.result with
    | none => p.producerFault? producers rest
    | some name =>
      match producers.lookup name with
      | some first => some (.producedTwice name first t.title)
      | none =>
        if (p.parameter? name).any Parameter.isInput then some (.producedInput name t.title)
        else p.producerFault? ((name, t.title) :: producers) rest

def singleProducers (p : Pipeline) : Except LogicFault Unit :=
  match p.producerFault? [] p.tasks with
  | some fault => .error fault
  | none => .ok ()

def soundExpectations (p : Pipeline) : Except LogicFault Unit :=
  match p.tasks.findSome? Task.expectationFault? with
  | some fault => .error fault
  | none => .ok ()

def resolution (p : Pipeline) : List String × List Task :=
  runRounds p.tasks.length (p.namesWithRole .input) p.tasks

def resolvable (p : Pipeline) : Except LogicFault Unit :=
  let (known, waiting) := p.resolution
  if waiting.isEmpty then .ok ()
  else .error (.unresolvable (waiting.map fun t => (t.title, t.missingNames known)))

/-- Whether a pipeline is consistent and each of its tasks can run at last. -/
def validate (p : Pipeline) : Except LogicFault Unit := do
  p.uniqueNames
  p.declaredParameters
  p.singleProducers
  p.soundExpectations
  p.resolvable

end Pipeline

end BookCompiler
