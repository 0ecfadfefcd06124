import BookCompiler.Name.Reference
import BookCompiler.Notice
import BookCompiler.Pipeline.Basic

namespace BookCompiler

/-- What an attempt to change a draft leaves behind. There is a draft also when the attempt is
refused: what was changed before stays changed. -/
structure Attempt (ε α : Type) where
  draft : α
  refusal : Option ε := none
  notices : List Notice := []

namespace Attempt

variable {ε ε' α β : Type}

def done (draft : α) : Attempt ε α := { draft }

def refused (draft : α) (reason : ε) : Attempt ε α := { draft, refusal := some reason }

def noted (draft : α) (notice : Notice) : Attempt ε α := { draft, notices := [notice] }

def map (f : α → β) (a : Attempt ε α) : Attempt ε β :=
  { draft := f a.draft, refusal := a.refusal, notices := a.notices }

def mapRefusal (f : ε → ε') (a : Attempt ε α) : Attempt ε' α :=
  { draft := a.draft, refusal := a.refusal.map f, notices := a.notices }

end Attempt

structure ParameterDraft where
  name : String
  description : Option String := none
  role : Option Role := none
  examples : List String := []
  deriving Repr, DecidableEq

namespace ParameterDraft

def build (p : ParameterDraft) : Parameter :=
  { name := p.name, description := p.description, role := p.role.getD .intermediate
    examples := p.examples }

def mergeDescription (first second : Option String) : Except (String × String) (Option String) :=
  match first, second with
  | some a, some b => if a = b then .ok (some a) else .error (a, b)
  | some a, none => .ok (some a)
  | none, b => .ok b

def mergeRole (first second : Option Role) : Option (Option Role) :=
  match first, second with
  | some a, some b => if a = b then some (some a) else none
  | some a, none => some (some a)
  | none, b => some b

/-- Adds a further declaration of the same parameter. A new description stays when the roles turn
out to disagree. -/
def merge (existing definition : ParameterDraft) : Attempt ParameterError ParameterDraft :=
  match mergeDescription existing.description definition.description with
  | .error (first, second) => .refused existing (.redefined definition.name first second)
  | .ok description =>
    let described := { existing with description }
    match mergeRole existing.role definition.role with
    | none => .refused described (.conflictingRole definition.name)
    | some role =>
      .done { described with role, examples := existing.examples ++ definition.examples }

end ParameterDraft

end BookCompiler
