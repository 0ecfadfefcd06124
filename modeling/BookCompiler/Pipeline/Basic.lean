import BookCompiler.Digest
import BookCompiler.Name.Words
import BookCompiler.Pipeline.Task

namespace BookCompiler

inductive Role where
  | input
  | output
  | intermediate
  deriving Repr, DecidableEq

structure Parameter where
  name : String
  description : Option String := none
  role : Role
  examples : List String := []
  deriving Repr, DecidableEq

namespace Parameter

def isInput (p : Parameter) : Bool := p.role == .input

def isOutput (p : Parameter) : Bool := p.role == .output

end Parameter

structure Persona where
  name : String
  description : Option String := none
  deriving Repr, DecidableEq

structure KnowledgeSource where
  name : String
  content : String
  deriving Repr, DecidableEq

namespace KnowledgeSource

def nameCut : Nat := 20

/-- The name of a source shows the beginning of its text, and equal texts have equal names. -/
def nameOf (content : String) : String :=
  let start := Name.kebab (String.ofList (content.toList.take nameCut))
  let digest := String.ofList ((Digest.hex content).take nameCut)
  String.intercalate "-" (["source", start, digest].filter (!·.isEmpty))

def ofText (content : String) : KnowledgeSource := ⟨nameOf content, content⟩

end KnowledgeSource

structure KnowledgePiece where
  name : String
  title : String
  content : String
  keywords : List String := []
  sources : List String := []
  deriving Repr, DecidableEq

structure Preparation where
  id : String
  bookVersion : String
  deriving Repr, DecidableEq

structure Source where
  type : String
  path : Option String := none
  content : String
  deriving Repr, DecidableEq

structure Pipeline where
  title : String
  url : Option String := none
  bookVersion : Option String := none
  description : Option String := none
  formfactor : Option String := none
  parameters : List Parameter := []
  requirements : Option Requirements := none
  tasks : List Task := []
  knowledgeSources : List KnowledgeSource := []
  knowledgePieces : List KnowledgePiece := []
  personas : List Persona := []
  preparations : List Preparation := []
  sources : List Source := []
  deriving Repr, DecidableEq

namespace Pipeline

def parameter? (p : Pipeline) (name : String) : Option Parameter :=
  p.parameters.find? fun q => q.name == name

def namesWithRole (p : Pipeline) (role : Role) : List String :=
  (p.parameters.filter fun q => q.role == role).map Parameter.name

end Pipeline

end BookCompiler
