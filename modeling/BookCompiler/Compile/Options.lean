import BookCompiler.Json.Scalars
import BookCompiler.Script.Basic

namespace BookCompiler

/-- What a compilation does beyond reading the book, and how much of a script it analyses. -/
structure Options where
  abstractions : Bool := true
  validation : Bool := true
  maxIdentifiers : UInt64 := 256
  maxNesting : UInt64 := 32
  deriving Repr, DecidableEq

namespace Options

def limits (o : Options) : Script.Limits :=
  { maxIdentifiers := o.maxIdentifiers.toNat, maxNesting := o.maxNesting.toNat }

def unchecked : Options := { validation := false }

def toJson (o : Options) : Json :=
  .obj
    [("enable_high_level_abstractions", .bool o.abstractions),
     ("enable_logic_validation", .bool o.validation),
     ("max_script_identifiers", .ofUInt64 o.maxIdentifiers),
     ("max_script_nesting", .ofUInt64 o.maxNesting)]

def read (scalars : Json.Scalars) (x : Json) : Option Options := do
  let m ← scalars.record
    ["enable_high_level_abstractions", "enable_logic_validation", "max_script_identifiers",
     "max_script_nesting"] x
  let abstractions ← Json.orElse m "enable_high_level_abstractions" true scalars.flag
  let validation ← Json.orElse m "enable_logic_validation" true scalars.flag
  let maxIdentifiers ← Json.orElse m "max_script_identifiers" 256 scalars.word
  let maxNesting ← Json.orElse m "max_script_nesting" 32 scalars.word
  some { abstractions, validation, maxIdentifiers, maxNesting }

def ofJson? (x : Json) : Option Options := read .strict x

end Options

end BookCompiler
