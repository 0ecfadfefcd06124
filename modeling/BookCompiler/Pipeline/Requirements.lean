import BookCompiler.Decimal.Binary64

namespace BookCompiler

inductive ModelVariant where
  | chat
  | completion
  | embedding
  deriving Repr, DecidableEq

def ModelVariant.name : ModelVariant → String
  | chat => "CHAT"
  | completion => "COMPLETION"
  | embedding => "EMBEDDING"

inductive Requirement where
  | variant (value : ModelVariant)
  | name (value : String)
  | temperature (value : Binary64)
  | maxTokens (value : UInt32)
  | seed (value : UInt64)
  deriving Repr, DecidableEq

def Requirement.key : Requirement → String
  | variant _ => "VARIANT"
  | name _ => "NAME"
  | temperature _ => "TEMPERATURE"
  | maxTokens _ => "MAX_TOKENS"
  | seed _ => "SEED"

structure Requirements where
  variant : Option ModelVariant := none
  name : Option String := none
  temperature : Option Binary64 := none
  maxTokens : Option UInt32 := none
  seed : Option UInt64 := none
  deriving Repr, DecidableEq

namespace Requirements

def isEmpty (r : Requirements) : Bool :=
  r.variant.isNone && r.name.isNone && r.temperature.isNone && r.maxTokens.isNone && r.seed.isNone

def toList (r : Requirements) : List Requirement :=
  (r.variant.map .variant).toList ++ (r.name.map .name).toList ++
    (r.temperature.map .temperature).toList ++ (r.maxTokens.map .maxTokens).toList ++
    (r.seed.map .seed).toList

end Requirements

end BookCompiler
