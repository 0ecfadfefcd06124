import BookCompiler.Json.Codec
import BookCompiler.Pipeline.Requirements

namespace BookCompiler

def ofName? {α : Type} (all : List α) (name : α → String) (text : String) : Option α :=
  all.find? fun a => name a == text

namespace ModelVariant

def all : List ModelVariant := [chat, completion, embedding]

def toJson (v : ModelVariant) : Json := .str v.name

def ofJson? (x : Json) : Option ModelVariant := x.name?.bind (ofName? all name)

def ofCommand? (x : Json) : Option ModelVariant := x.commandName?.bind (ofName? all name)

end ModelVariant

namespace Requirements

def toJson (r : Requirements) : Json :=
  .obj (Json.optional "modelVariant" ModelVariant.toJson r.variant ++
    Json.optional "modelName" .str r.name ++
    Json.optional "temperature" Json.ofReal r.temperature ++
    Json.optional "maxTokens" Json.ofUInt32 r.maxTokens ++
    Json.optional "seed" Json.ofUInt64 r.seed)

def ofJson? (x : Json) : Option Requirements := do
  let m ← x.record? ["modelVariant", "modelName", "temperature", "maxTokens", "seed"]
  let variant ← Json.maybe m "modelVariant" ModelVariant.ofJson?
  let name ← Json.maybe m "modelName" Json.string?
  let temperature ← Json.maybe m "temperature" Json.real?
  let maxTokens ← Json.maybe m "maxTokens" Json.uint32?
  let seed ← Json.maybe m "seed" Json.uint64?
  some { variant, name, temperature, maxTokens, seed }

end Requirements

namespace Requirement

def valueJson : Requirement → Json
  | variant v => v.toJson
  | name n => .str n
  | temperature t => Json.ofReal t
  | maxTokens m => Json.ofUInt32 m
  | seed s => Json.ofUInt64 s

def toJson (r : Requirement) : Json := .obj [("key", .str r.key), ("value", r.valueJson)]

def keys : List String := ["VARIANT", "NAME", "TEMPERATURE", "MAX_TOKENS", "SEED"]

/-- The key at the head of an array, which may also be told by its number. -/
def headKey? : Json → Option String
  | .str key => some key
  | .int n => if 0 ≤ n then keys[n.toNat]? else none
  | _ => none

def parts? : Json → Option (String × Json)
  | .obj members => do
    let key ← Json.required members "key" Json.commandName?
    let value ← members.lookup "value"
    some (key, value)
  | .arr [key, value] => (headKey? key).map fun key => (key, value)
  | _ => none

def ofJson? (x : Json) : Option Requirement := do
  let (key, value) ← parts? x
  if key = "VARIANT" then (ModelVariant.ofCommand? value).map .variant
  else if key = "NAME" then value.string?.map .name
  else if key = "TEMPERATURE" then value.real?.map .temperature
  else if key = "MAX_TOKENS" then value.uint32?.map .maxTokens
  else if key = "SEED" then value.uint64?.map .seed
  else none

end Requirement

end BookCompiler
