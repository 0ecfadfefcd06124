import BookCompiler.Compile.Options
import BookCompiler.Proofs.Json.Members
import BookCompiler.Wire.Command
import BookCompiler.Wire.Pipeline

namespace BookCompiler

open Json

namespace ModelVariant

theorem restores : Restores toJson ofJson? id := ⟨fun v => by cases v <;> decide, fun _ => nofun⟩

theorem ofCommand?_toJson (v : ModelVariant) : ofCommand? v.toJson = some v := by cases v <;> decide

end ModelVariant

theorem TaskType.restores : Restores toJson ofJson? id := ⟨fun t => by cases t <;> decide, fun _ => nofun⟩

theorem SectionType.restores : Restores toJson ofJson? id := ⟨fun t => by cases t <;> decide, fun _ => nofun⟩

theorem ExpectSign.restores : Restores toJson ofJson? id := ⟨fun s => by cases s <;> decide, fun _ => nofun⟩

namespace ExpectUnit

theorem ofName?_name (u : ExpectUnit) : ofName? all name u.name = some u := by cases u <;> decide

theorem restores : Restores toJson ofJson? id := ⟨ofName?_name, fun _ => nofun⟩

end ExpectUnit

namespace ResultFormat

theorem restores : Restores toJson ofJson? id := ⟨fun f => by cases f; decide, fun _ => nofun⟩

theorem restores_command : Restores toJson ofCommand? id := ⟨fun f => by cases f; decide, fun _ => nofun⟩

end ResultFormat

theorem CommandKind.ofJson?_typeName (k : CommandKind) : ofJson? (.str k.typeName) = some k := by cases k <;> decide

/-- The requirements without a temperature that is no finite number. -/
def Requirements.numeric (r : Requirements) : Requirements :=
  { r with temperature := r.temperature.filter Binary64.isFinite }

theorem Requirements.restores : Restores toJson ofJson? numeric := by
  refine ⟨fun r => ?_, fun _ => nofun⟩
  obtain ⟨m, hobj⟩ : ∃ m, r.toJson = .obj m := ⟨_, rfl⟩
  have hm := obj.inj hobj
  have hvariant := ModelVariant.restores.maybe m "modelVariant" r.variant (by simp [← hm, List.lookup_append])
  have hname := restores_str.maybe m "modelName" r.name (by simp [← hm, List.lookup_append])
  have htemperature := maybe_ofReal m "temperature" r.temperature (by simp [← hm, List.lookup_append])
  have htokens := restores_ofUInt32.maybe m "maxTokens" r.maxTokens (by simp [← hm, List.lookup_append])
  have hseed := restores_ofUInt64.maybe m "seed" r.seed (by simp [← hm, List.lookup_append])
  rw [hobj, ofJson?]
  simp [record?, hvariant, hname, htemperature, htokens, hseed, numeric]

namespace Bounds

theorem restores : Restores toJson ofJson? id := by
  refine ⟨fun b => ?_, fun _ => nofun⟩
  obtain ⟨m, hobj⟩ : ∃ m, b.toJson = .obj m := ⟨_, rfl⟩
  have hm := obj.inj hobj
  have hmin := restores_ofUInt32.maybe m "min" b.min (by simp [← hm, List.lookup_append])
  have hmax := restores_ofUInt32.maybe m "max" b.max (by simp [← hm, List.lookup_append])
  rw [hobj, ofJson?]
  simp [record?, hmin, hmax]

end Bounds

namespace Expectations

theorem ofMembers?_map (e : Expectations) (entries : List (ExpectUnit × Bounds)) :
    e.ofMembers? (entries.map fun (unit, b) => (unit.name, b.toJson)) = some (e.setAll entries) := by
  induction entries generalizing e with
  | nil => rfl
  | cons entry entries ih =>
      rw [List.map_cons, ofMembers?, ExpectUnit.ofName?_name, Option.bind_eq_bind, Option.bind_some,
        Bounds.restores.read]
      exact ih _

theorem restores : Restores toJson ofJson? id := by
  refine ⟨fun e => ?_, fun _ => nofun⟩
  rw [toJson, ofJson?, members?, Option.bind_some, members, ofMembers?_map, setAll_toList]
  rfl

theorem eq_empty_of_isEmpty {e : Expectations} (h : e.isEmpty = true) : e = {} := by
  rw [← setAll_toList e, List.isEmpty_iff.mp h]
  rfl

end Expectations

namespace Foreach

theorem ofJson?_obj (f : Foreach) (m : Members) (hm : ∀ key, key ≠ "type" → m.lookup key = f.members.lookup key) :
    ofJson? (.obj m) = some f := by
  have hformat := restores_str.required m "formatName" f.format (by simp [hm, members])
  have hsubformat := restores_str.required m "subformatName" f.subformat (by simp [hm, members])
  have hparameter := restores_str.required m "parameterName" f.parameter (by simp [hm, members])
  have hinputs := restores_ofStrings.required m "inputSubparameterNames" f.inputs (by simp [hm, members])
  have houtput := restores_str.required m "outputSubparameterName" f.output (by simp [hm, members])
  rw [ofJson?]
  simp [record?, hformat, hsubformat, hparameter, hinputs, houtput]

theorem restores : Restores toJson ofJson? id :=
  ⟨fun f => f.ofJson?_obj f.members fun _ _ => rfl, fun _ => nofun⟩

end Foreach

def Task.numeric (t : Task) : Task := { t with requirements := t.requirements.map Requirements.numeric }

namespace Task

theorem restores : Restores toJson ofJson? numeric := by
  refine ⟨fun t => ?_, fun _ => nofun⟩
  obtain ⟨m, hobj⟩ : ∃ m, t.toJson = .obj m := ⟨_, rfl⟩
  have hm := obj.inj hobj
  have hname := restores_str.required m "name" t.name (by simp [← hm])
  have htitle := restores_str.required m "title" t.title (by simp [← hm])
  have hdescription := restores_str.maybe m "description" t.description (by simp [← hm, List.lookup_append])
  have htype := TaskType.restores.required m "taskType" t.type (by simp [← hm, List.lookup_append])
  have hcontent := restores_str.required m "content" t.content (by simp [← hm, List.lookup_append])
  have hlanguage := restores_str.maybe m "contentLanguage" t.language (by simp [← hm, List.lookup_append])
  have hresult := restores_str.maybe m "resultingParameterName" t.result (by simp [← hm, List.lookup_append])
  have hdependencies := restores_ofStrings.orElse m "dependentParameterNames" [] t.dependencies
    (by simp [← hm, List.lookup_append])
  have hjokers := restores_str.nonempty m "jokerParameterNames" t.jokers (by simp [← hm, List.lookup_append])
  have hpostprocessing := restores_str.nonempty m "postprocessingFunctionNames" t.postprocessing
    (by simp [← hm, List.lookup_append])
  have hexpectations : orElse m "expectations" {} Expectations.ofJson? = some t.expectations := by
    by_cases hempty : t.expectations.isEmpty = true
    · rw [orElse, show m.lookup "expectations" = none by simp [← hm, List.lookup_append, hempty],
        Expectations.eq_empty_of_isEmpty hempty]
    · exact Expectations.restores.orElse m "expectations" {} t.expectations
        (by simp [← hm, List.lookup_append, hempty])
  have hformat := ResultFormat.restores.maybe m "format" t.format (by simp [← hm, List.lookup_append])
  have hforeach := Foreach.restores.maybe m "foreach" t.foreach (by simp [← hm, List.lookup_append])
  have hpersona := restores_str.maybe m "personaName" t.persona (by simp [← hm, List.lookup_append])
  have hrequirements := Requirements.restores.maybe m "modelRequirements" t.requirements
    (by simp [← hm, List.lookup_append])
  have hprepared := restores_str.maybe m "preparedContent" t.prepared (by simp [← hm, List.lookup_append])
  rw [hobj, ofJson?, record?_obj_bind, bind_of_eq hname, bind_of_eq htitle, bind_of_eq hdescription, bind_of_eq htype,
    bind_of_eq hcontent, bind_of_eq hlanguage, bind_of_eq hresult, bind_of_eq hdependencies, bind_of_eq hjokers,
    bind_of_eq hpostprocessing, bind_of_eq hexpectations, bind_of_eq hformat, bind_of_eq hforeach, bind_of_eq hpersona,
    bind_of_eq hrequirements, bind_of_eq hprepared]
  simp [numeric]

end Task

namespace Parameter

theorem restores : Restores toJson ofJson? id := by
  refine ⟨fun p => ?_, fun _ => nofun⟩
  obtain ⟨m, hobj⟩ : ∃ m, p.toJson = .obj m := ⟨_, rfl⟩
  have hm := obj.inj hobj
  have hname := restores_str.required m "name" p.name (by simp [← hm])
  have hdescription := restores_str.maybe m "description" p.description (by simp [← hm, List.lookup_append])
  have hisInput := restores_bool.required m "isInput" p.isInput (by simp [← hm, List.lookup_append])
  have hisOutput := restores_bool.required m "isOutput" p.isOutput (by simp [← hm, List.lookup_append])
  have hexamples := restores_str.nonempty m "exampleValues" p.examples (by simp [← hm, List.lookup_append])
  rw [hobj, ofJson?]
  have hrole : Role.ofFlags? p.isInput p.isOutput = some p.role := by
    rw [isInput, isOutput]
    cases p.role <;> rfl
  simp [record?, hname, hdescription, hisInput, hisOutput, hexamples, hrole]

end Parameter

namespace Persona

theorem restores : Restores toJson ofJson? id := by
  refine ⟨fun p => ?_, fun _ => nofun⟩
  obtain ⟨m, hobj⟩ : ∃ m, p.toJson = .obj m := ⟨_, rfl⟩
  have hm := obj.inj hobj
  have hname := restores_str.required m "name" p.name (by simp [← hm])
  have hdescription := restores_str.maybe m "description" p.description (by simp [← hm])
  rw [hobj, ofJson?]
  simp [record?, hname, hdescription]

end Persona

namespace KnowledgeSource

theorem restores : Restores toJson ofJson? id := by
  refine ⟨fun k => ?_, fun _ => nofun⟩
  obtain ⟨m, hobj⟩ : ∃ m, k.toJson = .obj m := ⟨_, rfl⟩
  have hm := obj.inj hobj
  have hname := restores_str.required m "name" k.name (by simp [← hm])
  have hcontent := restores_str.required m "knowledgeSourceContent" k.content (by simp [← hm])
  rw [hobj, ofJson?]
  simp [record?, hname, hcontent]

end KnowledgeSource

namespace KnowledgePiece

theorem restores : Restores toJson ofJson? id := by
  refine ⟨fun k => ?_, fun _ => nofun⟩
  obtain ⟨m, hobj⟩ : ∃ m, k.toJson = .obj m := ⟨_, rfl⟩
  have hm := obj.inj hobj
  have hname := restores_str.required m "name" k.name (by simp [← hm])
  have htitle := restores_str.required m "title" k.title (by simp [← hm])
  have hcontent := restores_str.required m "content" k.content (by simp [← hm])
  have hkeywords := restores_ofStrings.orElse m "keywords" [] k.keywords (by simp [← hm])
  have hsources := restores_ofStrings.orElse m "sources" [] k.sources (by simp [← hm])
  rw [hobj, ofJson?]
  simp [record?, hname, htitle, hcontent, hkeywords, hsources]

end KnowledgePiece

theorem Preparation.restores : Restores Preparation.toJson Preparation.ofJson? fun p => p := by
  refine ⟨fun p => ?_, fun _ => nofun⟩
  obtain ⟨m, hobj⟩ : ∃ m, p.toJson = .obj m := ⟨_, rfl⟩
  have hm := obj.inj hobj
  have hid := restores_str.required m "id" p.id (by simp [← hm])
  have hbookVersion := restores_str.required m "bookVersion" p.bookVersion (by simp [← hm])
  rw [hobj, Preparation.ofJson?]
  simp [record?, hid, hbookVersion]

namespace Source

theorem restores : Restores toJson ofJson? id := by
  refine ⟨fun s => ?_, fun _ => nofun⟩
  obtain ⟨m, hobj⟩ : ∃ m, s.toJson = .obj m := ⟨_, rfl⟩
  have hm := obj.inj hobj
  have htype := restores_str.required m "type" s.type (by simp [← hm])
  have hpath := restores_str.maybe m "path" s.path (by simp [← hm, List.lookup_append])
  have hcontent := restores_str.required m "content" s.content (by simp [← hm, List.lookup_append])
  rw [hobj, ofJson?]
  simp [record?, htype, hpath, hcontent]

end Source

def Pipeline.numeric (p : Pipeline) : Pipeline :=
  { p with requirements := p.requirements.map Requirements.numeric, tasks := p.tasks.map Task.numeric }

namespace Pipeline

theorem restores : Restores toJson ofJson? numeric := by
  refine ⟨fun p => ?_, fun _ => nofun⟩
  obtain ⟨m, hobj⟩ : ∃ m, p.toJson = .obj m := ⟨_, rfl⟩
  have hm := obj.inj hobj
  have htitle := restores_str.required m "title" p.title (by simp [← hm])
  have hurl := restores_str.maybe m "pipelineUrl" p.url (by simp [← hm, List.lookup_append])
  have hbookVersion := restores_str.maybe m "bookVersion" p.bookVersion (by simp [← hm, List.lookup_append])
  have hdescription := restores_str.maybe m "description" p.description (by simp [← hm, List.lookup_append])
  have hformfactor := restores_str.maybe m "formfactorName" p.formfactor (by simp [← hm, List.lookup_append])
  have hparameters := Parameter.restores.list.orElse m "parameters" [] p.parameters
    (by simp [← hm, List.lookup_append])
  have hrequirements := Requirements.restores.maybe m "defaultModelRequirements" p.requirements
    (by simp [← hm, List.lookup_append])
  have htasks := Task.restores.list.orElse m "tasks" [] p.tasks (by simp [← hm, List.lookup_append])
  have hknowledgeSources := KnowledgeSource.restores.list.orElse m "knowledgeSources" [] p.knowledgeSources
    (by simp [← hm, List.lookup_append])
  have hknowledgePieces := KnowledgePiece.restores.list.orElse m "knowledgePieces" [] p.knowledgePieces
    (by simp [← hm, List.lookup_append])
  have hpersonas := Persona.restores.list.orElse m "personas" [] p.personas (by simp [← hm, List.lookup_append])
  have hpreparations := Preparation.restores.list.orElse m "preparations" [] p.preparations
    (by simp [← hm, List.lookup_append])
  have hsources := Source.restores.list.orElse m "sources" [] p.sources (by simp [← hm, List.lookup_append])
  rw [hobj, ofJson?, record?_obj_bind, bind_of_eq htitle, bind_of_eq hurl, bind_of_eq hbookVersion,
    bind_of_eq hdescription, bind_of_eq hformfactor, bind_of_eq hparameters, bind_of_eq hrequirements, bind_of_eq htasks,
    bind_of_eq hknowledgeSources, bind_of_eq hknowledgePieces, bind_of_eq hpersonas, bind_of_eq hpreparations,
    bind_of_eq hsources]
  simp [numeric]

end Pipeline

namespace Json.Scalars

/-- What is written as a record, a text, a truth value or a word of this range is understood as such. -/
structure Faithful (scalars : Scalars) (P : UInt64 → Prop) : Prop where
  record : ∀ fields m, scalars.record fields (.obj m) = some m
  text : ∀ s, scalars.text (.str s) = some s
  flag : ∀ b, scalars.flag (.bool b) = some b
  word : ∀ n, P n → scalars.word (.ofUInt64 n) = some n

theorem Faithful.of_eq {scalars : Scalars} (h : scalars.word = uint64?)
    (hrecord : ∀ fields m, scalars.record fields (.obj m) = some m) (htext : ∀ s, scalars.text (.str s) = some s)
    (hflag : ∀ b, scalars.flag (.bool b) = some b) : scalars.Faithful fun _ => True :=
  ⟨hrecord, htext, hflag, fun n _ => by rw [h, uint64?_ofUInt64]⟩

theorem strict_faithful : strict.Faithful fun _ => True := .of_eq rfl (fun _ _ => rfl) (fun _ => rfl) fun _ => rfl

end Json.Scalars

namespace Options

theorem read_toJson {scalars : Scalars} {P : UInt64 → Prop} (h : scalars.Faithful P) {o : Options}
    (hidentifiers : P o.maxIdentifiers) (hnesting : P o.maxNesting) : read scalars o.toJson = some o := by
  simp [read, toJson, Json.orElse, h.record, h.flag, h.word _ hidentifiers, h.word _ hnesting]

theorem ofJson?_toJson (o : Options) : ofJson? o.toJson = some o := read_toJson Scalars.strict_faithful trivial trivial

end Options

namespace Requirement

def IsFinite : Requirement → Prop
  | temperature t => t.isFinite = true
  | _ => True

theorem parts?_toJson (r : Requirement) : parts? r.toJson = some (r.key, r.valueJson) := by
  simp [toJson, parts?, required, commandName?, name?]

/-- A temperature that is no finite number is the only requirement that can not be read again. -/
theorem ofJson?_toJson (r : Requirement) : ofJson? r.toJson = some r ↔ r.IsFinite := by
  rw [ofJson?, parts?_toJson, Option.bind_eq_bind, Option.bind_some]
  cases r with
  | variant v => simp [key, valueJson, IsFinite, ModelVariant.ofCommand?_toJson]
  | name n => simp [key, valueJson, IsFinite, string?]
  | temperature t => simp [key, valueJson, IsFinite, real?_ofReal]
  | maxTokens n => simp [key, valueJson, IsFinite, uint32?_ofUInt32]
  | seed n => simp [key, valueJson, IsFinite, uint64?_ofUInt64]

end Requirement

theorem Declaration.ofMembers?_members (d : Declaration) (m : Members)
    (hm : ∀ key, key ≠ "type" → m.lookup key = d.members.lookup key) :
    ofMembers? m = some d := by
  have hname := restores_str.required m "parameterName" d.name (by simp [hm, members])
  have hdescription := maybe_ofOption m "parameterDescription" d.description (by simp [hm, members])
  have hisInput := restores_bool.required m "isInput" d.isInput (by simp [hm, members])
  have hisOutput := restores_bool.required m "isOutput" d.isOutput (by simp [hm, members])
  simp [ofMembers?, hname, hdescription, hisInput, hisOutput]

namespace Command

def IsFinite : Command → Prop
  | model requirement => requirement.IsFinite
  | _ => True

theorem parts?_toJson (c : Command) :
    parts? c.toJson = some (c.kind, ("type", .str c.kind.typeName) :: c.members) := by
  simp [toJson, parts?, required, CommandKind.ofJson?_typeName]

theorem ofMembers?_members (c : Command) (m : Members)
    (hm : ∀ key, key ≠ "type" → m.lookup key = c.members.lookup key) :
    ofMembers? c.kind m = some c ↔ c.IsFinite := by
  cases c with
  | bookVersion version =>
      have h := restores_str.required m "bookVersion" version (by simp [hm, members])
      simp [kind, ofMembers?, IsFinite, h]
  | url address =>
      have h := restores_str.required m "pipelineUrl" address (by simp [hm, members])
      simp [kind, ofMembers?, IsFinite, h]
  | parameter declaration => simp [kind, ofMembers?, IsFinite, declaration.ofMembers?_members m hm]
  | persona name description =>
      have hname := restores_str.required m "personaName" name (by simp [hm, members])
      have hdescription := maybe_ofOption m "personaDescription" description (by simp [hm, members])
      simp [kind, ofMembers?, IsFinite, hname, hdescription]
  | knowledge content =>
      have h := restores_str.required m "knowledgeSourceContent" content (by simp [hm, members])
      simp [kind, ofMembers?, IsFinite, h]
  | formfactor name =>
      have h := restores_str.required m "formfactorName" name (by simp [hm, members])
      simp [kind, ofMembers?, IsFinite, h]
  | sectionType type =>
      have h := SectionType.restores.required m "sectionType" type (by simp [hm, members])
      simp [kind, ofMembers?, IsFinite, h]
  | model requirement =>
      have h : m.lookup "requirement" = some requirement.toJson := by simp [hm, members]
      simp [kind, ofMembers?, IsFinite, required, h, requirement.ofJson?_toJson]
  | expectAmount sign unit amount =>
      have hsign := ExpectSign.restores.required m "sign" sign (by simp [hm, members])
      have hunit := ExpectUnit.restores.required m "unit" unit (by simp [hm, members])
      have hamount := restores_ofUInt32.required m "amount" amount (by simp [hm, members])
      simp [kind, ofMembers?, IsFinite, hsign, hunit, hamount]
  | expectFormat format =>
      have h := ResultFormat.restores_command.required m "format" format (by simp [hm, members])
      simp [kind, ofMembers?, IsFinite, h]
  | joker name =>
      have h := restores_str.required m "parameterName" name (by simp [hm, members])
      simp [kind, ofMembers?, IsFinite, h]
  | postprocess function =>
      have h := restores_str.required m "functionName" function (by simp [hm, members])
      simp [kind, ofMembers?, IsFinite, h]
  | foreach loop => simp [kind, ofMembers?, IsFinite, loop.ofJson?_obj m hm]
  | action => simp [kind, ofMembers?, IsFinite]
  | instrument => simp [kind, ofMembers?, IsFinite]

theorem ofJson?_toJson (c : Command) : ofJson? c.toJson = some c ↔ c.IsFinite := by
  rw [ofJson?, parts?_toJson, Option.bind_some]
  exact c.ofMembers?_members _ fun key hkey => by simp [hkey]

end Command

section IsFinite

def Requirements.IsFinite (r : Requirements) : Prop := ∀ t ∈ r.temperature, t.isFinite = true

def Task.IsFinite (t : Task) : Prop := ∀ r ∈ t.requirements, r.IsFinite

/-- No temperature of a pipeline, its own or of one of its tasks, is infinite or no number. -/
def Pipeline.IsFinite (p : Pipeline) : Prop := (∀ r ∈ p.requirements, r.IsFinite) ∧ ∀ t ∈ p.tasks, t.IsFinite

theorem Requirements.numeric_eq_self (r : Requirements) : r.numeric = r ↔ r.IsFinite := by
  obtain ⟨variant, name, temperature, maxTokens, seed⟩ := r
  cases temperature <;> simp [numeric, IsFinite]

theorem map_numeric_eq_self (o : Option Requirements) :
    o.map Requirements.numeric = o ↔ ∀ r ∈ o, r.IsFinite := by
  cases o <;> simp [Requirements.numeric_eq_self]

theorem Task.numeric_eq_self (t : Task) : t.numeric = t ↔ t.IsFinite := by
  rw [IsFinite, ← map_numeric_eq_self]
  cases t
  simp [numeric]

theorem Pipeline.numeric_eq_self (p : Pipeline) : p.numeric = p ↔ p.IsFinite := by
  have htasks : p.tasks.map Task.numeric = p.tasks ↔ ∀ t ∈ p.tasks, t.IsFinite := by
    conv_lhs => rhs; rw [← List.map_id p.tasks]
    simp only [List.map_inj_left, id_eq, Task.numeric_eq_self]
  rw [IsFinite, ← map_numeric_eq_self, ← htasks]
  cases p
  simp [numeric]

end IsFinite

/-- Reading what was written gives the value back, over the whole wire format: parameters and options without
exception, and the rest exactly when no temperature in it is infinite or no number, which is written as null. -/
theorem readBack :
    (∀ p : Pipeline, Pipeline.ofJson? p.toJson = some p ↔ p.IsFinite) ∧
    (∀ t : Task, Task.ofJson? t.toJson = some t ↔ t.IsFinite) ∧
    (∀ q : Parameter, Parameter.ofJson? q.toJson = some q) ∧
    (∀ r : Requirements, Requirements.ofJson? r.toJson = some r ↔ r.IsFinite) ∧
    (∀ o : Options, Options.ofJson? o.toJson = some o) ∧
    (∀ c : Command, Command.ofJson? c.toJson = some c ↔ c.IsFinite) := by
  refine ⟨fun p => ?_, fun t => ?_, Parameter.restores.read, fun r => ?_, Options.ofJson?_toJson,
    Command.ofJson?_toJson⟩
  · rw [Pipeline.restores.read, Option.some_inj, Pipeline.numeric_eq_self]
  · rw [Task.restores.read, Option.some_inj, Task.numeric_eq_self]
  · rw [Requirements.restores.read, Option.some_inj, Requirements.numeric_eq_self]

end BookCompiler
