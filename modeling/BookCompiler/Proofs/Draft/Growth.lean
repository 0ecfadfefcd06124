import BookCompiler.Draft.Task
import BookCompiler.Proofs.Draft.Slots

namespace BookCompiler

/-- What is set stays set, to a value that the old one has grown into. -/
def Kept {α : Type} (R : α → α → Prop) (old new : Option α) : Prop := ∀ a ∈ old, ∃ b ∈ new, R a b

/-- The items of a list stay in their places, where they may grow, and more items may follow them. -/
inductive Lengthened {α : Type} (R : α → α → Prop) : List α → List α → Prop
  | nil (more : List α) : Lengthened R [] more
  | cons {a b : α} {old new : List α} (hab : R a b) (h : Lengthened R old new) : Lengthened R (a :: old) (b :: new)

section Growth

variable {α : Type} {R : α → α → Prop}

theorem kept_none (new : Option α) : Kept R none new := fun _ h => by cases h

theorem kept_some {a b : α} (h : R a b) : Kept R (some a) (some b) := by
  rintro _ ⟨⟩
  exact ⟨b, rfl, h⟩

theorem Kept.refl (hrefl : ∀ a, R a a) (o : Option α) : Kept R o o := fun a ha => ⟨a, ha, hrefl a⟩

theorem Kept.rfl {o : Option α} : Kept (· = ·) o o := .refl (fun _ => Eq.refl _) o

theorem Kept.trans {x y z : Option α} (h : Kept R x y) (h' : Kept R y z) (htrans : ∀ a b c, R a b → R b c → R a c) :
    Kept R x z := by
  intro a ha
  obtain ⟨b, hb, hab⟩ := h a ha
  obtain ⟨c, hc, hbc⟩ := h' b hb
  exact ⟨c, hc, htrans a b c hab hbc⟩

theorem Kept.eq_trans {x y z : Option α} (h : Kept (· = ·) x y) (h' : Kept (· = ·) y z) : Kept (· = ·) x z :=
  h.trans h' fun _ _ _ => Eq.trans

namespace Lengthened

theorem refl (hrefl : ∀ a, R a a) (l : List α) : Lengthened R l l := by
  induction l with
  | nil => exact .nil []
  | cons a l ih => exact .cons (hrefl a) ih

theorem trans {l m n : List α} (h : Lengthened R l m) (h' : Lengthened R m n)
    (htrans : ∀ a b c, R a b → R b c → R a c) : Lengthened R l n := by
  induction h generalizing n with
  | nil more => exact .nil n
  | cons hab _ ih =>
      cases h' with
      | cons hbc hrest => exact .cons (htrans _ _ _ hab hbc) (ih hrest)

theorem append (hrefl : ∀ a, R a a) (l more : List α) : Lengthened R l (l ++ more) := by
  induction l with
  | nil => exact .nil more
  | cons a l ih => exact .cons (hrefl a) ih

theorem replaceFirst (hrefl : ∀ a, R a a) {p : α → Bool} {new : α} {l : List α}
    (h : ∀ a, l.find? p = some a → R a new) : Lengthened R l (replaceFirst p new l) := by
  induction l with
  | nil => exact .nil []
  | cons a l ih =>
      rw [BookCompiler.replaceFirst]
      by_cases ha : p a = true
      · rw [if_pos ha]
        exact .cons (h a (List.find?_cons_of_pos ha)) (refl hrefl l)
      · rw [if_neg ha]
        exact .cons (hrefl a) (ih fun b hb => h b ((List.find?_cons_of_neg ha).trans hb))

theorem map_isPrefix {β : Type} {f : α → β} (hf : ∀ a b, R a b → f b = f a) {old new : List α}
    (h : Lengthened R old new) : old.map f <+: new.map f := by
  induction h with
  | nil more => exact List.nil_prefix
  | cons hab _ ih =>
      rw [List.map_cons, List.map_cons, hf _ _ hab]
      exact List.cons_prefix_cons.mpr ⟨rfl, ih⟩

end Lengthened

theorem agree_kept [DecidableEq α] {first second merged : Option α} (h : agree first second = some merged) :
    Kept (· = ·) first merged :=
  fun a ha => ⟨a, ((agree_eq_some_iff first second merged).mp h a).mpr (Or.inl ha), Eq.refl a⟩

end Growth

structure ParameterDraft.Grows (p q : ParameterDraft) : Prop where
  name : q.name = p.name
  description : Kept (· = ·) p.description q.description
  role : Kept (· = ·) p.role q.role
  examples : p.examples <+: q.examples

namespace ParameterDraft

theorem Grows.refl (p : ParameterDraft) : p.Grows p := ⟨rfl, .rfl, .rfl, List.prefix_rfl⟩

theorem Grows.trans (p q r : ParameterDraft) (h : p.Grows q) (h' : q.Grows r) : p.Grows r :=
  ⟨h'.name.trans h.name, h.description.eq_trans h'.description, h.role.eq_trans h'.role,
    h.examples.trans h'.examples⟩

theorem merge_grows (p q : ParameterDraft) : p.Grows (p.merge q).draft := by
  rw [merge]
  split
  · exact .refl p
  · rename_i description hdescription
    have hagree := agree_of_mergeDescription hdescription
    split
    · exact ⟨rfl, agree_kept hagree, .rfl, List.prefix_rfl⟩
    · rename_i role hrole
      rw [mergeRole_eq_agree] at hrole
      exact ⟨rfl, agree_kept hagree, agree_kept hrole, List.prefix_append _ _⟩

end ParameterDraft

def Text.IsStart (text later : String) : Prop := text.toList <+: later.toList

structure Persona.Grows (p q : Persona) : Prop where
  name : q.name = p.name
  description : Kept Text.IsStart p.description q.description

theorem Persona.Grows.refl (p : Persona) : p.Grows p := ⟨rfl, .refl (fun text => List.prefix_refl text.toList) _⟩

theorem Persona.Grows.trans (p q r : Persona) (h : p.Grows q) (h' : q.Grows r) : p.Grows r :=
  ⟨h'.name.trans h.name, h.description.trans h'.description fun _ _ _ => List.IsPrefix.trans⟩

structure Requirements.Grows (r s : Requirements) : Prop where
  variant : Kept (· = ·) r.variant s.variant
  name : Kept (· = ·) r.name s.name
  temperature : Kept (· = ·) r.temperature s.temperature
  maxTokens : Kept (· = ·) r.maxTokens s.maxTokens
  seed : Kept (· = ·) r.seed s.seed

theorem Requirements.Grows.refl (r : Requirements) : r.Grows r := ⟨.rfl, .rfl, .rfl, .rfl, .rfl⟩

theorem Requirements.Grows.trans (r s t : Requirements) (h : r.Grows s) (h' : s.Grows t) : r.Grows t :=
  ⟨h.variant.eq_trans h'.variant, h.name.eq_trans h'.name, h.temperature.eq_trans h'.temperature,
    h.maxTokens.eq_trans h'.maxTokens, h.seed.eq_trans h'.seed⟩

/-- How the draft of a pipeline may change while commands are applied to it. -/
structure PipelineDraft.Grows (d e : PipelineDraft) : Prop where
  title : e.title = d.title
  description : e.description = d.description
  tasks : e.tasks = d.tasks
  sources : e.sources = d.sources
  url : Kept (· = ·) d.url e.url
  bookVersion : Kept (· = ·) d.bookVersion e.bookVersion
  formfactor : Kept (· = ·) d.formfactor e.formfactor
  requirements : Kept Requirements.Grows d.requirements e.requirements
  parameters : Lengthened ParameterDraft.Grows d.parameters e.parameters
  personas : Lengthened Persona.Grows d.personas e.personas
  knowledgeSources : d.knowledgeSources <+: e.knowledgeSources

namespace PipelineDraft

theorem Grows.refl (d : PipelineDraft) : d.Grows d :=
  ⟨rfl, rfl, rfl, rfl, .rfl, .rfl, .rfl, .refl Requirements.Grows.refl _, .refl ParameterDraft.Grows.refl _,
    .refl Persona.Grows.refl _, List.prefix_rfl⟩

theorem Grows.trans {d e f : PipelineDraft} (h : d.Grows e) (h' : e.Grows f) : d.Grows f :=
  ⟨h'.title.trans h.title, h'.description.trans h.description, h'.tasks.trans h.tasks, h'.sources.trans h.sources,
    h.url.eq_trans h'.url, h.bookVersion.eq_trans h'.bookVersion, h.formfactor.eq_trans h'.formfactor,
    h.requirements.trans h'.requirements Requirements.Grows.trans,
    h.parameters.trans h'.parameters ParameterDraft.Grows.trans, h.personas.trans h'.personas Persona.Grows.trans,
    h.knowledgeSources.trans h'.knowledgeSources⟩

variable {d : PipelineDraft}

theorem Grows.names {e : PipelineDraft} (h : d.Grows e) : d.names <+: e.names :=
  h.parameters.map_isPrefix fun _ _ h => h.name

theorem setParameter_grows {p q : ParameterDraft} {name : String} (hp : d.parameter? name = some p) (h : p.Grows q) :
    d.Grows (d.setParameter q) := by
  have hname : q.name = name := h.name.trans (parameter?_eq_some hp).2
  have hparameters : Lengthened ParameterDraft.Grows d.parameters (d.setParameter q).parameters := by
    refine .replaceFirst ParameterDraft.Grows.refl fun r hr => ?_
    rw [hname] at hr
    rw [parameter?, hr, Option.some.injEq] at hp
    rwa [hp]
  exact { Grows.refl d with parameters := hparameters }

theorem defineParameter_grows (d : PipelineDraft) (q : ParameterDraft) : d.Grows (d.defineParameter q).draft := by
  rw [defineParameter]
  split
  · exact .refl d
  · split
    · exact { Grows.refl d with parameters := .append ParameterDraft.Grows.refl _ _ }
    · rename_i p hp
      exact setParameter_grows hp (p.merge_grows q)

theorem setPersona_grows {p q : Persona} {name : String} (hp : (d.personas.find? fun r => r.name == name) = some p)
    (h : p.Grows q) : d.Grows (d.setPersona q) := by
  have hname : q.name = name := h.name.trans (by simpa using List.find?_some hp)
  have hpersonas : Lengthened Persona.Grows d.personas (d.setPersona q).personas := by
    refine .replaceFirst Persona.Grows.refl fun r hr => ?_
    rw [hname, hp, Option.some.injEq] at hr
    rwa [← hr]
  exact { Grows.refl d with personas := hpersonas }

theorem registerPersona_grows {ε : Type} (d : PipelineDraft) (name : String) (description : Option String) :
    d.Grows (d.registerPersona name description : Attempt ε PipelineDraft).draft := by
  rw [registerPersona]
  split
  · exact { Grows.refl d with personas := .append Persona.Grows.refl _ _ }
  · rename_i p hp
    have hname : p.name = name := by simpa using List.find?_some hp
    split
    · exact .refl d
    · rename_i new hnone
      exact setPersona_grows hp ⟨hname.symm, hnone ▸ kept_none _⟩
    · rename_i new current hcurrent
      split
      · exact .refl d
      · have hbelow : Text.IsStart current (current ++ "\n\n" ++ new) := by
          rw [Text.IsStart, String.toList_append, String.toList_append, List.append_assoc]
          exact List.prefix_append _ _
        exact setPersona_grows hp ⟨hname.symm, hcurrent ▸ kept_some hbelow⟩

end PipelineDraft

structure Bounds.Grows (b c : Bounds) : Prop where
  min : Kept (· = ·) b.min c.min
  max : Kept (· = ·) b.max c.max

theorem Bounds.Grows.refl (b : Bounds) : b.Grows b := ⟨.rfl, .rfl⟩

theorem Bounds.Grows.trans (a b c : Bounds) (h : a.Grows b) (h' : b.Grows c) : a.Grows c :=
  ⟨h.min.eq_trans h'.min, h.max.eq_trans h'.max⟩

structure TaskDraft.Grows (d e : TaskDraft) : Prop where
  name : e.name = d.name
  title : e.title = d.title
  description : e.description = d.description
  content : e.content = d.content
  language : e.language = d.language
  result : e.result = d.result
  sectionType : Kept (· = ·) d.sectionType e.sectionType
  persona : Kept (· = ·) d.persona e.persona
  requirements : Kept Requirements.Grows d.requirements e.requirements
  expectations : ∀ unit, Kept Bounds.Grows (d.expectations.get unit) (e.expectations.get unit)
  format : Kept (· = ·) d.format e.format
  jokers : d.jokers <+: e.jokers
  postprocessing : d.postprocessing <+: e.postprocessing
  foreach : Kept (· = ·) d.foreach e.foreach

namespace TaskDraft

theorem Grows.refl (d : TaskDraft) : d.Grows d :=
  ⟨rfl, rfl, rfl, rfl, rfl, rfl, .rfl, .rfl, .refl Requirements.Grows.refl _, fun _ => .refl Bounds.Grows.refl _, .rfl,
    List.prefix_rfl, List.prefix_rfl, .rfl⟩

theorem Grows.trans {d e f : TaskDraft} (h : d.Grows e) (h' : e.Grows f) : d.Grows f :=
  ⟨h'.name.trans h.name, h'.title.trans h.title, h'.description.trans h.description, h'.content.trans h.content,
    h'.language.trans h.language, h'.result.trans h.result, h.sectionType.eq_trans h'.sectionType,
    h.persona.eq_trans h'.persona, h.requirements.trans h'.requirements Requirements.Grows.trans,
    fun unit => (h.expectations unit).trans (h'.expectations unit) Bounds.Grows.trans,
    h.format.eq_trans h'.format, h.jokers.trans h'.jokers, h.postprocessing.trans h'.postprocessing,
    h.foreach.eq_trans h'.foreach⟩

end TaskDraft

end BookCompiler
