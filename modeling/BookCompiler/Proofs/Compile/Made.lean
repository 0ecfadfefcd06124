import BookCompiler.Proofs.Command.Reapply
import BookCompiler.Proofs.Command.Sound

namespace BookCompiler

open Text

theorem openingLine_of_noFeed {s : String} (h : '\n' ∉ s.toList) : openingLine s = s := by
  rw [openingLine, List.takeWhile_eq_self_iff.mpr, String.ofList_toList]
  intro x hx
  simp only [decide_eq_true_eq]
  rintro rfl
  exact h hx

structure IsPassage (text : String) : Prop where
  trimmed : Trimmed text.toList
  ne_nil : text.toList ≠ []

structure IsTitle (title : String) : Prop where
  trimmed : Trimmed title.toList
  line : '\n' ∉ title.toList

/-- What every task is like that comes out of a book. -/
structure Task.Made (t : Task) : Prop where
  title : IsTitle t.title
  name : t.name = Name.ofTitle t.title
  description : ∀ text ∈ t.description, IsPassage text
  content : Trimmed t.content.toList
  language : (t.type = .script ∧ ∃ l : Script.Language, t.language = some l.name) ∨
    t.type ≠ .script ∧ t.language = none
  result : ∀ name ∈ t.result, Name.Valid name
  prepared : t.prepared = none
  commands : ∀ c ∈ t.commands, c.WellFormed
  rebuildable : t.Rebuildable

def Command.Made : Command → Prop
  | parameter d => (∀ text ∈ d.description, IsPhrase text.toList ∧ '\x7b' ∉ text.toList ∧ '\x7d' ∉ text.toList) ∧
      ¬ (d.isInput = true ∧ d.isOutput = true)
  | persona name description => Persona.WellNamed name ∧
      ∀ text ∈ description, Trimmed text.toList ∧ IsPhrase (openingLine text).toList
  | knowledge _ => True
  | c => c.WellFormed

namespace Pipeline

/-- Where a parameter is intermediate, there is an output, and there is an input unless a task produces it. -/
def RolesSettled (p : Pipeline) : Prop :=
  ∀ q ∈ p.parameters, q.role = .intermediate →
    (∃ r ∈ p.parameters, r.role = .output) ∧
      ((∃ r ∈ p.parameters, r.role = .input) ∨ ∃ t ∈ p.tasks, t.result = some q.name)

/-- What every pipeline is like that a book compiles to. -/
structure Made (p : Pipeline) : Prop where
  title : IsTitle p.title
  description : ∀ text ∈ p.description, IsPassage text
  head : ∀ c ∈ p.headCommands, c.Made
  tasks : ∀ t ∈ p.tasks, t.Made
  knowledge : ∀ k ∈ p.knowledgeSources, Trimmed k.content.toList
  examples : ∀ q ∈ p.parameters, ∀ value ∈ q.examples, IsPassage value
  roles : p.RolesSettled
  bare : p.tasks = [] → p.parameters = [] → p.personas ≠ [] → p.formfactor ≠ some Formfactor.chatbot.name

end Pipeline

section Read

open Markdown

structure BookSection.Made (s : BookSection) : Prop where
  title : IsTitle s.title
  name : s.name = Name.ofTitle s.title
  description : ∀ text ∈ s.description, IsPassage text
  content : Trimmed s.content.toList

theorem isPassage_of_textOfLines? {ls : List (List Char)} {text : String} (h : textOfLines? ls = some text) :
    IsPassage text := by
  rw [textOfLines?] at h
  split at h
  · cases h
  · rename_i hne
    cases h
    exact ⟨by rw [String.toList_ofList]; exact trim_trimmed _, by rw [String.toList_ofList]; exact hne⟩

theorem isTitle_of_readSection {text : List Char} {s : Markdown.Section} (h : readSection text = .ok s) :
    IsTitle s.title := by
  have hheading : '\n' ∉ ((splitOnce (· = '\n') (trim text)).getD (trim text, [])).1 := by
    cases hsplit : splitOnce (· = '\n') (trim text) with
    | none => exact fun hmem => by simpa using splitOnce_eq_none_iff.mp hsplit '\n' hmem
    | some x => exact fun hmem => by simpa using (splitOnce_subset hsplit).2.2 '\n' hmem
  rw [readSection] at h
  generalize (splitOnce (· = '\n') (trim text)).getD (trim text, []) = x at h hheading
  obtain ⟨heading, content⟩ := x
  dsimp only at h
  split at h
  · cases h
  · cases h
    refine ⟨by rw [String.toList_ofList]; exact trim_trimmed _, fun hmem => hheading ?_⟩
    rw [String.toList_ofList] at hmem
    exact mem_trim (List.mem_of_mem_drop (mem_trim hmem))

theorem isPassage_of_prose {s : List Char} {text : String} (h : (Body.read s).prose = some text) : IsPassage text :=
  isPassage_of_textOfLines? h

theorem isPassage_of_description {s : List Char} {text : String} (h : (Body.read s).description = some text) :
    IsPassage text := by
  rw [Body.description] at h
  split at h
  · cases h
  · exact isPassage_of_prose h

theorem Body.content_trimmed {s : List Char} {content : String} {language : Option String}
    (h : (Body.read s).content = .ok (content, language)) : Trimmed content.toList := by
  rw [Body.content] at h
  split at h
  · rename_i text hquotation
    cases h
    exact (isPassage_of_textOfLines? hquotation).trimmed
  · cases h
    cases hprose : (Body.read s).prose with
    | none => exact ⟨by simp, by simp⟩
    | some text => exact (isPassage_of_prose hprose).trimmed
  · cases h
    rw [Text.trimmed, String.toList_ofList]
    exact trim_trimmed _
  · cases h

theorem Book.sectionOf_made {s : Markdown.Section} {b : BookSection} (hs : IsTitle s.title)
    (h : Book.sectionOf s = .ok b) : b.Made := by
  rw [Book.sectionOf] at h
  split at h
  · cases h
  · rename_i content language hcontent
    cases h
    constructor
    · exact hs
    · dsimp only
    · intro text htext
      dsimp only [Option.mem_def] at htext
      exact isPassage_of_description htext
    · exact Body.content_trimmed hcontent

theorem isTitle_of_sectionize {s : List Char} {sections : Sections} (h : sectionize s = .ok sections) :
    IsTitle sections.head.title ∧ ∀ t ∈ sections.rest, IsTitle t.title := by
  obtain ⟨ts, hread, h⟩ := bind_ok h
  have hts : ∀ t ∈ ts, IsTitle t.title := by
    intro t ht
    obtain ⟨x, -, hx⟩ := mem_of_mapM_ok hread t ht
    exact isTitle_of_readSection hx
  cases ts with
  | nil => cases h
  | cons t ts =>
      dsimp only at h
      split at h
      · cases h
      · split at h
        · cases h
        · cases h
          exact List.forall_mem_cons.mp hts

theorem Book.read_made {source : String} {book : Book} (h : Book.read source = .ok book) :
    IsTitle book.head.title ∧ (∀ text ∈ book.head.description, IsPassage text) ∧ ∀ s ∈ book.sections, s.Made := by
  obtain ⟨text, -, h⟩ := bind_ok h
  obtain ⟨sections, hsections, h⟩ := bind_ok h
  obtain ⟨rest, hmap, h⟩ := bind_ok h
  cases h
  obtain ⟨hhead, hrest⟩ := isTitle_of_sectionize hsections
  refine ⟨hhead, fun text htext => ?_, fun s hs => ?_⟩
  · dsimp only [Book.headOf, Option.mem_def] at htext
    exact isPassage_of_prose htext
  · obtain ⟨t, ht, hts⟩ := mem_of_mapM_ok hmap s hs
    exact Book.sectionOf_made (hrest t ht) hts

end Read

end BookCompiler
