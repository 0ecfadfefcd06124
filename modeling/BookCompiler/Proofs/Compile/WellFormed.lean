import BookCompiler.Proofs.Compile.Finish

namespace BookCompiler

open Text

structure Task.WellFormed (personas : List Persona) (t : Task) : Prop where
  name : t.name = Name.ofTitle t.title
  script : t.type = .script →
    (t.language = some "javascript" ∨ t.language = some "typescript" ∨ t.language = some "python") ∧
      t.result.isSome = true
  other : t.type ≠ .script → t.language = none
  content : t.type ≠ .dialog → ∃ c ∈ t.content.toList, isBlank c = false
  bounded : ∀ unit b, t.expectations.get unit = some b → b.min.isSome = true ∨ b.max.isSome = true
  ordered : ∀ unit b, t.expectations.get unit = some b → ∀ min ∈ b.min, ∀ max ∈ b.max, min ≤ max
  jokers : t.jokers.Nodup
  requirements : ∀ r ∈ t.requirements, r.isEmpty = false
  foreach : ∀ loop ∈ t.foreach, (∃ format ∈ ForeachFormat.all, format.name = loop.format ∧ loop.subformat ∈ format.parts) ∧
    loop.inputs ≠ []
  persona : ∀ name ∈ t.persona, ∃ q ∈ personas, q.name = name

/-- What a user of a compiled pipeline can rely on. -/
structure Pipeline.WellFormed (p : Pipeline) : Prop where
  tasks : ∀ t ∈ p.tasks, t.WellFormed p.personas
  personas : (p.personas.map Persona.name).Nodup
  knowledge : (p.knowledgeSources.map KnowledgeSource.content).Nodup
  knowledge_named : ∀ k ∈ p.knowledgeSources, k.name = KnowledgeSource.nameOf k.content
  requirements : ∀ r ∈ p.requirements, r.isEmpty = false

theorem Task.Made.wellFormed {t : Task} {personas : List Persona} (h : t.Made)
    (hpersona : ∀ name ∈ t.persona, name ∈ personas.map Persona.name) : t.WellFormed personas := by
  constructor
  · exact h.name
  · intro hscript
    refine ⟨?_, h.rebuildable.result hscript⟩
    rcases h.language with ⟨-, l, hl⟩ | ⟨hother, -⟩
    · rw [hl]
      cases l <;> simp [Script.Language.name]
    · exact absurd hscript hother
  · intro hother
    rcases h.language with ⟨hscript, -⟩ | ⟨-, hnone⟩
    · exact absurd hscript hother
    · exact hnone
  · intro hdialog
    have hcontent := h.rebuildable.content hdialog
    rw [h.content.trim_eq] at hcontent
    obtain ⟨c, s, hcs⟩ := List.exists_cons_of_ne_nil (by simpa using hcontent : t.content.toList ≠ [])
    exact ⟨c, by simp [hcs], h.content.1 c (by simp [hcs])⟩
  · exact fun unit b hb => (h.rebuildable.expectations unit b hb).bounded
  · exact fun unit b hb => b.crossed_eq_none_iff.mp (h.rebuildable.expectations unit b hb).ordered
  · exact h.rebuildable.jokers
  · exact h.rebuildable.requirements
  · intro loop hloop
    have hc : Command.foreach loop ∈ t.commands := by
      rw [Task.commands_eq, hloop]
      simp
    have hloop : loop.WellFormed := h.commands _ hc
    exact ⟨hloop.format, hloop.inputs_ne_nil⟩
  · intro name hname
    exact List.mem_map.mp (hpersona name hname)

/-- Whatever the book and the options, all tasks of a compiled pipeline and what they refer to are well formed. -/
theorem compile_wellFormed (options : Options) (source : String) (p : Pipeline)
    (h : (compile options source).result = .ok p) : p.WellFormed := by
  obtain ⟨book, hread, hok, rfl, -⟩ := compile_ok h
  have hmade := Book.assemble_made hread hok
  have hhead := (book.assemble options.limits).draft.sameHead_finish options
  constructor
  · intro t ht
    obtain ⟨hmade, hpersona⟩ := hmade.finish_tasks options t ht
    rw [hhead.personas]
    exact hmade.wellFormed hpersona
  · rw [hhead.personas]
    exact hmade.personas_distinct
  · rw [hhead.knowledgeSources]
    exact hmade.knowledge_distinct
  · rw [hhead.knowledgeSources]
    exact fun k hk => (hmade.knowledge k hk).name
  · rw [hhead.requirements]
    exact fun r hr => (hmade.requirements r hr).nonempty

def jokerBook : String :=
  "# T\n- PERSONA P\n## A\n- PERSONA P\n- SCRIPT\n- EXPECT MIN 2 WORDS\n- JOKER \x7bj\x7d\n```js\ny\n```\n-> \x7bz\x7d"

theorem compile_wellFormed_jokerBook : ∃ p, (compile {} jokerBook).result = .ok p ∧ p.WellFormed := by
  obtain ⟨p, hp⟩ := exists_of_isOk (r := (compile {} jokerBook).result) (by decide +kernel)
  exact ⟨p, hp, compile_wellFormed {} jokerBook p hp⟩

end BookCompiler
