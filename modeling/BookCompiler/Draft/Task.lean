import BookCompiler.Pipeline.Task

namespace BookCompiler

structure TaskDraft where
  name : String
  title : String
  description : Option String := none
  content : String := ""
  language : Option String := none
  result : Option String := none
  sectionType : Option SectionType := none
  persona : Option String := none
  requirements : Option Requirements := none
  expectations : Expectations := {}
  format : Option ResultFormat := none
  jokers : List String := []
  postprocessing : List String := []
  foreach : Option Foreach := none
  deriving Repr, DecidableEq

/-- The finished task; a section that is not a task has none. The dependencies are found later, in
the finished task. -/
def TaskDraft.build (d : TaskDraft) : Option Task := do
  let type ← (← d.sectionType).taskType
  some
    { name := d.name, title := d.title, description := d.description, type
      content := d.content, language := d.language, result := d.result, jokers := d.jokers
      postprocessing := d.postprocessing, expectations := d.expectations, format := d.format
      foreach := d.foreach, persona := d.persona
      requirements := d.requirements.filter (!·.isEmpty) }

end BookCompiler
