import BookCompiler.Proofs.Compile.Restore

namespace BookCompiler

open Text Markdown

namespace Command

/-- What a name or a text has to be like to stand in a command line. -/
def FitsLine : Command → Prop
  | parameter declaration => Name.Valid declaration.name
  | knowledge content => (Command.knowledge content).WellFormed
  | _ => True

/-- A command whose written line says what the command says: its text is set apart from its name, and no line of it
is taken for anything else. -/
structure Legible (c : Command) : Prop where
  spelled : c.Spelled
  fits : c.FitsLine
  still : Still (openingLine c.write).toList
  plain : ∀ line ∈ (c.write.toList.splitOn '\n').tail, PlainLine line

variable {c : Command}

theorem Legible.opening_wellFormed (h : c.Legible) (hmade : c.Made) : c.opening.WellFormed := by
  cases c with
  | parameter d => exact ⟨h.fits, hmade.1, hmade.2⟩
  | persona name description =>
      refine ⟨hmade.1, fun text htext => ?_⟩
      obtain ⟨full, hfull, rfl⟩ := Option.map_eq_some_iff.mp htext
      exact (hmade.2 full hfull).2
  | knowledge content => exact h.fits
  | _ => exact hmade

theorem kind_opening (c : Command) : c.opening.kind = c.kind := by
  cases c <;> rfl

theorem Legible.opening_spelled (h : c.Legible) : c.opening.Spelled := by
  cases c <;> exact h.spelled

theorem Legible.readsBack (h : c.Legible) (hmade : c.Made) {place : Place} (hplace : c.kind.usableIn place = true) :
    Registry.ReadsBack place c.opening.write c.opening :=
  Registry.read_write (h.opening_wellFormed hmade) h.opening_spelled (by rwa [kind_opening])

theorem write_eq_append (c : Command) :
    (∃ a d, c.write.toList = a ++ d ∧ c.opening.write.toList = a ++ d.takeWhile (· ≠ '\n') ∧
      (c.Made → Trimmed d ∧ d.takeWhile (· ≠ '\n') ≠ [])) ∨ c.opening = c := by
  cases c with
  | persona name description =>
      cases description with
      | none => exact Or.inr rfl
      | some text =>
          refine Or.inl ⟨("PERSONA " ++ name ++ ", ").toList, text.toList, ?_, ?_, fun hmade => ?_⟩
          · rw [write, String.toList_append]
          · rw [opening, Option.map_some, write, String.toList_append, openingLine, String.toList_ofList]
          · obtain ⟨htrimmed, hphrase⟩ := hmade.2 text rfl
            rw [openingLine, String.toList_ofList] at hphrase
            exact ⟨htrimmed, hphrase.ne_nil⟩
  | _ => exact Or.inr rfl

theorem first_ofText_write (hphrase : IsPhrase c.opening.write.toList) :
    (Item.ofText c.write.toList).first = c.opening.write.toList := by
  rw [Item.first_ofText]
  rcases c.write_eq_append with ⟨a, d, hwrite, hopening, -⟩ | hopening
  · have hfeed : ∀ x ∈ a, decide (x ≠ '\n') = true := by
      intro x hx
      simp only [decide_eq_true_eq]
      rintro rfl
      exact hphrase.noFeed (hopening ▸ List.mem_append_left _ hx)
    rw [hwrite, hopening, List.takeWhile_append_of_pos hfeed]
  · rw [hopening] at hphrase ⊢
    have hline := congrArg String.toList (openingLine_of_noFeed hphrase.noFeed)
    rwa [openingLine, String.toList_ofList] at hline

theorem trimmed_write (hmade : c.Made) (hphrase : IsPhrase c.opening.write.toList) : Trimmed c.write.toList := by
  rcases c.write_eq_append with ⟨a, d, hwrite, hopening, htext⟩ | hopening
  · obtain ⟨htrimmed, hne⟩ := htext hmade
    have hd : d ≠ [] := by
      rintro rfl
      exact hne rfl
    rw [hwrite]
    constructor
    · intro x hx
      by_cases ha : a = []
      · subst ha
        exact htrimmed.1 x hx
      · rw [List.head?_append_of_ne_nil _ ha] at hx
        exact hphrase.trimmed.1 x (by rwa [hopening, List.head?_append_of_ne_nil _ ha])
    · intro x hx
      rw [List.getLast?_append_of_ne_nil _ hd] at hx
      exact htrimmed.2 x hx
  · rw [hopening] at hphrase
    exact hphrase.trimmed

theorem Legible.item_sound (h : c.Legible) (hmade : c.Made) {place : Place} (hplace : c.kind.usableIn place = true) :
    (Item.ofText c.write.toList).Sound := by
  have hphrase := (h.readsBack hmade hplace).isPhrase
  have hfirst := first_ofText_write hphrase
  constructor
  · rw [hfirst]
    exact hphrase.trimmed
  · rw [hfirst]
    exact hphrase.ne_nil
  · rw [hfirst]
    exact hphrase.noFeed
  · have hstill := h.still
    rwa [openingLine, String.toList_ofList, ← Item.first_ofText] at hstill
  · rw [Item.more_ofText]
    exact h.plain
  · rw [Item.text_ofText]
    exact trimmed_write hmade hphrase

end Command

/-- A task that is written so that it can be read again. -/
structure Task.Legible (t : Task) : Prop where
  title : Still t.title.toList
  description : ∀ text ∈ t.description, ∀ line ∈ text.toList.splitOn '\n', PlainLine line
  content : Boxable t.content.toList
  commands : ∀ c ∈ t.commands, c.Legible

theorem isInfo_language (l : Option Script.Language) :
    IsInfo ((l.map Script.Language.name).getD "").toList ∧
      blockLanguage .ticks (tickChars ++ ((l.map Script.Language.name).getD "").toList) =
        l.map Script.Language.name := by
  rcases l with _ | l
  · decide
  · cases l <;> decide

namespace Task

variable {t : Task}

theorem Made.language_eq (h : t.Made) : ∃ l : Option Script.Language, t.language = l.map Script.Language.name := by
  rcases h.language with ⟨-, l, hl⟩ | ⟨-, hnone⟩
  · exact ⟨some l, hl⟩
  · exact ⟨none, hnone⟩

theorem Made.commandLine (h : t.Made) (hlegible : t.Legible) {line : String} (hline : line ∈ t.sheet.commandLines) :
    IsPhrase line.toList ∧ Still line.toList := by
  have hmem : line ∈ t.commands.map Command.write := t.commandLines_eq ▸ hline
  obtain ⟨c, hc, rfl⟩ := List.mem_map.mp hmem
  have hread := Registry.read_write (h.commands c hc) (hlegible.commands c hc).spelled (usableIn_of_mem_commands hc)
  have hstill := (hlegible.commands c hc).still
  rw [openingLine_of_noFeed hread.isPhrase.noFeed] at hstill
  exact ⟨hread.isPhrase, hstill⟩

theorem Made.sheet_sound (h : t.Made) (hlegible : t.Legible) : t.sheet.Sound := by
  obtain ⟨l, hl⟩ := h.language_eq
  have hinfo : t.sheet.info = ((l.map Script.Language.name).getD "").toList := by
    rw [Sheet.info, h.sheet_language, hl]
  constructor
  · exact h.title.trimmed
  · exact h.title.line
  · exact hlegible.title
  · change t.commandLines ≠ []
    rw [commandLines_eq, commands_eq]
    simp
  · exact fun line hline => (h.commandLine hlegible hline).1
  · exact fun line hline => (h.commandLine hlegible hline).2
  · exact fun text htext =>
      ⟨(h.description text htext).trimmed, (h.description text htext).ne_nil, hlegible.description text htext⟩
  · rw [hinfo]
    exact (isInfo_language l).1
  · rw [hinfo, h.sheet_language, hl]
    exact (isInfo_language l).2
  · exact hlegible.content
  · exact h.content
  · exact h.result

end Task

theorem sound_of_line {title line content : String} {result : Option String}
    (htitle : Trimmed title.toList ∧ '\n' ∉ title.toList ∧ Still title.toList)
    (hline : IsPhrase line.toList ∧ Still line.toList) (htrimmed : Trimmed content.toList)
    (hcontent : Boxable content.toList) (hresult : ∀ name ∈ result, Name.Valid name) :
    Sheet.Sound { title, commandLines := [line], content, result } := by
  constructor
  · exact htitle.1
  · exact htitle.2.1
  · exact htitle.2.2
  · exact List.cons_ne_nil _ _
  · simpa using hline.1
  · simpa using hline.2
  · simp
  · exact (isInfo_language none).1
  · exact (isInfo_language none).2
  · exact hcontent
  · exact htrimmed
  · exact hresult

theorem knowledgeSheet_sound {content : String} (htrimmed : Trimmed content.toList) (h : Boxable content.toList) :
    (knowledgeSheet content).Sound :=
  sound_of_line (by decide) ⟨(sectionLine_readBack .knowledge).isPhrase, by decide⟩ htrimmed h (by simp)

theorem sampleSheet_sound {name value : String} (hname : Name.Valid name) (htrimmed : Trimmed value.toList)
    (h : Boxable value.toList) : (sampleSheet name value).Sound :=
  sound_of_line (by decide) ⟨exampleLine_readBack.isPhrase, by decide⟩ htrimmed h (by simpa using hname)

namespace Pipeline

/-- A pipeline that is written so that it can be read again. -/
structure Legible (p : Pipeline) : Prop where
  title : Still p.title.toList
  description : ∀ text ∈ p.description, ∀ line ∈ text.toList.splitOn '\n', PlainLine line
  head : ∀ c ∈ p.headCommands, c.Legible
  tasks : ∀ t ∈ p.tasks, t.Legible
  knowledge : ∀ content ∈ p.longKnowledge, Boxable content.toList
  samples : ∀ x ∈ p.samples, Name.Valid x.1 ∧ Boxable x.2.toList

def sheets (p : Pipeline) : List Sheet :=
  p.tasks.map Task.sheet ++ p.longKnowledge.map knowledgeSheet ++ p.samples.map fun x => sampleSheet x.1 x.2

def cover (p : Pipeline) : Cover := ⟨p.title, p.description, p.headLines⟩

def volume (p : Pipeline) : Volume := ⟨p.cover, p.sheets⟩

variable {p : Pipeline}

theorem headLines_eq (p : Pipeline) : p.headLines = p.headCommands.map Command.write := by
  rw [headLines, headCommands, List.map_flatMap]
  congr 1
  funext kind
  exact CommandKind.filterMap_write? fun _ hc => kind_of_mem_takeFromPipeline (List.mem_of_mem_filter hc)

theorem usableIn_of_mem_headCommands {c : Command} (h : c ∈ p.headCommands) : c.kind.usableIn .head = true := by
  obtain ⟨kind, hkind, hc⟩ := List.mem_flatMap.mp h
  rw [kind_of_mem_takeFromPipeline (List.mem_of_mem_filter hc)]
  simpa using (List.mem_filter.mp hkind).2

theorem blocks_eq (p : Pipeline) : p.blocks = p.volume.blocks := by
  have htasks : p.tasks.flatMap Task.blocks = (p.tasks.map Task.sheet).flatMap Sheet.write := by
    rw [List.flatMap_map]
    exact congrArg (p.tasks.flatMap ·) (funext Task.blocks_eq)
  have hknowledge : p.longKnowledge.flatMap knowledgeBlocks =
      (p.longKnowledge.map knowledgeSheet).flatMap Sheet.write := by
    rw [List.flatMap_map]
    exact congrArg (p.longKnowledge.flatMap ·) (funext knowledgeBlocks_eq)
  have hsamples : p.parameters.flatMap Parameter.sampleBlocks =
      (p.samples.map fun x => sampleSheet x.1 x.2).flatMap Sheet.write := by
    rw [samples, List.map_flatMap, List.flatMap_assoc]
    congr 1
    funext q
    rw [q.sampleBlocks_eq, List.map_map]
    rfl
  rw [blocks, Volume.blocks, htasks, hknowledge, hsamples]
  simp only [volume, cover, sheets, Cover.write, List.flatMap_append, List.append_assoc]

theorem toBook_eq (p : Pipeline) : p.toBook = p.volume.text := by
  rw [toBook, blocks_eq]
  rfl

theorem trimmed_of_mem_samples (h : p.Made) {x : String × String} (hx : x ∈ p.samples) : IsPassage x.2 := by
  obtain ⟨q, hq, hx⟩ := List.mem_flatMap.mp hx
  obtain ⟨value, hvalue, rfl⟩ := List.mem_map.mp hx
  exact h.examples q hq value hvalue

theorem trimmed_of_mem_longKnowledge (h : p.Made) {content : String} (hc : content ∈ p.longKnowledge) :
    Trimmed content.toList := by
  obtain ⟨k, hk, rfl⟩ := List.mem_map.mp (List.mem_of_mem_filter hc)
  exact h.knowledge k hk

theorem Made.volume_sound (h : p.Made) (hlegible : p.Legible) : p.volume.Sound := by
  constructor
  · refine ⟨h.title.trimmed, h.title.line, hlegible.title, fun text htext => ?_, ?_⟩
    · exact ⟨(h.description text htext).trimmed, (h.description text htext).ne_nil,
        hlegible.description text htext⟩
    · intro i hi
      obtain ⟨line, hline, rfl⟩ := List.mem_map.mp hi
      have hmem : line ∈ p.headCommands.map Command.write := p.headLines_eq ▸ hline
      obtain ⟨c, hc, rfl⟩ := List.mem_map.mp hmem
      exact (hlegible.head c hc).item_sound (h.head c hc) (usableIn_of_mem_headCommands hc)
  · intro s hs
    rcases List.mem_append.mp hs with hs | hs
    · rcases List.mem_append.mp hs with hs | hs
      · obtain ⟨t, ht, rfl⟩ := List.mem_map.mp hs
        exact (h.tasks t ht).sheet_sound (hlegible.tasks t ht)
      · obtain ⟨content, hc, rfl⟩ := List.mem_map.mp hs
        exact knowledgeSheet_sound (trimmed_of_mem_longKnowledge h hc) (hlegible.knowledge content hc)
    · obtain ⟨x, hx, rfl⟩ := List.mem_map.mp hs
      exact sampleSheet_sound (hlegible.samples x hx).1 (trimmed_of_mem_samples h hx).trimmed
        (hlegible.samples x hx).2

end Pipeline

end BookCompiler
