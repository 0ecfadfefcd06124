import BookCompiler.Proofs.Compile.Headings

namespace BookCompiler.Markdown

open Text

/-- The lines that are written as headings where neither a code block nor a comment is open. -/
def headingsFrom (state : ScanState) : List (List Char) → List (List Char)
  | [] => []
  | line :: rest =>
    if state = .markdown ∧ (headingLevel? line).isSome = true then line :: headingsFrom (state.step line).1 rest
    else headingsFrom (state.step line).1 rest

def beforeHeadings (state : ScanState) : List (List Char) → List (List Char)
  | [] => []
  | line :: rest =>
    if state = .markdown ∧ (headingLevel? line).isSome = true then []
    else line :: beforeHeadings (state.step line).1 rest

theorem step_snd_iff {state : ScanState} {line : List Char} :
    (state.step line).2 = true ↔ state = .markdown ∧ (headingLevel? line).isSome = true := by
  constructor
  · intro h
    obtain ⟨hstate, -, hlevel⟩ := step_heading h
    exact ⟨hstate, hlevel⟩
  · rintro ⟨rfl, hlevel⟩
    obtain ⟨level, hsome⟩ := Option.isSome_iff_exists.mp hlevel
    rw [step_of_sign (head?_of_headingLevel? hsome), hlevel]

theorem mem_headingsFrom {state : ScanState} {line : List Char} {ls : List (List Char)}
    (h : line ∈ headingsFrom state ls) : line ∈ ls ∧ (headingLevel? line).isSome = true := by
  induction ls generalizing state with
  | nil => cases h
  | cons l ls ih =>
      rw [headingsFrom] at h
      split at h
      · rename_i hl
        rcases List.mem_cons.mp h with rfl | h
        · exact ⟨List.mem_cons_self, hl.2⟩
        · exact (ih h).imp_left (List.mem_cons_of_mem l)
      · exact (ih h).imp_left (List.mem_cons_of_mem l)

theorem beforeHeadings_isPrefix (state : ScanState) (ls : List (List Char)) : beforeHeadings state ls <+: ls := by
  induction ls generalizing state with
  | nil => exact List.nil_prefix
  | cons l ls ih =>
      rw [beforeHeadings]
      split
      · exact List.nil_prefix
      · exact (List.prefix_cons_inj l).mpr (ih _)

theorem headingsFrom_beforeHeadings (state : ScanState) (ls : List (List Char)) :
    headingsFrom state (beforeHeadings state ls) = [] := by
  induction ls generalizing state with
  | nil => rfl
  | cons l ls ih =>
      rw [beforeHeadings]
      split
      · rfl
      · rename_i hl
        rw [headingsFrom, if_neg hl, ih]

theorem cutAtHeadings_parts (state : ScanState) (ls : List (List Char)) :
    ∃ parts : List (List Char × List (List Char)),
      cutAtHeadings state ls = (beforeHeadings state ls, parts.map fun q => q.1 :: q.2) ∧
      parts.map Prod.fst = headingsFrom state ls ∧ ∀ q ∈ parts, headingsFrom .markdown q.2 = [] := by
  induction ls generalizing state with
  | nil => exact ⟨[], rfl, rfl, by simp⟩
  | cons line rest ih =>
      obtain ⟨parts, hcut, hheadings, hbare⟩ := ih (state.step line).1
      rw [cutAtHeadings_cons, beforeHeadings, headingsFrom, hcut]
      by_cases hline : state = .markdown ∧ (headingLevel? line).isSome = true
      · rw [if_pos (step_snd_iff.mpr hline), if_pos hline, if_pos hline]
        obtain ⟨rfl, hstep, -⟩ := step_heading (step_snd_iff.mpr hline)
        rw [hstep] at hheadings ⊢
        refine ⟨(line, beforeHeadings .markdown rest) :: parts, rfl, ?_, ?_⟩
        · rw [List.map_cons, hheadings]
        · exact List.forall_mem_cons.mpr ⟨headingsFrom_beforeHeadings .markdown rest, hbare⟩
      · have hquiet : ¬ (state.step line).2 = true := fun h => hline (step_snd_iff.mp h)
        rw [if_neg hquiet, if_neg hline, if_neg hline]
        exact ⟨parts, rfl, hheadings, hbare⟩

/-- Lines that fall into those before the first heading and, for each heading, itself and those below it. -/
structure Division (ls : List (List Char)) where
  parts : List (List Char × List (List Char))
  all : beforeHeadings .markdown ls ++ parts.flatMap (fun q => q.1 :: q.2) = ls
  headings : parts.map Prod.fst = headingsFrom .markdown ls
  bare : ∀ q ∈ parts, headingsFrom .markdown q.2 = []

namespace Division

variable {ls : List (List Char)}

theorem isSome_of_mem (d : Division ls) {q : List Char × List (List Char)} (h : q ∈ d.parts) :
    q.1 ∈ ls ∧ (headingLevel? q.1).isSome = true := by
  have hheading : q.1 ∈ headingsFrom .markdown ls := by
    rw [← d.headings]
    exact List.mem_map_of_mem h
  exact mem_headingsFrom hheading

def sections (d : Division ls) : List (List Char) := d.parts.map fun q => trim (joinLines (q.1 :: q.2))

theorem ink_sections (d : Division ls) :
    ink (beforeHeadings .markdown ls).flatten ++ ink d.sections.flatten = ink ls.flatten := by
  have hparts (parts : List (List Char × List (List Char))) :
      ink (parts.map fun q => trim (joinLines (q.1 :: q.2))).flatten =
        ink (parts.flatMap fun q => q.1 :: q.2).flatten := by
    induction parts with
    | nil => rfl
    | cons q parts ih =>
        rw [List.map_cons, List.flatten_cons, List.flatMap_cons, List.flatten_append, ink_append, ink_append, ink_trim,
          ink_joinLines, ih]
  rw [sections, hparts, ← ink_append, ← List.flatten_append, d.all]

theorem forall₂_sections (d : Division ls) :
    List.Forall₂ (fun heading t => trim heading <+: t) (headingsFrom .markdown ls) d.sections := by
  rw [← d.headings, sections, List.forall₂_map_left_iff, List.forall₂_map_right_iff, List.forall₂_same]
  intro q _
  exact trim_isPrefix_joinLines q.1 q.2

end Division

def opening (s : List Char) : List Char := trim (joinLines (beforeHeadings .markdown (lines s)))

/-- The title that the opening gets, with the blank line below it. One that begins like a heading gets none. -/
def openingTitle (s : List Char) : List Char :=
  if (opening s).head? = some '#' then [] else "# Untitled\n\n".toList

theorem opening_eq_nil_iff {s : List Char} :
    opening s = [] ↔ ∀ line ∈ beforeHeadings .markdown (lines s), ∀ c ∈ line, isBlank c = true := by
  have hink : opening s = [] ↔ ink (beforeHeadings .markdown (lines s)).flatten = [] := by
    rw [opening, trim_eq_nil_iff, ← ink_eq_nil_iff, ink_joinLines]
  rw [hink, ink_eq_nil_iff]
  simp only [List.mem_flatten]
  exact ⟨fun h line hline c hc => h c ⟨line, hline, hc⟩, fun h c ⟨line, hline, hc⟩ => h line hline c hc⟩

theorem sectionText?_beforeHeadings (s : List Char) :
    (sectionText? (beforeHeadings .markdown (lines s))).toList =
      if opening s = [] then [] else [openingTitle s ++ opening s] := by
  unfold sectionText? openingTitle
  rw [← opening]
  cases opening s with
  | nil => rfl
  | cons c t =>
      dsimp only
      rw [if_neg (List.cons_ne_nil c t)]
      by_cases hc : c = '#'
      · rw [if_pos hc, hc]
        rfl
      · rw [if_neg hc, List.head?_cons, if_neg fun e => hc (Option.some.inj e)]
        rfl

theorem sectionText?_part {heading : List Char} {below : List (List Char)}
    (h : (headingLevel? heading).isSome = true) :
    sectionText? (heading :: below) = some (trim (joinLines (heading :: below))) := by
  obtain ⟨level, hlevel⟩ := Option.isSome_iff_exists.mp h
  obtain ⟨t, ht⟩ := List.head?_eq_some_iff.mp (head?_of_headingLevel? hlevel)
  obtain ⟨u, hu⟩ := trim_isPrefix_joinLines heading below
  rw [ht, List.cons_append] at hu
  rw [sectionText?, ← hu]
  rfl

theorem splitSections_division (s : List Char) : ∃ d : Division (lines s),
    splitSections s = (if opening s = [] then [] else [openingTitle s ++ opening s]) ++ d.sections := by
  obtain ⟨parts, hcut, hheadings, hbare⟩ := cutAtHeadings_parts .markdown (lines s)
  have hall := cutAtHeadings_flatten .markdown (lines s)
  rw [hcut, ← List.flatMap_def] at hall
  let d : Division (lines s) := ⟨parts, hall, hheadings, hbare⟩
  have hsections : (parts.map fun q => q.1 :: q.2).filterMap sectionText? = d.sections := by
    rw [List.filterMap_map, Division.sections, List.filterMap_eq_map_iff_forall_eq_some]
    exact fun q hq => sectionText?_part (d.isSome_of_mem hq).2
  refine ⟨d, ?_⟩
  rw [splitSections, hcut, ← hsections, ← sectionText?_beforeHeadings]
  dsimp only
  rw [List.filterMap_cons]
  cases sectionText? (beforeHeadings .markdown (lines s)) with
  | none => rfl
  | some t => rfl

/-- Dividing a text at its headings loses nothing and doubles nothing: there is one section for each heading, which
begins with it, after one for the opening if something stands there; and all of them together are the text, but for
white space and the title that the opening may get. -/
theorem splitSections_keeps (s : List Char) :
    ∃ d : Division (lines s),
      splitSections s = (if opening s = [] then [] else [openingTitle s ++ opening s]) ++ d.sections ∧
      (opening s = [] ↔ ∀ line ∈ beforeHeadings .markdown (lines s), ∀ c ∈ line, isBlank c = true) ∧
      List.Forall₂ (fun heading t => trim heading <+: t) (headingsFrom .markdown (lines s)) d.sections ∧
      ink (opening s ++ d.sections.flatten) = ink s := by
  obtain ⟨d, hsplit⟩ := splitSections_division s
  refine ⟨d, hsplit, opening_eq_nil_iff, d.forall₂_sections, ?_⟩
  rw [ink_append, opening, ink_trim, ink_joinLines, d.ink_sections, ink_lines]

end BookCompiler.Markdown
