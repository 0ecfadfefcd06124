import BookCompiler.Proofs.Compile.Made
import BookCompiler.Proofs.Markdown.Marks

namespace BookCompiler.Markdown

open Text

section Read

theorem exists_textMarks_cons {c : Char} (s : List Char) (h : isBlank c = false) :
    ∃ m ms, textMarks (c :: s) = m :: ms ∧ m.head? = some c := by
  have hc : c ≠ '\n' := by
    rintro rfl
    cases h
  obtain ⟨ls, hls, hlines, rfl⟩ := exists_joinLines s
  obtain ⟨l, ls, rfl⟩ := List.exists_cons_of_ne_nil hls
  obtain ⟨hl, hrest⟩ := List.forall_mem_cons.mp hlines
  have hcl : '\n' ∉ c :: l := fun hmem => (List.mem_cons.mp hmem).elim (fun e => hc e.symm) hl
  have hhead := head?_trim_cons l h
  have hne : trim (c :: l) ≠ [] := by
    intro e
    rw [e] at hhead
    cases hhead
  rw [cons_joinLines, textMarks_joinLines (List.forall_mem_cons.mpr ⟨hcl, hrest⟩), marks_cons_of_ne_nil ls hne]
  exact ⟨_, _, rfl, hhead⟩

theorem trim_eq_of_marks {m : List Char} {ls ms : List (List Char)} (h : marks ls = m :: ms) : trim m = m := by
  have hmem : m ∈ marks ls := by
    rw [h]
    exact List.mem_cons_self
  obtain ⟨hm, -⟩ := List.mem_filter.mp hmem
  obtain ⟨l, -, rfl⟩ := List.mem_map.mp hm
  exact (trim_trimmed l).trim_eq

theorem textMarks_of_line {l : List Char} (h : '\n' ∉ l) : textMarks l = marks [l] := by
  have hlines : ∀ x ∈ [l], '\n' ∉ x := fun x hx => by rwa [List.mem_singleton.mp hx]
  have hjoin := textMarks_joinLines hlines
  rwa [joinLines_singleton] at hjoin

/-- What is read from a heading and the marks below it. -/
structure Section.Reads (t : Section) (heading : List Char) (body : List (List Char)) : Prop where
  level : headingLevel? heading = some t.level
  title : t.title = String.ofList (trim (heading.drop t.level))
  content : textMarks t.content.toList = body

theorem splitOnce_of_marks {u m : List Char} {ms : List (List Char)} (hu : Trimmed u) (h : textMarks u = m :: ms) :
    ∃ heading content, (splitOnce (· = '\n') u).getD (u, []) = (heading, content) ∧ trim heading = m ∧
      textMarks content = ms := by
  cases hsplit : splitOnce (· = '\n') u with
  | none =>
      have hline : '\n' ∉ u := fun hmem => by simpa using splitOnce_eq_none_iff.mp hsplit '\n' hmem
      have hne : trim u ≠ [] := by
        rw [hu.trim_eq]
        rintro rfl
        cases h
      rw [textMarks_of_line hline, marks_cons_of_ne_nil [] hne] at h
      obtain ⟨hm, hms⟩ := List.cons.inj h
      exact ⟨u, [], rfl, hm, hms⟩
  | some parts =>
      obtain ⟨a, b⟩ := parts
      obtain ⟨c, hc, rfl⟩ := splitOnce_eq_some hsplit
      have hfeed : c = '\n' := of_decide_eq_true hc
      subst hfeed
      have hline : '\n' ∉ a := fun hmem => by simpa using (splitOnce_subset hsplit).2.2 '\n' hmem
      have hne : trim a ≠ [] := by
        cases a with
        | nil => exact absurd (hu.1 '\n' rfl) (by decide)
        | cons d a =>
            intro e
            have hhead := head?_trim_cons a (hu.1 d rfl)
            rw [e] at hhead
            cases hhead
      rw [textMarks_append, textMarks_of_line hline, marks_cons_of_ne_nil [] hne] at h
      obtain ⟨hm, hms⟩ := List.cons.inj h
      exact ⟨a, b, rfl, hm, hms⟩

theorem readSection_of_marks {u m : List Char} {ms : List (List Char)} (h : textMarks u = m :: ms) :
    (headingLevel? m = none ∧ ∃ text, readSection u = .error (.structural (.noHeading text))) ∨
      ∃ t, readSection u = .ok t ∧ t.Reads m ms := by
  obtain ⟨heading, content, hparts, hheading, hcontent⟩ :=
    splitOnce_of_marks (trim_trimmed u) ((textMarks_trim u).trans h)
  have hsame : headingLevel? heading = headingLevel? m := by rw [← hheading, headingLevel?_trim]
  unfold readSection
  dsimp only
  rw [hparts]
  dsimp only
  rw [hsame, hheading]
  cases hlevel : headingLevel? m with
  | none => exact Or.inl ⟨rfl, _, rfl⟩
  | some level =>
      refine Or.inr ⟨_, rfl, hlevel, rfl, ?_⟩
      rw [String.toList_ofList, textMarks_trim, hcontent]

variable {g : List (List Char)}

theorem sectionText?_of_blank (hg : ∀ l ∈ g, '\n' ∉ l) (h : marks g = []) : sectionText? g = none := by
  rw [← textMarks_joinLines hg, ← textMarks_trim] at h
  unfold sectionText?
  cases htext : trim (joinLines g) with
  | nil => rfl
  | cons c s =>
      obtain ⟨m, ms, hmarks, -⟩ := exists_textMarks_cons s ((trim_trimmed (joinLines g)).1 c (by rw [htext]; rfl))
      rw [htext, hmarks] at h
      cases h

theorem sectionText?_of_marks (hg : ∀ l ∈ g, '\n' ∉ l) {m : List Char} {ms : List (List Char)} (h : marks g = m :: ms) :
    ∃ u, sectionText? g = some u ∧
      textMarks u = if m.head? = some '#' then m :: ms else ("# ".toList ++ untitled) :: m :: ms := by
  rw [← textMarks_joinLines hg, ← textMarks_trim] at h
  unfold sectionText?
  cases htext : trim (joinLines g) with
  | nil =>
      rw [htext] at h
      cases h
  | cons c s =>
      obtain ⟨n, ns, hmarks, hhead⟩ := exists_textMarks_cons s ((trim_trimmed (joinLines g)).1 c (by rw [htext]; rfl))
      rw [htext] at h
      rw [hmarks, List.cons.injEq] at h
      obtain ⟨rfl, rfl⟩ := h
      rw [hhead]
      dsimp only
      by_cases hc : c = '#'
      · refine ⟨c :: s, by rw [if_pos hc], ?_⟩
        rw [hmarks, hc, if_pos rfl]
      · refine ⟨"# ".toList ++ untitled ++ ['\n', '\n'] ++ c :: s, by rw [if_neg hc], ?_⟩
        have hother : ¬ some c = some '#' := fun e => hc (Option.some.inj e)
        have huntitled : textMarks ("# ".toList ++ untitled) = ["# ".toList ++ untitled] := by decide
        rw [if_neg hother, List.append_assoc, List.cons_append, List.cons_append, List.nil_append, textMarks_append,
          textMarks_cons_blank _ (by decide), hmarks, huntitled]
        rfl

/-- Groups of lines that begin with headings are all read. -/
theorem readGroups {groups : List (List (List Char))} {sheets : List (List Char × List (List Char))}
    (hgroups : ∀ g ∈ groups, ∀ l ∈ g, '\n' ∉ l) (hmarks : groups.map marks = sheets.map fun q => q.1 :: q.2)
    (hlevels : ∀ q ∈ sheets, (headingLevel? q.1).isSome = true) :
    ∃ ts, (groups.filterMap sectionText?).mapM readSection = .ok ts ∧
      List.Forall₂ (fun q t => t.Reads q.1 q.2) sheets ts := by
  induction groups generalizing sheets with
  | nil =>
      cases sheets with
      | nil => exact ⟨[], rfl, .nil⟩
      | cons q sheets => cases hmarks
  | cons g groups ih =>
      cases sheets with
      | nil => cases hmarks
      | cons q sheets =>
          obtain ⟨hg, hgroups⟩ := List.forall_mem_cons.mp hgroups
          obtain ⟨hlevel, hlevels⟩ := List.forall_mem_cons.mp hlevels
          obtain ⟨hfirst, hrest⟩ := List.cons.inj hmarks
          obtain ⟨ts, hts, hreads⟩ := ih hgroups hrest hlevels
          obtain ⟨u, hu, hmarks⟩ := sectionText?_of_marks hg hfirst
          obtain ⟨level, hlevel⟩ := Option.isSome_iff_exists.mp hlevel
          have hsign : q.1.head? = some '#' := by
            have hhead := head?_of_headingLevel? hlevel
            rwa [trim_eq_of_marks hfirst] at hhead
          rw [if_pos hsign] at hmarks
          rcases readSection_of_marks hmarks with ⟨hnone, -⟩ | ⟨t, ht, htreads⟩
          · rw [hlevel] at hnone
            cases hnone
          · refine ⟨t :: ts, ?_, .cons htreads hreads⟩
            rw [List.filterMap_cons_some hu, List.mapM_cons, ht, hts]
            rfl

end Read

section Split

theorem cutAtHeadings_flatten (state : ScanState) (ls : List (List Char)) :
    (cutAtHeadings state ls).1 ++ (cutAtHeadings state ls).2.flatten = ls := by
  induction ls generalizing state with
  | nil => rfl
  | cons l ls ih =>
      rw [cutAtHeadings_cons]
      split
      · rw [List.nil_append, List.flatten_cons, List.cons_append, ih]
      · rw [List.cons_append, ih]

theorem splitSections_cut (s : List Char) :
    ∃ (before : List (List Char)) (groups : List (List (List Char))),
      splitSections s = (sectionText? before).toList ++ groups.filterMap sectionText? ∧ (∀ l ∈ before, '\n' ∉ l) ∧ (∀ g ∈ groups, ∀ l ∈ g, '\n' ∉ l) ∧
      cutAtHeadings .markdown (textMarks s) = (marks before, groups.map marks) := by
  have hall := cutAtHeadings_flatten .markdown (lines s)
  have hproper : ScanState.Proper .markdown := trivial
  refine ⟨(cutAtHeadings .markdown (lines s)).1, (cutAtHeadings .markdown (lines s)).2, ?_, fun l hl => ?_,
    fun g hg l hl => ?_, cutAtHeadings_marks hproper (lines s)⟩
  · unfold splitSections
    dsimp only
    cases hbefore : sectionText? (cutAtHeadings .markdown (lines s)).1 with
    | none => exact List.filterMap_cons_none hbefore
    | some u => exact List.filterMap_cons_some hbefore
  · apply not_mem_of_mem_lines (s := s)
    rw [← hall]
    exact List.mem_append_left _ hl
  · apply not_mem_of_mem_lines (s := s)
    rw [← hall]
    exact List.mem_append_right _ (List.mem_flatten.mpr ⟨g, hg, hl⟩)

theorem Chained.quiet {state : ScanState} {line : List Char} {body : List (List Char)} {bodies : List (List (List Char))}
    (h : Chained state ((line :: body) :: bodies)) : (state.step line).2 = false := by
  have hcut : (cutAtHeadings state (line :: body)).1 = line :: body := by
    cases bodies with
    | nil => rw [show cutAtHeadings state (line :: body) = _ from h]
    | cons next bodies =>
        have hpass := h.1 []
        rw [List.append_nil] at hpass
        rw [hpass]
        exact List.append_nil _
  rw [cutAtHeadings_cons] at hcut
  cases hstep : (state.step line).2 with
  | false => rfl
  | true =>
      rw [hstep] at hcut
      cases hcut

theorem Chained.tail {state : ScanState} {body : List (List Char)} {bodies : List (List (List Char))}
    (h : Chained state (body :: bodies)) : Chained .markdown bodies := by
  cases bodies with
  | nil => trivial
  | cons next bodies => exact h.2

/-- The contents of the sections of a text leave nothing open, the last one apart. -/
theorem chained_of_readSections {s : List Char} {ts : List Section} (h : (splitSections s).mapM readSection = .ok ts) :
    Chained .markdown (ts.map fun t => textMarks t.content.toList) := by
  obtain ⟨before, groups, hsplit, hbefore, hgroups, hcut⟩ := splitSections_cut s
  obtain ⟨sheets, hsheets, hlevels, hchained⟩ := cutAtHeadings_chained .markdown (textMarks s)
  rw [hcut] at hsheets hchained
  obtain ⟨us, hus, hreads⟩ := readGroups hgroups hsheets hlevels
  have hbodies : us.map (fun t => textMarks t.content.toList) = sheets.map Prod.snd := by
    clear hsheets hlevels hchained hus
    induction hreads with
    | nil => rfl
    | cons hread _ ih => rw [List.map_cons, List.map_cons, hread.content, ih]
  rw [← hbodies] at hchained
  rw [hsplit] at h
  cases hmarks : marks before with
  | nil =>
      rw [sectionText?_of_blank hbefore hmarks, Option.toList_none, List.nil_append, hus] at h
      cases h
      exact hchained.tail
  | cons m ms =>
      dsimp only at hchained
      rw [hmarks] at hchained
      obtain ⟨u, hu, humarks⟩ := sectionText?_of_marks hbefore hmarks
      rw [hu, Option.toList_some, List.singleton_append, List.mapM_cons, hus] at h
      by_cases hsign : m.head? = some '#'
      · have hquiet := hchained.quiet
        rw [step_of_sign (by rwa [trim_eq_of_marks hmarks])] at hquiet
        rw [if_pos hsign] at humarks
        rcases readSection_of_marks humarks with ⟨-, text, hread⟩ | ⟨t, -, htreads⟩
        · rw [hread] at h
          cases h
        · rw [htreads.level] at hquiet
          cases hquiet
      · rw [if_neg hsign] at humarks
        rcases readSection_of_marks humarks with ⟨-, text, hread⟩ | ⟨t, hread, htreads⟩
        · rw [hread] at h
          cases h
        · rw [hread] at h
          cases h
          rw [List.map_cons, htreads.content]
          exact hchained

end Split

section Flatten

abbrev headingLine (level : Nat) (title : List Char) : List Char := Page.heading level ⟨title, []⟩

def Section.sheet (level : Nat) (t : Section) : List Char × List (List Char) :=
  (trim (headingLine level t.title.toList), textMarks t.content.toList)

def flatSheets : List Section → List (List Char × List (List Char))
  | [] => []
  | head :: rest => head.sheet 1 :: rest.map (Section.sheet 2)

theorem trim_headingLine_ne_nil {level : Nat} (hlevel : 0 < level) (title : List Char) :
    trim (headingLine level title) ≠ [] := by
  obtain ⟨s, hs⟩ := Page.heading_eq_cons (p := ⟨title, []⟩) hlevel
  have hhead := head?_trim_cons (c := '#') s (by decide)
  rw [← hs] at hhead
  intro e
  rw [e] at hhead
  cases hhead

theorem textMarks_write (level : Nat) (hlevel : 0 < level) {signs : String} (hsigns : signs.toList = List.replicate level '#')
    {t : Section} (htitle : '\n' ∉ t.title.toList) :
    textMarks (t.write signs).toList = (t.sheet level).1 :: (t.sheet level).2 := by
  have hheading : (signs ++ " " ++ t.title).toList = headingLine level t.title.toList := by
    simp [hsigns, headingLine, Page.heading]
  have hmarks : textMarks (headingLine level t.title.toList) = [trim (headingLine level t.title.toList)] := by
    rw [textMarks_of_line (Page.not_mem_heading htitle), marks_cons_of_ne_nil [] (trim_headingLine_ne_nil hlevel _)]
    rfl
  unfold Section.write
  split
  · rename_i hempty
    have hcontent : t.content = "" := by simpa using hempty
    rw [hheading, hmarks, Section.sheet, hcontent]
    rfl
  · rw [String.toList_append, String.toList_append, hheading, List.append_assoc]
    change textMarks (headingLine level t.title.toList ++ '\n' :: ('\n' :: t.content.toList)) = _
    rw [textMarks_append, hmarks, textMarks_cons_blank _ (by decide)]
    rfl

theorem textMarks_intercalate (ss : List (List Char)) :
    textMarks (List.intercalate ['\n', '\n'] ss) = ss.flatMap textMarks := by
  induction ss with
  | nil => rfl
  | cons s ss ih =>
      cases ss with
      | nil => rw [List.intercalate_singleton, List.flatMap_singleton]
      | cons t ss =>
          rw [List.intercalate_cons_cons, List.append_assoc]
          change textMarks (s ++ '\n' :: ('\n' :: List.intercalate ['\n', '\n'] (t :: ss))) = _
          rw [textMarks_append, textMarks_cons_blank _ (by decide), ih, ← List.flatMap_cons]

theorem textMarks_writeFlat {ts : List Section} (h : ∀ t ∈ ts, '\n' ∉ t.title.toList) :
    textMarks (writeFlat ts).toList = (flatSheets ts).flatMap fun q => q.1 :: q.2 := by
  cases ts with
  | nil => rfl
  | cons head rest =>
      obtain ⟨hhead, hrest⟩ := List.forall_mem_cons.mp h
      rw [writeFlat, String.toList_intercalate]
      change textMarks (List.intercalate ['\n', '\n'] _) = _
      rw [textMarks_intercalate, List.map_cons, List.flatMap_cons, flatSheets, List.flatMap_cons,
        textMarks_write 1 (by decide) rfl hhead, List.map_map, List.flatMap_map, List.flatMap_map]
      congr 1
      apply List.flatMap_congr
      intro t ht
      exact textMarks_write 2 (by decide) rfl (hrest t ht)

theorem cutAtHeadings_sheets {sheets : List (List Char × List (List Char))}
    (hlevels : ∀ q ∈ sheets, (headingLevel? q.1).isSome = true) (h : Chained .markdown (sheets.map Prod.snd)) :
    cutAtHeadings .markdown (sheets.flatMap fun q => q.1 :: q.2) = ([], sheets.map fun q => q.1 :: q.2) := by
  induction sheets with
  | nil => rfl
  | cons q sheets ih =>
      obtain ⟨hlevel, hlevels⟩ := List.forall_mem_cons.mp hlevels
      have hrest := ih hlevels (Chained.tail h)
      obtain ⟨level, hsome⟩ := Option.isSome_iff_exists.mp hlevel
      rw [List.flatMap_cons, List.cons_append, cutAtHeadings_cons, step_of_sign (head?_of_headingLevel? hsome), hlevel]
      cases sheets with
      | nil =>
          have hrests : cutAtHeadings .markdown q.2 = (q.2, []) := h
          rw [List.flatMap_nil, List.append_nil, hrests]
          rfl
      | cons r sheets =>
          rw [h.1, hrest, List.append_nil]
          rfl

theorem headingLevel?_sheet {level : Nat} (hlevel : 0 < level) (hdeep : level ≤ deepestHeading) {t : Section}
    (h : IsTitle t.title) : headingLevel? (t.sheet level).1 = some level := by
  rw [Section.sheet, headingLevel?_trim]
  exact Page.headingLevel?_heading h.trimmed hlevel hdeep

def leveled : List Section → List Section
  | [] => []
  | head :: rest => { head with level := 1 } :: rest.map fun t => { t with level := 2 }

theorem mem_leveled {ts : List Section} {u : Section} (h : u ∈ leveled ts) :
    ∃ t ∈ ts, ∃ level, (0 < level ∧ level ≤ deepestHeading) ∧ u = { t with level } := by
  cases ts with
  | nil => cases h
  | cons head rest =>
      rcases List.mem_cons.mp h with rfl | h
      · exact ⟨head, List.mem_cons_self, 1, by decide, rfl⟩
      · obtain ⟨t, ht, rfl⟩ := List.mem_map.mp h
        exact ⟨t, List.mem_cons_of_mem head ht, 2, by decide, rfl⟩

theorem leveled_of_isTitle {ts : List Section} (h : ∀ t ∈ ts, IsTitle t.title) :
    ∀ t ∈ leveled ts, IsTitle t.title ∧ 0 < t.level ∧ t.level ≤ deepestHeading := by
  intro u hu
  obtain ⟨t, ht, level, hlevel, rfl⟩ := mem_leveled hu
  exact ⟨h t ht, hlevel⟩

theorem map_leveled {α : Type} {f : Section → α} (h : ∀ t level, f { t with level } = f t) (ts : List Section) :
    (leveled ts).map f = ts.map f := by
  cases ts with
  | nil => rfl
  | cons head rest => simp [leveled, h]

theorem flatSheets_eq (ts : List Section) : flatSheets ts = (leveled ts).map fun t => t.sheet t.level := by
  cases ts with
  | nil => rfl
  | cons head rest =>
      rw [flatSheets, leveled, List.map_cons, List.map_map]
      rfl

theorem Section.Reads.same {t u : Section} (h : u.Reads (t.sheet t.level).1 (t.sheet t.level).2) (htitle : IsTitle t.title)
    (hlevel : 0 < t.level ∧ t.level ≤ deepestHeading) : t.level = u.level ∧ t.title = u.title := by
  have hsame := h.level
  rw [headingLevel?_sheet hlevel.1 hlevel.2 htitle] at hsame
  have hu : t.level = u.level := Option.some.inj hsame
  refine ⟨hu, ?_⟩
  rw [h.title, ← hu, Section.sheet, Page.title_heading htitle.trimmed hlevel.1, String.ofList_toList]

theorem headings_of_reads {ts us : List Section} (htitles : ∀ t ∈ ts, IsTitle t.title)
    (h : List.Forall₂ (fun q u => u.Reads q.1 q.2) (flatSheets ts) us) :
    (leveled ts).map Section.level = us.map Section.level ∧ ts.map Section.title = us.map Section.title := by
  rw [flatSheets_eq, List.forall₂_map_left_iff] at h
  have hsame : List.Forall₂ (fun t u => t.level = u.level ∧ t.title = u.title) (leveled ts) us := by
    have hboth := (List.forall₂_and_left _ _).mpr ⟨leveled_of_isTitle htitles, h⟩
    exact hboth.imp fun t u ⟨⟨htitle, hlevel⟩, hreads⟩ => hreads.same htitle hlevel
  constructor
  · rw [← List.forall₂_eq_eq_eq, List.forall₂_map_left_iff, List.forall₂_map_right_iff]
    exact hsame.imp fun _ _ => And.left
  · rw [← map_leveled fun _ _ => rfl, ← List.forall₂_eq_eq_eq, List.forall₂_map_left_iff, List.forall₂_map_right_iff]
    exact hsame.imp fun _ _ => And.right

theorem map_snd_flatSheets (ts : List Section) :
    (flatSheets ts).map Prod.snd = ts.map fun t => textMarks t.content.toList := by
  cases ts with
  | nil => rfl
  | cons head rest => simp [flatSheets, Section.sheet]

/-- A flat text is read as the sections it was written from, the first of level one and all others of level
two. -/
theorem readSections_flatten {s : List Char} {text : String} (h : flatten s = .ok text) :
    ∃ ts us, (splitSections s).mapM readSection = .ok ts ∧ (splitSections text.toList).mapM readSection = .ok us ∧
      (∀ t ∈ ts, IsTitle t.title) ∧ List.Forall₂ (fun q u => u.Reads q.1 q.2) (flatSheets ts) us := by
  cases hts : (splitSections s).mapM readSection with
  | error e =>
      rw [flatten, hts] at h
      cases h
  | ok ts =>
      rw [flatten, hts] at h
      cases h
      have htitles : ∀ t ∈ ts, IsTitle t.title := by
        intro t ht
        obtain ⟨u, -, hread⟩ := mem_of_mapM_ok hts t ht
        exact isTitle_of_readSection hread
      have hlevels : ∀ q ∈ flatSheets ts, (headingLevel? q.1).isSome = true := by
        intro q hq
        rw [flatSheets_eq] at hq
        obtain ⟨t, ht, rfl⟩ := List.mem_map.mp hq
        obtain ⟨htitle, hlevel, hdeep⟩ := leveled_of_isTitle htitles t ht
        rw [headingLevel?_sheet hlevel hdeep htitle]
        rfl
      have hchained := chained_of_readSections hts
      rw [← map_snd_flatSheets] at hchained
      obtain ⟨before, groups, hsplit, hbefore, hgroups, hcut⟩ := splitSections_cut (writeFlat ts).toList
      rw [textMarks_writeFlat fun t ht => (htitles t ht).line, cutAtHeadings_sheets hlevels hchained] at hcut
      obtain ⟨hblank, hmarks⟩ := Prod.mk.inj hcut
      obtain ⟨us, hus, hreads⟩ := readGroups hgroups hmarks.symm hlevels
      refine ⟨ts, us, rfl, ?_, htitles, hreads⟩
      rw [hsplit, sectionText?_of_blank hbefore hblank.symm]
      exact hus

theorem sectionize_of_leveled {s : List Char} {ts us : List Section} (hus : (splitSections s).mapM readSection = .ok us)
    (hlevels : (leveled ts).map Section.level = us.map Section.level) (hne : ts ≠ []) :
    ∃ head rest, us = head :: rest ∧ sectionize s = .ok ⟨head, rest⟩ ∧ head.level = 1 ∧ ∀ t ∈ rest, t.level = 2 := by
  obtain ⟨t, ts, rfl⟩ := List.exists_cons_of_ne_nil hne
  cases us with
  | nil => cases hlevels
  | cons head rest =>
      obtain ⟨hhead, hrest⟩ := List.cons.inj hlevels
      have htwo : ∀ u ∈ rest, u.level = 2 := by
        intro u hu
        have hmem : u.level ∈ rest.map Section.level := List.mem_map_of_mem hu
        rw [← hrest, List.map_map] at hmem
        obtain ⟨t, -, ht⟩ := List.mem_map.mp hmem
        exact ht.symm
      exact ⟨head, rest, rfl, sectionize_of_levels hus hhead.symm htwo, hhead.symm, htwo⟩

theorem sectionize_flatten {s : List Char} {text : String} (h : flatten s = .ok text) :
    sectionize text.toList = .error (.structural .emptyBook) ∨ ∃ sections, sectionize text.toList = .ok sections := by
  obtain ⟨ts, us, -, hus, htitles, hreads⟩ := readSections_flatten h
  by_cases hts : ts = []
  · subst hts
    cases hreads
    refine Or.inl ?_
    unfold sectionize
    rw [hus]
    rfl
  · obtain ⟨head, rest, -, hsections, -⟩ := sectionize_of_leveled hus (headings_of_reads htitles hreads).1 hts
    exact Or.inr ⟨_, hsections⟩

end Flatten

end BookCompiler.Markdown
