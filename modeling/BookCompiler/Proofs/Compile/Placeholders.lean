import BookCompiler.Proofs.Compile.ParameterNames
import BookCompiler.Proofs.Markdown.Piece

namespace BookCompiler

/-- A name stands in curly braces somewhere in a text. -/
def Mentions (text name : String) : Prop := Name.Mentionable name ∧ (braced name).toList <:+: text.toList

section Search

open Markdown

theorem placeholderAt?_eq_some_iff {s : List Char} {name : String} :
    placeholderAt? s = some name ↔ Name.Mentionable name ∧ (braced name).toList <+: s := by
  have hbraced : (braced name).toList = bracedChars name.toList := Name.toList_braced name
  rw [Name.mentionable_iff, hbraced]
  constructor
  · intro h
    refine ⟨placeholderAt?_spelled h, ?_⟩
    unfold placeholderAt? at h
    split at h
    · rename_i c tail rest hname
      split at h
      · cases h
      · cases h
        rw [String.toList_ofList]
        exact ⟨rest, (bracedName?_eq_some_iff.mp hname).2.2.symm⟩
    · cases h
  · rintro ⟨⟨⟨c, tail, hname, hdigit⟩, hword⟩, rest, rfl⟩
    have hread : bracedName? (bracedChars name.toList ++ rest) = some (c :: tail, rest) := by
      rw [← hname]
      exact bracedName?_eq_some_iff.mpr ⟨by simp [hname], hword, rfl⟩
    rw [placeholderAt?, hread]
    dsimp only
    rw [hdigit, if_neg Bool.false_ne_true, ← hname, String.ofList_toList]

theorem mem_placeholdersIn {s : List Char} {name : String} :
    name ∈ placeholdersIn s ↔ Name.Mentionable name ∧ (braced name).toList <:+: s := by
  induction s with
  | nil => simp [placeholdersIn, Name.toList_braced]
  | cons c s ih =>
      rw [placeholdersIn, List.mem_append, Option.mem_toList, placeholderAt?_eq_some_iff, ih, List.infix_cons_iff,
        and_or_left]

theorem mem_placeholders_iff {text name : String} : name ∈ placeholders text ↔ Mentions text name := by
  rw [placeholders, Name.mem_sorted, mem_placeholdersIn]
  rfl

/-- The names that are found when the search goes on behind each name it has found; `more` characters are passed
over. -/
def placeholdersBehind (more : Nat) : List Char → List String
  | [] => []
  | c :: s =>
    if more ≠ 0 then placeholdersBehind (more - 1) s
    else
      match placeholderAt? (c :: s) with
      | some name => name :: placeholdersBehind (name.length + 1) s
      | none => placeholdersBehind 0 s

theorem placeholdersIn_append {u : List Char} (s : List Char) (h : '\x7b' ∉ u) :
    placeholdersIn (u ++ s) = placeholdersIn s := by
  induction u with
  | nil => rfl
  | cons c u ih =>
      rw [List.mem_cons, not_or] at h
      have hnone : placeholderAt? (c :: (u ++ s)) = none := by
        rw [Option.eq_none_iff_forall_ne_some]
        intro name hname
        obtain ⟨t, ht⟩ := (placeholderAt?_eq_some_iff.mp hname).2
        rw [Name.toList_braced] at ht
        exact h.1 (List.cons.inj ht).1
      rw [List.cons_append, placeholdersIn, hnone, ih h.2]
      rfl

/-- A mention holds no curly brace but its own two, so none begins inside another. -/
theorem placeholdersBehind_eq (more : Nat) (s : List Char) :
    placeholdersBehind more s = placeholdersIn (s.drop more) := by
  induction s generalizing more with
  | nil => simp [placeholdersBehind, placeholdersIn]
  | cons c s ih =>
      rw [placeholdersBehind]
      cases more with
      | succ more => rw [if_pos (Nat.succ_ne_zero more), ih, Nat.add_sub_cancel, List.drop_succ_cons]
      | zero =>
          rw [if_neg (not_not_intro rfl), List.drop_zero, placeholdersIn]
          cases hname : placeholderAt? (c :: s) with
          | none => exact ih 0
          | some name =>
              obtain ⟨hspelled, rest, hrest⟩ := placeholderAt?_eq_some_iff.mp hname
              have hopen : '\x7b' ∉ name.toList ++ ['\x7d'] := by
                rw [List.mem_append, not_or]
                refine ⟨fun hmem => ?_, by decide⟩
                exact absurd ((Name.mentionable_iff.mp hspelled).2 _ hmem) (by decide)
              rw [Name.toList_braced, List.cons_append, List.cons.injEq] at hrest
              obtain ⟨-, rfl⟩ := hrest
              have hlength : (name.toList ++ ['\x7d']).length = name.length + 1 := by
                rw [List.length_append, String.length_toList]
                rfl
              have hdrop : (name.toList ++ ['\x7d'] ++ rest).drop (name.length + 1) = rest := by
                rw [← hlength, List.drop_left]
              dsimp only
              rw [ih, hdrop, placeholdersIn_append rest hopen]
              rfl

end Search

namespace Task

def texts (t : Task) : List String := t.title :: t.content :: (t.description.toList ++ t.prepared.toList)

theorem contentNames_of_type_ne {t : Task} (h : t.type ≠ .script) (limits : Script.Limits) :
    t.contentNames limits = .ok (placeholders t.content) := by
  unfold contentNames
  split
  · rename_i htype _
    exact absurd htype h
  · rename_i htype _
    exact absurd htype h
  · rfl

/-- A task that is no script needs exactly what its texts mention and its jokers, without the parts that it runs over
but with what it runs over, and without the reserved names. Nothing in a text hides a mention: a search that goes on
behind each mention finds as many. -/
theorem needs_mentioned :
    (∀ text, (placeholders text).Pairwise (· < ·) ∧ (∀ name, name ∈ placeholders text ↔ Mentions text name) ∧
      placeholders text = Name.sorted (placeholdersBehind 0 text.toList)) ∧
    ∀ (t : Task) (limits : Script.Limits), t.type ≠ .script →
      ∃ names, t.neededNames limits = .ok names ∧ names.Pairwise (· < ·) ∧
        ∀ name, name ∈ names ↔
          ((((∃ text ∈ t.texts, Mentions text name) ∨ name ∈ t.jokers) ∧ ∀ loop ∈ t.foreach, name ∉ loop.inputs) ∨
            ∃ loop ∈ t.foreach, name = loop.parameter) ∧ isReserved name = false := by
  refine ⟨fun text => ⟨Name.sorted_increasing _, fun name => mem_placeholders_iff, ?_⟩, fun t limits htype => ?_⟩
  · rw [placeholdersBehind_eq, List.drop_zero]
    rfl
  · have hcontent := contentNames_of_type_ne htype limits
    obtain ⟨names, hnames⟩ : ∃ names, t.neededNames limits = .ok names := by
      rw [neededNames, hcontent]
      exact ⟨_, rfl⟩
    refine ⟨names, hnames, (neededNames_ok hnames).1, fun name => ?_⟩
    obtain ⟨content, hfound, hmem⟩ := mem_neededNames hnames
    obtain rfl : placeholders t.content = content := Except.ok.inj (hcontent.symm.trans hfound)
    have htexts : (∃ text ∈ t.texts, Mentions text name) ↔ name ∈ placeholders t.content ∨
        ∃ text ∈ t.title :: (t.description.toList ++ t.prepared.toList), name ∈ placeholders text := by
      simp only [texts, mem_placeholders_iff, List.exists_mem_cons_iff]
      exact or_left_comm
    rw [hmem, htexts, and_comm, or_comm (a := ∃ loop ∈ t.foreach, name = loop.parameter), and_comm (b := _ ∨ _ ∨ _),
      or_left_comm, or_assoc]

def rowTask : Task where
  name := "rows"
  title := "Rows of \x7b\x7btable\x7d\x7d"
  description := some "unmatched \x7btone"
  type := .prompt
  content := "\x7brow\x7ba\x7d\x7d \x7brow\x7d\x7bknowledge\x7d \x7bb c\x7d"
  jokers := ["draft", "row"]
  foreach := some { format := "CSV", subformat := "ROW", parameter := "table", inputs := ["row", "table"], output := "cell" }
  prepared := some "\x7d\x7bp_1\x7d\x7b"

theorem needs_mentioned_rowTask : rowTask.type ≠ .script ∧
    ∃ names, rowTask.neededNames {} = .ok names ∧ "a" ∈ names ∧ "p_1" ∈ names ∧ "draft" ∈ names ∧ "table" ∈ names ∧
      "row" ∉ names ∧ "knowledge" ∉ names := by
  have htype : rowTask.type ≠ .script := by decide
  obtain ⟨names, hnames, -, hmem⟩ := needs_mentioned.2 rowTask {} htype
  have ha : Mentions rowTask.content "a" :=
    ⟨⟨'a', [], rfl, by decide, List.forall_mem_nil _⟩, "\x7brow".toList, "\x7d \x7brow\x7d\x7bknowledge\x7d \x7bb c\x7d".toList, rfl⟩
  have hp : Mentions "\x7d\x7bp_1\x7d\x7b" "p_1" := by
    refine ⟨⟨'p', ['_', '1'], rfl, by decide, fun d hd => ?_⟩, ['\x7d'], ['\x7b'], rfl⟩
    rcases List.mem_pair.mp hd with rfl | rfl <;> decide
  refine ⟨htype, names, hnames, ?_, ?_, ?_, ?_, ?_, ?_⟩
  · exact (hmem "a").mpr ⟨Or.inl ⟨Or.inl ⟨_, by simp [texts], ha⟩, by decide⟩, by decide⟩
  · exact (hmem "p_1").mpr ⟨Or.inl ⟨Or.inl ⟨_, by simp [texts, rowTask], hp⟩, by decide⟩, by decide⟩
  · exact (hmem "draft").mpr ⟨Or.inl ⟨Or.inr (by decide), by decide⟩, by decide⟩
  · exact (hmem "table").mpr ⟨Or.inr ⟨_, rfl, rfl⟩, by decide⟩
  · intro hrow
    obtain ⟨⟨-, hparts⟩ | ⟨loop, hloop, hparameter⟩, -⟩ := (hmem "row").mp hrow
    · exact hparts _ rfl (by decide)
    · cases hloop
      exact absurd hparameter (by decide)
  · intro hknowledge
    exact absurd ((hmem "knowledge").mp hknowledge).2 (by decide)

end Task

end BookCompiler
