import BookCompiler.Proofs.Command.ReadBack

namespace BookCompiler

open Text

namespace Invocation

/-- A reader that gives commands of one kind only. -/
def Only (kind : CommandKind) (x : Reads Command) : Prop := ∀ c, x = .ok c → c.kind = kind

variable {kind : CommandKind}

theorem only_ok {c : Command} (h : c.kind = kind) : Only kind (.ok c) := by
  intro d hd
  cases hd
  exact h

theorem only_error (e : ParseError) : Only kind (.error e) := by
  intro c hc
  cases hc

theorem only_ite {p : Prop} [Decidable p] {x y : Reads Command} (hx : Only kind x) (hy : Only kind y) :
    Only kind (if p then x else y) := by
  split
  · exact hx
  · exact hy

theorem only_bind {α : Type} {x : Reads α} {f : α → Reads Command} (h : ∀ a, Only kind (f a)) : Only kind (x >>= f) := by
  intro c hc
  obtain ⟨a, -, ha⟩ := bind_ok hc
  exact h a c ha

theorem only_map {α : Type} {x : Reads α} {f : α → Command} (h : ∀ a, (f a).kind = kind) : Only kind (x.map f) := by
  cases x with
  | error e => exact only_error e
  | ok a => exact only_ok (h a)

end Invocation

open Invocation in
theorem CommandKind.only_read (kind : CommandKind) (i : Invocation) : Only kind (kind.read i) := by
  cases kind with
  | bookVersion =>
      refine only_bind fun _ => only_bind fun _ => ?_
      split
      · exact only_ok rfl
      · exact only_error _
  | url =>
      refine only_bind fun _ => only_bind fun _ => ?_
      split
      · exact only_error _
      · exact only_ok rfl
  | formfactor =>
      refine only_ite (only_error _) ?_
      split
      · exact only_ok rfl
      · exact only_error _
  | parameter =>
      refine only_bind fun _ => only_bind fun _ => ?_
      dsimp only
      split
      · exact only_ite (only_bind fun _ => only_ok rfl) (only_ok rfl)
      · exact only_ok rfl
  | persona => exact only_ite (only_error _) (only_ok rfl)
  | knowledge => exact only_ite (only_error _) (only_ite (only_error _) (only_ok rfl))
  | sectionType =>
      rw [CommandKind.read, Invocation.sectionType]
      split
      · exact only_ok rfl
      · exact only_error _
      · exact only_error _
  | model =>
      rw [CommandKind.read, Invocation.model]
      split
      · exact only_error _
      · split
        · exact only_error _
        · exact only_map fun _ => rfl
  | expectAmount =>
      exact only_bind fun _ => only_bind fun _ => only_bind fun _ => only_bind fun _ => only_bind fun _ =>
        only_bind fun _ => only_bind fun _ => only_ok rfl
  | expectFormat => exact only_ite (only_ok rfl) (only_error _)
  | joker => exact only_bind fun _ => only_bind fun _ => only_bind fun _ => only_ok rfl
  | postprocess => exact only_bind fun _ => only_bind fun _ => only_ite (only_ok rfl) (only_error _)
  | foreach =>
      refine only_bind fun _ => only_bind fun _ => only_bind fun _ => only_bind fun _ => only_bind fun _ =>
        only_bind fun _ => only_ite (only_bind fun _ => only_bind fun _ => ?_) (only_bind fun _ => ?_)
      all_goals
        exact only_ite (only_bind fun _ => only_bind fun _ => only_ok rfl) (only_bind fun _ => only_ok rfl)
  | action => exact only_ok rfl
  | instrument => exact only_ok rfl

namespace Registry

variable {place : Place}

theorem firstNamed_usable {candidates : List Candidate} {kinds : List CommandKind} {position : NamePosition}
    (h : builtIn.firstNamed place candidates = some (kinds, position)) : ∀ kind ∈ kinds, kind.usableIn place = true := by
  induction candidates with
  | nil => cases h
  | cons candidate rest ih =>
      rw [firstNamed] at h
      split at h
      · exact ih h
      · cases h
        intro kind hkind
        have hmem := (List.mem_filter.mp hkind).2
        exact (Bool.and_eq_true_iff.mp hmem).2

theorem resolve_ok {line : CommandLine} {kind : CommandKind} {position : NamePosition}
    (h : builtIn.resolve place line = .ok (kind, position)) :
    builtIn.firstNamed place line.candidates = some ([kind], position) := by
  rw [resolve] at h
  split at h
  · rename_i hfirst
    cases h
    exact hfirst
  · cases h
  · split at h <;> cases h

/-- A line that is read has a name of its command in it, and the kind of the command may stand there. -/
theorem read_ok {line : String} {c : Command} (h : builtIn.read place line = .ok c) :
    ∃ l position, CommandLine.read line = .ok l ∧
      builtIn.firstNamed place l.candidates = some ([c.kind], position) ∧ c.kind.read (l.invocation position) = .ok c := by
  obtain ⟨l, hline, h⟩ := bind_ok h
  obtain ⟨⟨kind, position⟩, hresolve, h⟩ := bind_ok h
  dsimp only at h
  split at h
  · rename_i hread
    cases h
    have hkind := kind.only_read _ c hread
    subst hkind
    exact ⟨l, position, hline, resolve_ok hresolve, hread⟩
  · cases h

theorem usableIn_of_read {line : String} {c : Command} (h : builtIn.read place line = .ok c) :
    c.kind.usableIn place = true := by
  obtain ⟨l, position, -, hfirst, -⟩ := read_ok h
  exact firstNamed_usable hfirst c.kind (List.mem_singleton_self _)

theorem write?_builtIn (c : Command) : builtIn.write? c = some c.write := by
  cases c <;> rfl

end Registry

def CommandKind.isFree : CommandKind → Bool
  | parameter | persona | knowledge | joker | postprocess => true
  | _ => false

theorem Command.spelled_of_not_isFree {c : Command} (h : c.kind.isFree = false) : c.Spelled := by
  cases c with
  | parameter => cases h
  | persona => cases h
  | knowledge => cases h
  | joker => cases h
  | postprocess => cases h
  | _ => trivial

namespace Registry

variable {place : Place} {c : Command}

/-- Whichever way a line spells a command, the command is read again from the line that it is written as. -/
theorem read_write_of_read (line : String) (h : builtIn.read place line = .ok c) (hkind : c.kind.isFree = false) :
    ∃ written, builtIn.write? c = some written ∧ builtIn.read place written = .ok c := by
  have hback : ReadsBack place c.write c :=
    read_write (read_wellFormed h) (Command.spelled_of_not_isFree hkind) (usableIn_of_read h)
  exact ⟨c.write, write?_builtIn c, hback.read⟩

theorem read_write_of_read_foreach :
    ∃ written,
      builtIn.write? (.foreach ⟨"CSV", "ROW", "people", ["name", "mail"], "card"⟩) = some written ∧
      builtIn.read .task written = .ok (.foreach ⟨"CSV", "ROW", "people", ["name", "mail"], "card"⟩) :=
  read_write_of_read "For Each *csv* rows \x7bpeople\x7d -> \x60name\x60 , +\x7bcard\x7d , \x7bmail\x7d"
    (by decide +kernel) rfl

end Registry

theorem length_afterWords_le (n : Nat) {s : List Char} (h : Trimmed s) : (afterWords (n + 1) s).length ≤ s.length - 2 := by
  have hsplit : firstWord s ++ s.dropWhile (!isBlank ·) = s := List.takeWhile_append_dropWhile
  have hnext := head?_dropWhile (!isBlank ·) s
  rw [afterWords, trimStart_eq_self h.1]
  cases hdrop : s.dropWhile (!isBlank ·) with
  | nil =>
      have hnil := (afterWords_isSuffix n []).length_le
      rw [List.length_nil] at hnil
      omega
  | cons d rest =>
      rw [hdrop] at hsplit hnext
      have hd : isBlank d = true := by simpa using hnext d rfl
      have hword : 0 < (firstWord s).length := by
        rw [List.length_pos_iff]
        exact (firstWord_isWord h (by rw [← hsplit]; simp)).1
      have hlength := congrArg List.length hsplit
      rw [List.length_append, List.length_cons] at hlength
      have hrest := (afterWords_isSuffix n rest).length_le
      rw [afterWords_cons_blank n rest hd]
      omega

theorem CommandLine.invocation_keyText {key : List (List Char)} (n : Nat) (text : List Char) (h : ∀ w ∈ key, IsWord w) :
    (CommandLine.mk (keyText key ++ text)).invocation (.leading (key.length + n)) =
      { (CommandLine.mk text).invocation (.leading n) with words := commandWords (keyText key ++ text) } := by
  have hwords : (CommandLine.mk (keyText key ++ text)).words = key ++ Text.words text := words_keyText text h
  simp only [invocation, hwords, List.drop_append, List.drop_of_length_le (Nat.le_add_right _ _), List.nil_append,
    Nat.add_sub_cancel_left, afterWords_keyText_add _ _ h]
  rfl

theorem CommandLine.arguments_isWord {w : List Char} (n : Nat) (h : IsWord w) :
    ((CommandLine.mk w).invocation (.leading (n + 1))).arguments = [] := by
  have hwords : (CommandLine.mk w).words = [w] := words_of_isWord h
  simp [CommandLine.invocation, hwords]

namespace Registry

variable {place : Place} {c : Command}

/-- A first word without a letter or digit is taken for a part of the name before it. -/
theorem read_of_unspelled {kind : CommandKind} {key : List (List Char)} {names : List String} {start line : String}
    {text : List Char} (hkey : IsKey place kind key names start) (hlength : key.length < longestName)
    (hline : line.toList = keyText key ++ text) (htext : IsPhrase text) (hspelled : Name.isSpelled (firstWord text) = false)
    (hread : builtIn.read place line = .ok c) :
    ∃ n ws, c.kind.read { (CommandLine.mk text).invocation (.leading (n + 1)) with words := ws } = .ok c := by
  obtain ⟨l, position, hraw, hfirst, hread⟩ := read_ok hread
  have hphrase := isPhrase_keyText hkey.isWord htext
  obtain rfl : l = ⟨keyText key ++ text⟩ := by
    have hl := (CommandLine.read_ok hraw).1
    rw [hline, hphrase.trimmed.trim_eq] at hl
    rw [← hl]
  have hwords : (CommandLine.mk (keyText key ++ text)).words = key ++ words text := words_keyText text hkey.isWord
  obtain ⟨ws, hw⟩ := List.head?_eq_some_iff.mp (head?_words htext.trimmed htext.ne_nil)
  have hname : ((CommandLine.mk (keyText key ++ text)).leadingName (key.length + 1)).name =
      String.intercalate "_" names := by
    rw [CommandLine.leadingName, commandText, commandWords_intercalate, hwords, hw, List.take_append,
      List.take_of_length_le (by omega), Nat.add_sub_cancel_left, List.take_succ_cons, List.take_zero,
      List.flatMap_append, hkey.commandWords, List.flatMap_singleton, commandWords_eq_nil hspelled, List.append_nil]
  rw [CommandLine.candidates, firstNamed_filter] at hfirst
  obtain ⟨i, kinds, hi, hposition⟩ := firstNamed_range_of_ne_nil
    (f := fun i => (CommandLine.mk (keyText key ++ text)).leadingName (i + 1)) (k := key.length)
    (n := min longestName (CommandLine.mk (keyText key ++ text)).words.length) _
    (by rw [hwords, hw, List.length_append, List.length_cons]; omega)
    (by rw [hname, lookup_eq, hkey.named]; exact List.cons_ne_nil _ _)
  rw [hfirst] at hposition
  obtain ⟨n, rfl⟩ := Nat.exists_eq_add_of_le hi
  cases hposition
  have hinvocation := CommandLine.invocation_keyText (n + 1) text hkey.isWord
  exact ⟨n, _, hinvocation ▸ hread⟩

end Registry

namespace Invocation

variable {i : Invocation}

theorem length_knowledge {content : String} (h : i.knowledge = .ok (.knowledge content)) :
    content.toList.length ≤ i.text.toList.length := by
  rw [knowledge] at h
  split at h
  · cases h
  · split at h
    · cases h
    · cases h
      rw [String.toList_ofList]
      exact length_trim_le _

theorem length_persona {name : String} {description : Option String} (h : i.persona = .ok (.persona name description)) :
    name.toList.length + (description.elim 0 fun text => text.toList.length + 1) ≤ i.text.toList.length := by
  have htrim := length_trim_le i.text.toList
  rw [persona] at h
  dsimp only at h
  cases hsplit : splitOnce isPersonaDivider (trim i.text.toList) with
  | none =>
      rw [hsplit] at h
      dsimp only at h
      split at h
      · cases h
      · cases h
        rw [String.toList_ofList]
        exact htrim
  | some parts =>
      obtain ⟨a, b⟩ := parts
      rw [hsplit] at h
      dsimp only at h
      obtain ⟨c, hc⟩ := eq_append_of_splitOnce hsplit
      have ha := length_trim_le a
      have hb := length_trim_le b
      rw [hc, List.length_append, List.length_cons] at htrim
      split at h
      · cases h
      · cases h
        rw [String.toList_ofList]
        split
        · simp only [Option.elim_none]
          omega
        · simp only [Option.elim_some, String.toList_ofList]
          omega

theorem length_descriptionAfterName {text : String} {rest : List Char} (h : descriptionAfterName text = some rest) :
    rest.length < text.toList.length := by
  have htrim := length_trim_le text.toList
  rw [descriptionAfterName] at h
  split at h
  · rename_i a b hsplit
    obtain ⟨c, hc⟩ := eq_append_of_splitOnce hsplit
    have hb := length_trim_le b
    rw [hc, List.length_append, List.length_cons] at htrim
    split at h
    · cases h
    · cases h
      omega
  · cases h

theorem parameter_ok {d : Declaration} (h : i.parameter = .ok (.parameter d)) :
    i.arguments ≠ [] ∧ d.description.map String.toList = descriptionAfterName i.text := by
  obtain ⟨⟨raw, rest⟩, hnext, h⟩ := bind_ok h
  obtain ⟨name, -, h⟩ := bind_ok h
  refine ⟨by rw [next_ok hnext]; exact List.cons_ne_nil _ _, ?_⟩
  dsimp only at h
  split at h
  · rename_i text htext
    split at h
    · cases h
    · cases h
      simp [htext]
  · rename_i hnone
    cases h
    simp [hnone]

theorem joker_ok {name : String} (h : i.joker = .ok (.joker name)) : i.arguments ≠ [] := by
  obtain ⟨⟨raw, rest⟩, hnext, -⟩ := bind_ok h
  rw [next_ok hnext]
  exact List.cons_ne_nil _ _

theorem postprocess_ok {function : String} (h : i.postprocess = .ok (.postprocess function)) : i.arguments ≠ [] := by
  obtain ⟨⟨raw, rest⟩, hnext, -⟩ := bind_ok h
  rw [next_ok hnext]
  exact List.cons_ne_nil _ _

end Invocation

theorem isSpelled_of_braced {name : String} (h : Name.isSpelled (braced name).toList = true) :
    Name.isSpelled name.toList = true := by
  have hbraces : (braced name).toList = ['\x7b'] ++ (name.toList ++ ['\x7d']) := Name.toList_braced name
  rw [hbraces, Name.isSpelled_append, Name.isSpelled_append] at h
  have hopen : Name.isSpelled ['\x7b'] = false := by decide
  have hclose : Name.isSpelled ['\x7d'] = false := by decide
  simpa [hopen, hclose] using h

namespace Registry

variable {place : Place}

theorem spelled_of_knowledge {content : String} (h : IsPhrase content.toList)
    (hread : builtIn.read .head (Command.knowledge content).write = .ok (.knowledge content)) :
    Name.isSpelled (firstWord content.toList) = true := by
  by_contra hspelled
  obtain ⟨n, ws, hread⟩ := read_of_unspelled isKey_knowledge (by decide) (by rw [Command.write, String.toList_append]; rfl) h
    (Bool.eq_false_iff.mpr hspelled) hread
  have hlength := Invocation.length_knowledge hread
  have hle := length_afterWords_le n h.trimmed
  have hpos := List.length_pos_iff.mpr h.ne_nil
  simp only [CommandLine.invocation, String.toList_ofList] at hlength
  omega

theorem spelled_of_persona {name : String} {description : Option String} (h : (Command.persona name description).WellFormed)
    (hread : builtIn.read place (Command.persona name description).write = .ok (.persona name description)) :
    Name.isSpelled (firstWord name.toList) = true := by
  obtain ⟨⟨hname, -⟩, hdescription⟩ := h
  by_contra hspelled
  rw [Bool.not_eq_true] at hspelled
  have hpos := List.length_pos_iff.mpr hname.ne_nil
  cases description with
  | none =>
      obtain ⟨n, ws, hread⟩ := read_of_unspelled (isKey_persona place) (by decide)
        (by rw [Command.write, String.toList_append]; rfl) hname hspelled hread
      have hlength := Invocation.length_persona hread
      have hle := length_afterWords_le n hname.trimmed
      simp only [CommandLine.invocation, String.toList_ofList, Option.elim_none] at hlength
      omega
  | some text =>
      have hphrase : IsPhrase (name.toList ++ ',' :: ' ' :: text.toList) :=
        hname.append [',', ' '] (hdescription text rfl) (by decide) (by decide)
      have hfirst : Name.isSpelled (firstWord (name.toList ++ ',' :: ' ' :: text.toList)) = false := by
        by_contra hfirst
        rw [Bool.not_eq_false] at hfirst
        have hcomma : firstWord (',' :: ' ' :: text.toList) = [','] := rfl
        have happend := Name.isSpelled_mono (firstWord_append_subset _ _) hfirst
        rw [Name.isSpelled_append, hspelled, hcomma] at happend
        exact absurd happend (by decide)
      obtain ⟨n, ws, hread⟩ := read_of_unspelled (isKey_persona place) (by decide) (by simp [Command.write, keyText])
        hphrase hfirst hread
      have hlength := Invocation.length_persona hread
      have hle := length_afterWords_le n hphrase.trimmed
      simp only [CommandLine.invocation, String.toList_ofList, Option.elim_some] at hlength
      simp only [List.length_append, List.length_cons] at hle
      omega

theorem spelled_of_parameter {d : Declaration} (h : d.WellFormed)
    (hread : builtIn.read place (Command.parameter d).write = .ok (.parameter d)) : Name.isSpelled d.name.toList = true := by
  have hword := Name.braced_isWord h.valid
  by_contra hspelled
  have hbraced : Name.isSpelled (braced d.name).toList = false := by
    rw [Bool.eq_false_iff]
    exact fun hb => hspelled (isSpelled_of_braced hb)
  have hkey : ((parameterKey d.isInput d.isOutput).map String.toList).length < longestName := by
    cases d.isInput <;> cases d.isOutput <;> decide
  have hfirst : Name.isSpelled (firstWord d.text) = false := by
    rw [Declaration.text]
    cases d.description with
    | none => rwa [Option.map_none, Option.getD_none, List.append_nil, firstWord_of_isWord hword]
    | some text => rwa [Option.map_some, Option.getD_some, firstWord_isWord_append _ hword]
  obtain ⟨n, ws, hread⟩ := read_of_unspelled (isKey_parameter place d.isInput d.isOutput) hkey d.write_eq
    (Declaration.isPhrase_text h) hfirst hread
  obtain ⟨hne, hdescription⟩ := Invocation.parameter_ok hread
  rw [Declaration.text] at hne hdescription
  cases htext : d.description with
  | none =>
      rw [htext, Option.map_none, Option.getD_none, List.append_nil] at hne
      exact hne (CommandLine.arguments_isWord n hword)
  | some text =>
      rw [htext, Option.map_some, Option.map_some, Option.getD_some] at hdescription
      have hlength := Invocation.length_descriptionAfterName hdescription.symm
      simp only [CommandLine.invocation, String.toList_ofList] at hlength
      rw [afterWords_isWord_append n _ hword, afterWords_cons_blank n _ rfl] at hlength
      exact absurd (afterWords_isSuffix n text.toList).length_le (Nat.not_le.mpr hlength)

theorem spelled_of_joker {name : String} (h : Name.Valid name)
    (hread : builtIn.read .task (Command.joker name).write = .ok (.joker name)) : Name.isSpelled name.toList = true := by
  have hword := Name.braced_isWord h
  by_contra hspelled
  have hfirst : Name.isSpelled (firstWord (braced name).toList) = false := by
    rw [firstWord_of_isWord hword, Bool.eq_false_iff]
    exact fun hb => hspelled (isSpelled_of_braced hb)
  obtain ⟨n, ws, hread⟩ := read_of_unspelled isKey_joker (by decide) (by rw [Command.write, String.toList_append]; rfl)
    hword.isPhrase hfirst hread
  exact Invocation.joker_ok hread (CommandLine.arguments_isWord n hword)

theorem spelled_of_postprocess {function : String} (h : Name.isIdentifier function = true)
    (hread : builtIn.read .task (Command.postprocess function).write = .ok (.postprocess function)) :
    Name.isSpelled function.toList = true := by
  have hword : IsWord function.toList := (isArgument_of_isIdentifier h).isWord
  by_contra hspelled
  obtain ⟨n, ws, hread⟩ := read_of_unspelled isKey_postprocess (by decide)
    (by rw [Command.write, String.toList_append]; rfl) hword.isPhrase
    (by rwa [firstWord_of_isWord hword, Bool.eq_false_iff]) hread
  exact Invocation.postprocess_ok hread (CommandLine.arguments_isWord n hword)

/-- Writing and reading a command give it back exactly when what follows its name begins with a word that has a letter or
digit: a word without one is passed over when names are compared, and so is taken for a part of the name. -/
theorem read_write_iff_spelled {c : Command} (hc : c.WellFormed) (hplace : c.kind.usableIn place = true) :
    (∃ line, builtIn.write? c = some line ∧ builtIn.read place line = .ok c) ↔ c.Spelled := by
  constructor
  · rintro ⟨line, hwrite, hread⟩
    rw [write?_builtIn, Option.some_inj] at hwrite
    subst hwrite
    cases c with
    | parameter declaration => exact spelled_of_parameter hc hread
    | persona name description => exact spelled_of_persona hc hread
    | knowledge content => cases place with
      | head => exact spelled_of_knowledge hc.1 hread
      | task => cases hplace
    | joker name => cases place with
      | head => cases hplace
      | task => exact spelled_of_joker hc hread
    | postprocess function => cases place with
      | head => cases hplace
      | task => exact spelled_of_postprocess hc hread
    | _ => trivial
  · exact fun hs => ⟨c.write, write?_builtIn c, (read_write hc hs hplace).read⟩

theorem read_write_iff_spelled_persona :
    ∃ line, builtIn.write? (.persona "Šárka Иванова" (some "«editor», strict")) = some line ∧
      builtIn.read .task line = .ok (.persona "Šárka Иванова" (some "«editor», strict")) := by
  have hname : Persona.WellNamed "Šárka Иванова" := by decide
  have hdescription : IsPhrase "«editor», strict".toList := by decide
  have hc : (Command.persona "Šárka Иванова" (some "«editor», strict")).WellFormed := by
    refine ⟨hname, fun text htext => ?_⟩
    cases htext
    exact hdescription
  have hs : Name.isSpelled (firstWord "Šárka Иванова".toList) = true := by decide +kernel
  exact (read_write_iff_spelled hc rfl).mpr hs

/-- A text in a script without such letters is lost. -/
theorem knowledge_not_read_back :
    (Command.knowledge "Привет").WellFormed ∧ builtIn.write? (.knowledge "Привет") = some "KNOWLEDGE Привет" ∧
      ∀ c, builtIn.read .head "KNOWLEDGE Привет" ≠ .ok c := by
  have hphrase : IsPhrase "Привет".toList := by decide
  have hread : (builtIn.read .head "KNOWLEDGE Привет").isOk = false := by decide +kernel
  refine ⟨⟨hphrase, by decide⟩, by decide, fun c hc => ?_⟩
  rw [hc] at hread
  cases hread

end Registry

end BookCompiler
