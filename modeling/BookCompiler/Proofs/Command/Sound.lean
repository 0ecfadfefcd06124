import BookCompiler.Command.Registry
import BookCompiler.Proofs.Name.Reference
import BookCompiler.Proofs.Outcome

namespace BookCompiler

open Text

/-- A text of one line that can stand in a command. -/
structure Text.IsPhrase (s : List Char) : Prop where
  ne_nil : s ≠ []
  trimmed : Trimmed s
  noFeed : '\n' ∉ s
  noReturn : '\r' ∉ s

instance (s : List Char) : Decidable (IsPhrase s) :=
  decidable_of_iff (s.isEmpty = false ∧ Trimmed s ∧ '\n' ∉ s ∧ '\r' ∉ s)
    ⟨fun h => ⟨by simpa using h.1, h.2.1, h.2.2.1, h.2.2.2⟩, fun h => ⟨by simpa using h.1, h.2, h.3, h.4⟩⟩

structure IsArgument (s : String) : Prop where
  isWord : IsWord s.toList
  bare : Bare isMark s.toList

instance (s : String) : Decidable (IsArgument s) :=
  decidable_of_iff (IsWord s.toList ∧ Bare isMark s.toList) ⟨fun h => ⟨h.1, h.2⟩, fun h => ⟨h.isWord, h.bare⟩⟩

namespace Invocation

structure Proper (i : Invocation) : Prop where
  argument : ∀ a ∈ i.arguments, IsArgument a
  noFeed : '\n' ∉ i.text.toList
  noReturn : '\r' ∉ i.text.toList

end Invocation

theorem afterWords_isSuffix (n : Nat) (s : List Char) : afterWords n s <:+ s := by
  induction n generalizing s with
  | zero => exact List.dropWhile_suffix isBlank
  | succ n ih =>
      exact (ih _).trans ((List.dropWhile_suffix _).trans (List.dropWhile_suffix isBlank))

theorem beforeLastWord_isInfix (s : List Char) : beforeLastWord s <:+: s :=
  (trim_isInfix _).trans (dropEndWhile_isPrefix _ s).isInfix

theorem CommandLine.read_ok {line : String} {l : CommandLine} (h : CommandLine.read line = .ok l) :
    l.raw = trim line.toList ∧ '\n' ∉ l.raw ∧ '\r' ∉ l.raw := by
  rw [CommandLine.read] at h
  split at h
  · cases h
  · rename_i hn
    cases h
    exact ⟨rfl, by simpa using hn⟩

theorem CommandLine.invocation_proper {line : String} {l : CommandLine} (h : CommandLine.read line = .ok l)
    (position : NamePosition) : (l.invocation position).Proper := by
  obtain ⟨-, hfeed, hreturn⟩ := CommandLine.read_ok h
  have hproper {beside : List (List Char)} {text : List Char} (hbeside : beside ⊆ l.words) (htext : text ⊆ l.raw) :
      Invocation.Proper
        { words := commandWords l.raw
          arguments := ((beside.map bareArgument).filter (!·.isEmpty)).map String.ofList
          text := String.ofList text } := by
    constructor
    · intro a ha
      obtain ⟨s, hs, rfl⟩ := List.mem_map.mp ha
      obtain ⟨hmem, hne⟩ := List.mem_filter.mp hs
      obtain ⟨w, hw, rfl⟩ := List.mem_map.mp hmem
      have hword : IsWord w := isWord_of_mem_words (hbeside hw)
      refine ⟨⟨by simpa using hne, ?_⟩, ?_⟩
      · intro c hc
        rw [String.toList_ofList] at hc
        exact hword.2 c ((trimMatching_isInfix isMark w).subset hc)
      · rw [String.toList_ofList]
        exact trimMatching_bare isMark w
    · rw [String.toList_ofList]
      exact fun hm => hfeed (htext hm)
    · rw [String.toList_ofList]
      exact fun hm => hreturn (htext hm)
  cases position with
  | leading count => exact hproper (List.drop_subset count _) (afterWords_isSuffix count l.raw).subset
  | trailing => exact hproper (List.dropLast_subset _) (beforeLastWord_isInfix l.raw).subset

def Requirement.WellFormed : Requirement → Prop
  | variant v => v ≠ .embedding
  | name n => IsArgument n
  | temperature t => (∃ s, Decimal.read s = some t) ∧ t.isBelowZero = false ∧ t.atMost 2 = true
  | maxTokens _ => True
  | seed _ => True

structure Declaration.WellFormed (d : Declaration) : Prop where
  valid : Name.Valid d.name
  description : ∀ text ∈ d.description, IsPhrase text.toList ∧ '\x7b' ∉ text.toList ∧ '\x7d' ∉ text.toList
  oneRole : ¬ (d.isInput = true ∧ d.isOutput = true)

structure Foreach.WellFormed (f : Foreach) : Prop where
  format : ∃ format ∈ ForeachFormat.all, format.name = f.format ∧ f.subformat ∈ format.parts
  parameter : Name.Valid f.parameter
  inputs_ne_nil : f.inputs ≠ []
  inputs : ∀ name ∈ f.inputs, Name.Valid name
  output : Name.Valid f.output

structure Persona.WellNamed (name : String) : Prop where
  isPhrase : IsPhrase name.toList
  undivided : ∀ c ∈ name.toList, Invocation.isPersonaDivider c = false

instance (name : String) : Decidable (Persona.WellNamed name) :=
  decidable_of_iff (IsPhrase name.toList ∧ name.toList.all (!Invocation.isPersonaDivider ·) = true)
    ⟨fun h => ⟨h.1, by simpa using h.2⟩, fun h => ⟨h.1, by simpa using h.2⟩⟩

/-- What a command that has been read is like. -/
def Command.WellFormed : Command → Prop
  | bookVersion version => IsArgument version ∧ Version.check version.toList = .ok ()
  | url address => IsArgument address ∧ Invocation.urlFault address.toList = none
  | parameter declaration => declaration.WellFormed
  | persona name description => Persona.WellNamed name ∧ ∀ text ∈ description, IsPhrase text.toList
  | knowledge content => IsPhrase content.toList ∧ "http://".toList.isPrefixOf content.toList = false
  | formfactor name => ∃ f ∈ Formfactor.all, f.name = name
  | model requirement => requirement.WellFormed
  | joker name => Name.Valid name
  | postprocess function => Name.isIdentifier function = true
  | foreach loop => loop.WellFormed
  | _ => True

namespace Invocation

variable {i : Invocation} {c : Command}

theorem next_ok {a : Argument} {arguments rest : List String} {first : String}
    (h : next a arguments = .ok (first, rest)) : arguments = first :: rest := by
  cases arguments with
  | nil => cases h
  | cons b bs =>
      rw [next] at h
      cases h
      rfl

theorem valid_of_reference {raw name : String} (h : reference raw = .ok name) : Name.Valid name := by
  rw [reference] at h
  split at h
  · rename_i hname
    cases h
    exact Name.valid_of_readReference hname
  · cases h

theorem dropVersionWord_subset (arguments : List String) : dropVersionWord arguments ⊆ arguments := by
  cases arguments with
  | nil => exact List.Subset.refl []
  | cons first rest =>
      rw [dropVersionWord]
      split
      · exact List.subset_cons_self first rest
      · exact List.Subset.refl _

theorem bookVersion_wellFormed (hi : i.Proper) (h : i.bookVersion = .ok c) : c.WellFormed := by
  rw [bookVersion] at h
  obtain ⟨⟨version, rest⟩, hnext, h⟩ := bind_ok h
  obtain ⟨-, -, h⟩ := bind_ok h
  have hmem : version ∈ i.arguments := dropVersionWord_subset _ (by simp [next_ok hnext])
  split at h
  · rename_i hcheck
    cases h
    exact ⟨hi.argument version hmem, hcheck⟩
  · cases h

theorem url_wellFormed (hi : i.Proper) (h : i.url = .ok c) : c.WellFormed := by
  rw [Invocation.url] at h
  obtain ⟨⟨address, rest⟩, hnext, h⟩ := bind_ok h
  obtain ⟨-, -, h⟩ := bind_ok h
  have hmem : address ∈ i.arguments := by simp [next_ok hnext]
  split at h
  · cases h
  · rename_i hfault
    cases h
    exact ⟨hi.argument address hmem, hfault⟩

theorem isPhrase_trim {s : List Char} (hne : trim s ≠ []) (hfeed : '\n' ∉ s) (hreturn : '\r' ∉ s) :
    IsPhrase (trim s) :=
  ⟨hne, trim_trimmed s, fun hm => hfeed (mem_trim hm), fun hm => hreturn (mem_trim hm)⟩

theorem descriptionAfterName_isPhrase {text : String} {d : List Char} (hfeed : '\n' ∉ text.toList)
    (hreturn : '\r' ∉ text.toList) (h : descriptionAfterName text = some d) : IsPhrase d := by
  rw [descriptionAfterName] at h
  split at h
  · rename_i name rest hsplit
    split at h
    · cases h
    · rename_i hne
      cases h
      have hsub : rest ⊆ text.toList := fun x hx => mem_trim ((splitOnce_subset hsplit).2.1 hx)
      exact isPhrase_trim (by simpa using hne) (fun hm => hfeed (hsub hm)) fun hm => hreturn (hsub hm)
  · cases h

theorem not_input_and_output (line : List Char) :
    ¬ ("INPUT".toList.isPrefixOf line = true ∧ "OUTPUT".toList.isPrefixOf line = true) := by
  rintro ⟨hin, hout⟩
  rcases List.prefix_or_prefix_of_prefix (List.isPrefixOf_iff_prefix.mp hin) (List.isPrefixOf_iff_prefix.mp hout) with
    h | h
  · exact absurd (List.isPrefixOf_iff_prefix.mpr h) (by decide)
  · exact absurd (List.isPrefixOf_iff_prefix.mpr h) (by decide)

theorem parameter_wellFormed (hi : i.Proper) (h : i.parameter = .ok c) : c.WellFormed := by
  rw [Invocation.parameter] at h
  obtain ⟨⟨raw, rest⟩, -, h⟩ := bind_ok h
  obtain ⟨name, hname, h⟩ := bind_ok h
  dsimp only at h
  cases hd : descriptionAfterName i.text with
  | none =>
      rw [hd] at h
      cases h
      exact ⟨valid_of_reference hname, (fun text htext => by cases htext), not_input_and_output _⟩
  | some d =>
      rw [hd] at h
      dsimp only at h
      split at h
      · cases h
      · rename_i hno
        cases h
        refine ⟨valid_of_reference hname, ?_, not_input_and_output _⟩
        intro text htext
        cases htext
        rw [String.toList_ofList]
        exact ⟨descriptionAfterName_isPhrase hi.noFeed hi.noReturn hd, by simpa using hno⟩

theorem persona_wellFormed (hi : i.Proper) (h : i.persona = .ok c) : c.WellFormed := by
  have hfeed : '\n' ∉ trim i.text.toList := fun hm => hi.noFeed (mem_trim hm)
  have hreturn : '\r' ∉ trim i.text.toList := fun hm => hi.noReturn (mem_trim hm)
  rw [Invocation.persona] at h
  dsimp only at h
  cases hsplit : splitOnce isPersonaDivider (trim i.text.toList) with
  | none =>
      rw [hsplit] at h
      dsimp only at h
      split at h
      · cases h
      · rename_i hne
        cases h
        refine ⟨⟨?_, ?_⟩, fun text htext => by cases htext⟩
        · rw [String.toList_ofList]
          exact isPhrase_trim (by simpa using hne) hi.noFeed hi.noReturn
        · rw [String.toList_ofList]
          exact splitOnce_eq_none_iff.mp hsplit
  | some parts =>
      obtain ⟨name, description⟩ := parts
      obtain ⟨hname, hdescription, hundivided⟩ := splitOnce_subset hsplit
      rw [hsplit] at h
      dsimp only at h
      split at h
      · cases h
      · rename_i hne
        cases h
        refine ⟨⟨?_, ?_⟩, ?_⟩
        · rw [String.toList_ofList]
          exact isPhrase_trim (by simpa using hne) (fun hm => hfeed (hname hm)) fun hm => hreturn (hname hm)
        · rw [String.toList_ofList]
          exact fun c hc => hundivided c (mem_trim hc)
        · intro text htext
          split at htext
          · cases htext
          · rename_i hne
            cases htext
            rw [String.toList_ofList]
            exact isPhrase_trim (by simpa using hne) (fun hm => hfeed (hdescription hm))
              fun hm => hreturn (hdescription hm)

theorem knowledge_wellFormed (hi : i.Proper) (h : i.knowledge = .ok c) : c.WellFormed := by
  rw [Invocation.knowledge] at h
  split at h
  · cases h
  · rename_i hne
    split at h
    · cases h
    · rename_i hhttp
      cases h
      rw [Command.WellFormed, String.toList_ofList]
      exact ⟨isPhrase_trim (by simpa using hne) hi.noFeed hi.noReturn, Bool.eq_false_iff.mpr hhttp⟩

theorem formfactor_wellFormed (h : i.formfactor = .ok c) : c.WellFormed := by
  rw [Invocation.formfactor] at h
  split at h
  · cases h
  · split at h
    · rename_i f hf
      cases h
      exact ⟨f, List.mem_of_find?_eq_some hf, rfl⟩
    · cases h

theorem requirement_wellFormed {key value : String} {r : Requirement} (hvalue : IsArgument value)
    (h : requirement key value = .ok r) : r.WellFormed := by
  rw [requirement] at h
  split at h
  · rw [modelVariant] at h
    split at h
    · cases h
      exact ModelVariant.noConfusion
    · split at h
      · cases h
        exact ModelVariant.noConfusion
      · split at h <;> cases h
  · split at h
    · cases h
      exact hvalue
    · split at h
      · rw [Invocation.temperature] at h
        split at h
        · cases h
        · rename_i t ht
          split at h
          · cases h
          · rename_i hrange
            cases h
            exact ⟨⟨value, ht⟩, by simpa using hrange⟩
      · split at h
        · split at h <;> cases h
          trivial
        · split at h
          · split at h <;> cases h
            trivial
          · cases h

theorem model_wellFormed (hi : i.Proper) (h : i.model = .ok c) : c.WellFormed := by
  rw [Invocation.model] at h
  split at h
  · cases h
  · rename_i value hvalue
    have hargument := hi.argument value (List.mem_of_mem_getLast? hvalue)
    split at h
    · cases h
    · cases hr : requirement (Name.screaming (String.intercalate " " (i.arguments.dropLast))) value with
      | error e => rw [hr] at h; cases h
      | ok r =>
          rw [hr] at h
          cases h
          exact requirement_wellFormed hargument hr

theorem joker_wellFormed (h : i.joker = .ok c) : c.WellFormed := by
  rw [Invocation.joker] at h
  obtain ⟨⟨raw, rest⟩, -, h⟩ := bind_ok h
  obtain ⟨name, hname, h⟩ := bind_ok h
  obtain ⟨-, -, h⟩ := bind_ok h
  cases h
  exact valid_of_reference hname

theorem postprocess_wellFormed (h : i.postprocess = .ok c) : c.WellFormed := by
  rw [Invocation.postprocess] at h
  obtain ⟨⟨function, rest⟩, -, h⟩ := bind_ok h
  obtain ⟨-, -, h⟩ := bind_ok h
  split at h
  · rename_i hid
    cases h
    exact hid
  · cases h

theorem foreachFormat_ok {rawFormat rawPart format part : String}
    (h : foreachFormat rawFormat rawPart = .ok (format, part)) :
    ∃ f ∈ ForeachFormat.all, f.name = format ∧ part ∈ f.parts := by
  rw [foreachFormat] at h
  split at h
  · cases h
  · rename_i f hf
    split at h
    · cases h
    · split at h
      · rename_i p hp
        cases h
        exact ⟨f, List.mem_of_find?_eq_some hf, rfl, List.mem_of_find?_eq_some hp⟩
      · cases h

theorem subparameters_ok {pieces : List (List Char)} {inputs outputs : List String}
    (h : subparameters pieces = .ok (inputs, outputs)) : ∀ name ∈ inputs ++ outputs, Name.Valid name := by
  fun_induction subparameters pieces generalizing inputs outputs with
  | case1 => cases h; simp
  | case2 piece rest ih =>
      obtain ⟨name, hname, h⟩ := bind_ok h
      obtain ⟨⟨inputs', outputs'⟩, hrest, h⟩ := bind_ok h
      cases h
      intro n hn
      rw [List.mem_append, List.mem_cons] at hn
      rcases hn with hn | rfl | hn
      · exact ih hrest n (List.mem_append_left _ hn)
      · exact valid_of_reference hname
      · exact ih hrest n (List.mem_append_right _ hn)
  | case3 piece rest _ ih =>
      obtain ⟨name, hname, h⟩ := bind_ok h
      obtain ⟨⟨inputs', outputs'⟩, hrest, h⟩ := bind_ok h
      cases h
      intro n hn
      rw [List.cons_append, List.mem_cons] at hn
      rcases hn with rfl | hn
      · exact valid_of_reference hname
      · exact ih hrest n hn

theorem outputSubparameter_ok {format part output : String} {outputs : List String}
    (hvalid : ∀ name ∈ outputs, Name.Valid name) (h : outputSubparameter format part outputs = .ok output) :
    Name.Valid output := by
  unfold outputSubparameter at h
  split at h
  · cases h
    exact hvalid output List.mem_cons_self
  · split at h
    · cases h
      decide +kernel
    · cases h
  · cases h

theorem foreach_wellFormed (h : i.foreach = .ok c) : c.WellFormed := by
  rw [Invocation.foreach] at h
  obtain ⟨⟨rawFormat, rest⟩, -, h⟩ := bind_ok h
  obtain ⟨⟨rawPart, rest⟩, -, h⟩ := bind_ok h
  obtain ⟨⟨format, part⟩, hformat, h⟩ := bind_ok h
  obtain ⟨⟨rawParameter, rest⟩, -, h⟩ := bind_ok h
  obtain ⟨parameter, hparameter, h⟩ := bind_ok h
  obtain ⟨⟨arrow, rest⟩, -, h⟩ := bind_ok h
  dsimp only at h
  split at h
  · cases h
  · obtain ⟨⟨inputs, outputs⟩, hsub, h⟩ := bind_ok h
    have hvalid := subparameters_ok hsub
    dsimp only at h
    split at h
    · cases h
    · rename_i hne
      obtain ⟨output, houtput, h⟩ := bind_ok h
      cases h
      exact
        { format := foreachFormat_ok hformat
          parameter := valid_of_reference hparameter
          inputs_ne_nil := by simpa using hne
          inputs := fun name hname => hvalid name (List.mem_append_left _ hname)
          output := outputSubparameter_ok (fun name hname => hvalid name (List.mem_append_right _ hname)) houtput }

theorem sectionType_wellFormed (h : i.sectionType = .ok c) : c.WellFormed := by
  rw [Invocation.sectionType] at h
  split at h <;> cases h
  trivial

theorem expectAmount_wellFormed (h : i.expectAmount = .ok c) : c.WellFormed := by
  rw [Invocation.expectAmount] at h
  obtain ⟨⟨rawSign, rest⟩, -, h⟩ := bind_ok h
  obtain ⟨sign, -, h⟩ := bind_ok h
  obtain ⟨⟨rawAmount, rest⟩, -, h⟩ := bind_ok h
  obtain ⟨amount, -, h⟩ := bind_ok h
  obtain ⟨⟨rawUnit, rest⟩, -, h⟩ := bind_ok h
  obtain ⟨unit, -, h⟩ := bind_ok h
  obtain ⟨-, -, h⟩ := bind_ok h
  cases h
  trivial

theorem expectFormat_wellFormed (h : i.expectFormat = .ok c) : c.WellFormed := by
  rw [Invocation.expectFormat] at h
  split at h <;> cases h
  trivial

end Invocation

theorem CommandKind.read_wellFormed {kind : CommandKind} {i : Invocation} {c : Command} (hi : i.Proper)
    (h : kind.read i = .ok c) : c.WellFormed := by
  rw [CommandKind.read.eq_def] at h
  cases kind with
  | bookVersion => exact Invocation.bookVersion_wellFormed hi h
  | url => exact Invocation.url_wellFormed hi h
  | formfactor => exact Invocation.formfactor_wellFormed h
  | parameter => exact Invocation.parameter_wellFormed hi h
  | persona => exact Invocation.persona_wellFormed hi h
  | knowledge => exact Invocation.knowledge_wellFormed hi h
  | sectionType => exact Invocation.sectionType_wellFormed h
  | model => exact Invocation.model_wellFormed hi h
  | expectAmount => exact Invocation.expectAmount_wellFormed h
  | expectFormat => exact Invocation.expectFormat_wellFormed h
  | joker => exact Invocation.joker_wellFormed h
  | postprocess => exact Invocation.postprocess_wellFormed h
  | foreach => exact Invocation.foreach_wellFormed h
  | action => cases h; trivial
  | instrument => cases h; trivial

theorem Registry.read_wellFormed {place : Place} {line : String} {c : Command}
    (h : builtIn.read place line = .ok c) : c.WellFormed := by
  rw [Registry.read] at h
  obtain ⟨l, hline, h⟩ := bind_ok h
  obtain ⟨⟨kind, position⟩, -, h⟩ := bind_ok h
  dsimp only at h
  split at h
  · rename_i command hread
    cases h
    exact CommandKind.read_wellFormed (CommandLine.invocation_proper hline position) hread
  · cases h

end BookCompiler
