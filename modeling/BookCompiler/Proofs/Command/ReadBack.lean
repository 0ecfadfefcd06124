import BookCompiler.Proofs.Command.Key
import BookCompiler.Proofs.Decimal.ReadBack

namespace BookCompiler

open Text

theorem Version.digit_of_check {s : List Char} (h : check s = .ok ()) : ∃ c ∈ s.head?, c.isDigit = true := by
  cases s with
  | nil => cases h
  | cons c s =>
      refine ⟨c, rfl, ?_⟩
      by_contra hc
      have hspan : Decimal.digitSpan (c :: s) = ([], c :: s) := by simp [Decimal.digitSpan, hc]
      have hnumber : number .major (c :: s) = .error (.unexpected .major c) := by rw [number, hspan]
      rw [check, hnumber] at h
      cases h

theorem toUpper_of_isDigit {c : Char} (h : c.isDigit = true) : c.toUpper = c := by
  refine dif_neg ?_
  simp [Char.isDigit] at h
  rintro ⟨hlow, hhigh⟩
  have := h.2
  grind

theorem bookVersion_readBack {version : String} (h : (Command.bookVersion version).WellFormed) :
    Registry.ReadsBack .head (Command.bookVersion version).write (.bookVersion version) := by
  obtain ⟨hargument, hcheck⟩ := h
  obtain ⟨c, hc, hdigit⟩ := Version.digit_of_check hcheck
  have hspelled : Name.isSpelled version.toList = true :=
    Name.isSpelled_of_mem (List.mem_of_mem_head? hc) (by simp [Char.isAlphanum, hdigit])
  have hkey : IsKey .head .bookVersion ["BOOK".toList, "VERSION".toList] ["BOOK", "VERSION"] "BOOK_VERSION_" :=
    ⟨by simp, by decide, by decide, by simp, rfl, rfl, rfl⟩
  have hdrop : Invocation.dropVersionWord [version] = [version] := by
    rw [Invocation.dropVersionWord, if_neg]
    intro hword
    rw [← List.cons_head?_tail hc, List.map_cons] at hword
    have hv : c.toUpper = 'V' := (List.cons.inj hword).1
    rw [toUpper_of_isDigit hdigit] at hv
    rw [hv] at hdigit
    exact absurd hdigit (by decide)
  apply Registry.read_of_spelled version.toList hkey (String.toList_append ..)
    hargument.isWord.isPhrase (by rwa [firstWord_of_isWord hargument.isWord])
  rw [argumentsOf_argument hargument]
  rw [CommandKind.read, Invocation.bookVersion, hdrop]
  dsimp only [Invocation.next, Invocation.noMore, bind, Except.bind]
  rw [hcheck]
  rfl

theorem url_readBack {address : String} (h : (Command.url address).WellFormed) :
    Registry.ReadsBack .head (Command.url address).write (.url address) := by
  obtain ⟨hargument, hfault⟩ := h
  have hsecure : "https://".toList <+: address.toList := by
    rw [Invocation.urlFault] at hfault
    split at hfault
    · cases hfault
    · split at hfault
      · cases hfault
      · rename_i hprefix
        simpa using hprefix
  have hspelled : Name.isSpelled address.toList = true :=
    Name.isSpelled_of_mem (hsecure.subset (by simp : 'h' ∈ "https://".toList)) rfl
  have hkey : IsKey .head .url ["URL".toList] ["URL"] "URL_" :=
    ⟨by simp, by decide, by decide, by simp, rfl, rfl, rfl⟩
  apply Registry.read_of_spelled address.toList hkey (String.toList_append ..)
    hargument.isWord.isPhrase (by rwa [firstWord_of_isWord hargument.isWord])
  rw [argumentsOf_argument hargument, CommandKind.read, Invocation.url]
  dsimp only [Invocation.next, Invocation.noMore, bind, Except.bind]
  rw [hfault]
  rfl

theorem isKey_knowledge : IsKey .head .knowledge ["KNOWLEDGE".toList] ["KNOWLEDGE"] "KNOWLEDGE_" :=
  ⟨by simp, by decide, by decide, by simp, rfl, rfl, rfl⟩

theorem knowledge_readBack {content : String} (h : (Command.knowledge content).WellFormed)
    (hspelled : Name.isSpelled (firstWord content.toList) = true) :
    Registry.ReadsBack .head (Command.knowledge content).write (.knowledge content) := by
  obtain ⟨hphrase, hsecure⟩ := h
  apply Registry.read_of_spelled content.toList isKey_knowledge (String.toList_append ..) hphrase hspelled
  rw [CommandKind.read, Invocation.knowledge]
  dsimp only
  rw [String.toList_ofList, hphrase.trimmed.trim_eq, if_neg (by simpa using hphrase.ne_nil),
    if_neg (by rw [hsecure]; decide), String.ofList_toList]

theorem isKey_persona (place : Place) : IsKey place .persona ["PERSONA".toList] ["PERSONA"] "PERSONA_" := by
  cases place <;> exact ⟨by simp, by decide, by decide, by simp, rfl, rfl, rfl⟩

theorem persona_readBack {name : String} {description : Option String} (place : Place)
    (h : (Command.persona name description).WellFormed) (hspelled : Name.isSpelled (firstWord name.toList) = true) :
    Registry.ReadsBack place (Command.persona name description).write (.persona name description) := by
  obtain ⟨⟨hname, hundivided⟩, hdescription⟩ := h
  cases description with
  | none =>
      apply Registry.read_of_spelled name.toList (isKey_persona place)
        (String.toList_append ..) hname hspelled
      have hsplit := splitOnce_eq_none_iff.mpr hundivided
      rw [CommandKind.read, Invocation.persona]
      dsimp only
      rw [String.toList_ofList, hname.trimmed.trim_eq, hsplit]
      simp [hname.ne_nil]
  | some text =>
      have htext := hdescription text rfl
      have hphrase : IsPhrase (name.toList ++ ',' :: ' ' :: text.toList) :=
        hname.append [',', ' '] htext (by decide) (by decide)
      have hfirst := Name.isSpelled_mono (firstWord_isPrefix_append name.toList (',' :: ' ' :: text.toList)).subset hspelled
      have hsplit : splitOnce Invocation.isPersonaDivider (name.toList ++ ',' :: ' ' :: text.toList) =
          some (name.toList, ' ' :: text.toList) := splitOnce_append _ hundivided rfl
      apply Registry.read_of_spelled _ (isKey_persona place) (by simp [Command.write, keyText]) hphrase hfirst
      rw [CommandKind.read, Invocation.persona]
      dsimp only
      rw [String.toList_ofList, hphrase.trimmed.trim_eq, hsplit]
      have hblank : trim (' ' :: text.toList) = text.toList := by
        rw [trim_cons_blank _ rfl, htext.trimmed.trim_eq]
      simp [hname.trimmed.trim_eq, hblank, hname.ne_nil, htext.ne_nil]

def parameterKey (isInput isOutput : Bool) : List String :=
  (if isInput then ["INPUT"] else if isOutput then ["OUTPUT"] else []) ++ ["PARAMETER"]

theorem isKey_parameter (place : Place) (isInput isOutput : Bool) :
    IsKey place .parameter ((parameterKey isInput isOutput).map String.toList) (parameterKey isInput isOutput)
      (String.intercalate "_" (parameterKey isInput isOutput) ++ "_") := by
  cases place <;> cases isInput <;> cases isOutput <;>
    exact ⟨by decide, by decide, by decide, by decide, rfl, rfl, rfl⟩

def Declaration.text (d : Declaration) : List Char :=
  (braced d.name).toList ++ (d.description.map fun text => ' ' :: text.toList).getD []

theorem Declaration.write_eq (d : Declaration) :
    d.write.toList = keyText ((parameterKey d.isInput d.isOutput).map String.toList) ++ d.text := by
  obtain ⟨name, description, isInput, isOutput⟩ := d
  cases description <;> cases isInput <;> cases isOutput <;>
    simp [write, text, parameterKey, keyText]

theorem braced_isPlainChar {name : String} (h : Name.Valid name) : ∀ c ∈ (braced name).toList, IsPlainChar c := by
  intro c hc
  rw [Name.toList_braced, List.mem_cons, List.mem_append, List.mem_singleton] at hc
  rcases hc with rfl | hc | rfl
  · decide
  · have hchar := h.isWordChar c hc
    rw [Name.isWordChar, Bool.or_eq_true, decide_eq_true_eq] at hchar
    rcases hchar with halnum | rfl
    · exact isPlainChar_of_isAlphanum halnum
    · decide
  · decide

theorem braced_isArgument {name : String} (h : Name.Valid name) : IsArgument (braced name) :=
  isArgument_of_isPlainChar (by simp [Name.toList_braced]) (braced_isPlainChar h)

theorem isSpelled_braced {name : String} (h : Name.isSpelled name.toList = true) :
    Name.isSpelled (braced name).toList = true := by
  apply Name.isSpelled_mono _ h
  rw [Name.toList_braced]
  exact fun c hc => List.mem_cons_of_mem _ (List.mem_append_left _ hc)

theorem descriptionAfterName_text {d : Declaration} (h : d.WellFormed) :
    Invocation.descriptionAfterName (String.ofList d.text) = d.description.map String.toList := by
  have hword := Name.braced_isWord h.valid
  obtain ⟨name, description, isInput, isOutput⟩ := d
  rw [Invocation.descriptionAfterName, String.toList_ofList, Declaration.text]
  cases description with
  | none =>
      rw [Option.map_none, Option.getD_none, List.append_nil, hword.trimmed.trim_eq,
        splitOnce_eq_none_iff.mpr hword.2]
      rfl
  | some text =>
      have htext := (h.description text rfl).1
      have hphrase : IsPhrase ((braced name).toList ++ ' ' :: text.toList) :=
        hword.isPhrase.append [' '] htext (by decide) (by decide)
      rw [Option.map_some, Option.getD_some, hphrase.trimmed.trim_eq, splitOnce_append _ hword.2 rfl]
      simp [htext.trimmed.trim_eq, htext.ne_nil]

theorem Declaration.isPhrase_text {d : Declaration} (h : d.WellFormed) : IsPhrase d.text := by
  have hword := Name.braced_isWord h.valid
  obtain ⟨name, description, isInput, isOutput⟩ := d
  cases description with
  | none => simpa [text] using hword.isPhrase
  | some text => exact hword.isPhrase.append [' '] (h.description text rfl).1 (by decide) (by decide)

theorem role_of_parameterKey (ws : List String) {isInput isOutput : Bool} (h : ¬ (isInput = true ∧ isOutput = true)) :
    "INPUT".toList.isPrefixOf (String.intercalate "_" (parameterKey isInput isOutput ++ ws)).toList = isInput ∧
      "OUTPUT".toList.isPrefixOf (String.intercalate "_" (parameterKey isInput isOutput ++ ws)).toList = isOutput := by
  obtain ⟨rest, hrest⟩ := intercalate_isPrefix "_" ws (by simp [parameterKey] : parameterKey isInput isOutput ≠ [])
  rw [hrest, String.toList_append]
  cases isInput with
  | false => cases isOutput <;> exact ⟨rfl, rfl⟩
  | true =>
      cases isOutput with
      | false => exact ⟨rfl, rfl⟩
      | true => exact absurd ⟨rfl, rfl⟩ h

theorem parameter_readBack {d : Declaration} (place : Place) (h : d.WellFormed)
    (hspelled : Name.isSpelled d.name.toList = true) :
    Registry.ReadsBack place (Command.parameter d).write (.parameter d) := by
  have hargument := braced_isArgument h.valid
  have hfirst : Name.isSpelled (firstWord d.text) = true := by
    apply Name.isSpelled_mono (firstWord_isPrefix_append _ _).subset
    rw [firstWord_of_isWord hargument.isWord]
    exact isSpelled_braced hspelled
  obtain ⟨more, hmore⟩ : ∃ more, argumentsOf d.text = braced d.name :: more := by
    rw [Declaration.text]
    cases d.description with
    | none => exact ⟨[], by rw [Option.map_none, Option.getD_none, List.append_nil, argumentsOf_argument hargument]⟩
    | some text => exact ⟨_, argumentsOf_cons _ hargument⟩
  have hreference : Invocation.reference (braced d.name) = .ok d.name := by
    rw [Invocation.reference, Name.readReference_braced h.valid]
  obtain ⟨hinput, houtput⟩ := role_of_parameterKey (commandWords d.text) h.oneRole
  apply Registry.read_of_spelled d.text (isKey_parameter place d.isInput d.isOutput) d.write_eq
    (Declaration.isPhrase_text h) hfirst
  rw [CommandKind.read, Invocation.parameter]
  dsimp only
  rw [hmore, hinput, houtput, descriptionAfterName_text h]
  dsimp only [Invocation.next, bind, Except.bind]
  rw [hreference]
  obtain ⟨name, description, isInput, isOutput⟩ := d
  cases description with
  | none => rfl
  | some text =>
      have hbraces := (h.description text rfl).2
      simp [hbraces, pure, Except.pure]

theorem isKey_joker : IsKey .task .joker ["JOKER".toList] ["JOKER"] "JOKER_" :=
  ⟨by simp, by decide, by decide, by simp, rfl, rfl, rfl⟩

theorem joker_readBack {name : String} (h : Name.Valid name) (hspelled : Name.isSpelled name.toList = true) :
    Registry.ReadsBack .task (Command.joker name).write (.joker name) := by
  have hargument := braced_isArgument h
  have hreference : Invocation.reference (braced name) = .ok name := by
    rw [Invocation.reference, Name.readReference_braced h]
  apply Registry.read_of_spelled (braced name).toList isKey_joker (String.toList_append ..)
    hargument.isWord.isPhrase (by rw [firstWord_of_isWord hargument.isWord]; exact isSpelled_braced hspelled)
  rw [argumentsOf_argument hargument, CommandKind.read, Invocation.joker]
  dsimp only [Invocation.next, bind, Except.bind]
  rw [hreference]
  rfl

theorem isArgument_of_isIdentifier {s : String} (h : Name.isIdentifier s = true) : IsArgument s := by
  rw [Name.isIdentifier] at h
  split at h
  · cases h
  · rename_i c rest hs
    have hstart {d : Char} (hd : Name.isIdentifierStart d = true) : IsPlainChar d := by
      simp only [Name.isIdentifierStart, Bool.or_eq_true, decide_eq_true_eq] at hd
      rcases hd with (hd | rfl) | rfl
      · exact isPlainChar_of_isAlphanum (by simp [Char.isAlphanum, hd])
      · decide
      · decide
    rw [Bool.and_eq_true, List.all_eq_true] at h
    apply isArgument_of_isPlainChar (by simp [hs])
    intro d hd
    rw [hs] at hd
    rcases List.mem_cons.mp hd with rfl | hd
    · exact hstart h.1
    · rcases Bool.or_eq_true _ _ |>.mp (h.2 d hd) with hd | hd
      · exact hstart hd
      · exact isPlainChar_of_isAlphanum (by simp [Char.isAlphanum, hd])

theorem isKey_postprocess : IsKey .task .postprocess ["POSTPROCESS".toList] ["POSTPROCESS"] "POSTPROCESS_" :=
  ⟨by simp, by decide, by decide, by simp, rfl, rfl, rfl⟩

theorem postprocess_readBack {function : String} (h : Name.isIdentifier function = true)
    (hspelled : Name.isSpelled function.toList = true) :
    Registry.ReadsBack .task (Command.postprocess function).write (.postprocess function) := by
  have hargument := isArgument_of_isIdentifier h
  apply Registry.read_of_spelled function.toList isKey_postprocess (String.toList_append ..)
    hargument.isWord.isPhrase (by rwa [firstWord_of_isWord hargument.isWord])
  rw [argumentsOf_argument hargument, CommandKind.read, Invocation.postprocess]
  dsimp only [Invocation.next, Invocation.noMore, bind, Except.bind]
  rw [if_pos h]
  rfl

theorem formfactor_readBack {name : String} (h : (Command.formfactor name).WellFormed) :
    Registry.ReadsBack .head (Command.formfactor name).write (.formfactor name) := by
  obtain ⟨f, hf, rfl⟩ := h
  have hname : ∀ f ∈ Formfactor.all, IsWord f.name.toList ∧ Name.isSpelled f.name.toList = true ∧
      Name.screaming f.name ≠ "" ∧ Formfactor.find? (Name.screaming f.name) = some f := by decide
  obtain ⟨hword, hspelled, hne, hfind⟩ := hname f hf
  have hkey : IsKey .head .formfactor ["FORMFACTOR".toList] ["FORMFACTOR"] "FORMFACTOR_" :=
    ⟨by simp, by decide, by decide, by simp, rfl, rfl, rfl⟩
  apply Registry.read_of_spelled f.name.toList hkey (String.toList_append ..)
    hword.isPhrase (by rw [firstWord_of_isWord hword]; exact hspelled)
  rw [CommandKind.read, Invocation.formfactor]
  dsimp only
  rw [String.ofList_toList, if_neg (by simpa using hne), hfind]

theorem sectionLine_readBack (type : SectionType) :
    Registry.ReadsBack .task (type.keyword ++ " SECTION") (.sectionType type) := by
  have hkey : IsKey .task .sectionType [type.keyword.toList] [type.keyword] (type.keyword ++ "_SECTION") := by
    cases type <;> exact ⟨by simp, by decide, by decide, by simp, rfl, rfl, rfl⟩
  apply Registry.read_of_key "SECTION".toList hkey (by simp [keyText]) (by decide : IsWord "SECTION".toList).isPhrase
  · exact ⟨"", by cases type <;> rfl⟩
  · cases type <;> rfl

theorem exampleLine_readBack : Registry.ReadsBack .task "EXAMPLE SECTION" (.sectionType .sample) := by
  have hkey : IsKey .task .sectionType ["EXAMPLE".toList] ["SAMPLE"] "SAMPLE_SECTION" :=
    ⟨by simp, by decide, by decide, by simp, rfl, rfl, rfl⟩
  exact Registry.read_of_key "SECTION".toList hkey rfl (by decide : IsWord "SECTION".toList).isPhrase ⟨"", rfl⟩ rfl

theorem expectFormat_readBack (format : ResultFormat) :
    Registry.ReadsBack .task (Command.expectFormat format).write (.expectFormat format) := by
  have hkey : IsKey .task .expectFormat ["FORMAT".toList] ["FORMAT"] "FORMAT_" :=
    ⟨by simp, by decide, by decide, by simp, rfl, rfl, rfl⟩
  cases format
  exact Registry.read_of_spelled "JSON".toList hkey rfl (by decide : IsWord "JSON".toList).isPhrase rfl rfl

theorem model_readBack_of {place : Place} {line name : String} {r : Requirement} (ws : List String) (value : String)
    (hws : ∀ w ∈ ws, IsArgument w) (hvalue : IsArgument value)
    (hline : line.toList = "MODEL ".toList ++ (keyText (ws.map String.toList) ++ value.toList))
    (hspelled : ∃ w ∈ ws.head?, Name.isSpelled w.toList = true)
    (hname : Name.screaming (String.intercalate " " ws) = name)
    (hread : Invocation.requirement name value = .ok r) :
    Registry.ReadsBack place line (.model r) := by
  have hkey : IsKey place .model ["MODEL".toList] ["MODEL"] "MODEL_" := by
    cases place <;> exact ⟨by simp, by decide, by decide, by simp, rfl, rfl, rfl⟩
  have hphrase := isPhrase_arguments hws hvalue.isWord.isPhrase
  obtain ⟨w, hw, hspelled⟩ := hspelled
  obtain ⟨ws, rfl⟩ := List.head?_eq_some_iff.mp hw
  apply Registry.read_of_spelled _ hkey hline hphrase
  · rw [List.map_cons, keyText_cons, firstWord_isWord_append _ (hws w List.mem_cons_self).isWord]
    exact hspelled
  · rw [argumentsOf_keyText _ hws, argumentsOf_argument hvalue, CommandKind.read, Invocation.model]
    dsimp only
    rw [List.getLast?_concat, List.dropLast_concat]
    dsimp only
    rw [hname, hread]
    rfl

theorem isArgument_toString (n : Nat) : IsArgument (toString n) := by
  apply isArgument_of_isPlainChar
  · rw [Nat.toString_eq_repr, Nat.repr, String.toList_ofList]
    exact Nat.toDigits_ne_nil
  · intro c hc
    rw [Nat.toString_eq_repr, Nat.repr, String.toList_ofList] at hc
    exact isPlainChar_of_isAlphanum (by simp [Char.isAlphanum, Decimal.toDigits_isDigit n c hc])

theorem isArgument_render {m : Nat} {e : Int} (negative : Bool) (h : Binary64.Canonical m e) :
    IsArgument (Decimal.plain.render (.finite negative m e)) := by
  apply isArgument_of_isPlainChar
  · intro hnil
    have hread := Decimal.read_render negative h
    rw [Decimal.read, hnil] at hread
    cases hread
  · intro c hc
    rcases Decimal.mem_render hc with hdigit | rfl | rfl
    · exact isPlainChar_of_isAlphanum (by simp [Char.isAlphanum, hdigit])
    · decide
    · decide

theorem requirement_temperature {value : String} {t : Binary64} (h : Decimal.read value = some t)
    (hbelow : t.isBelowZero = false) (hmost : t.atMost 2 = true) :
    Invocation.requirement "TEMPERATURE" value = .ok (.temperature t) := by
  simp [Invocation.requirement, Invocation.temperature, h, hbelow, hmost]

theorem requirement_maxTokens {value : String} {n : Nat} (h : Decimal.readWhole UInt32.size value = some n) :
    Invocation.requirement "MAX_TOKENS" value = .ok (.maxTokens (UInt32.ofNat n)) := by
  simp [Invocation.requirement, h]

theorem requirement_seed {value : String} {n : Nat} (h : Decimal.readWhole UInt64.size value = some n) :
    Invocation.requirement "SEED" value = .ok (.seed (UInt64.ofNat n)) := by
  simp [Invocation.requirement, h]

theorem requirement_readBack {r : Requirement} (place : Place) (h : r.WellFormed) :
    Registry.ReadsBack place (Command.model r).write (.model r) := by
  cases r with
  | «variant» v =>
      have hvariant : Name.screaming (String.intercalate " " ["VARIANT"]) = "VARIANT" := rfl
      cases v with
      | chat => exact model_readBack_of ["VARIANT"] "CHAT" (by decide) (by decide) rfl ⟨_, rfl, rfl⟩ hvariant rfl
      | completion =>
          exact model_readBack_of ["VARIANT"] "COMPLETION" (by decide) (by decide) rfl ⟨_, rfl, rfl⟩ hvariant rfl
      | embedding => exact absurd rfl h
  | name n =>
      exact model_readBack_of ["NAME"] n (by decide) h (String.toList_append ..) ⟨_, rfl, rfl⟩ (rfl : _ = "NAME") rfl
  | temperature t =>
      obtain ⟨⟨s, hs⟩, hbelow, hmost⟩ := h
      cases t with
      | nan => cases hmost
      | infinite negative => exact absurd (hbelow.symm.trans hmost) (by decide)
      | finite negative m e =>
          have hcanonical := Decimal.canonical_of_read hs
          apply model_readBack_of ["TEMPERATURE"] _ (by decide) (isArgument_render negative hcanonical)
            (String.toList_append ..) ⟨_, rfl, rfl⟩ (rfl : _ = "TEMPERATURE")
          exact requirement_temperature (Decimal.read_render negative hcanonical) hbelow hmost
  | maxTokens m =>
      apply model_readBack_of ["MAX", "TOKENS"] (toString m.toNat) (by decide) (isArgument_toString _)
        (String.toList_append ..) ⟨_, rfl, rfl⟩ (rfl : _ = "MAX_TOKENS")
      have hread := requirement_maxTokens (Decimal.readWhole_toString m.toNat_lt_size)
      rwa [UInt32.ofNat_toNat] at hread
  | seed n =>
      apply model_readBack_of ["SEED"] (toString n.toNat) (by decide) (isArgument_toString _)
        (String.toList_append ..) ⟨_, rfl, rfl⟩ (rfl : _ = "SEED")
      have hread := requirement_seed (Decimal.readWhole_toString n.toNat_lt_size)
      rwa [UInt64.ofNat_toNat] at hread

theorem amount_toString (n : UInt32) : Invocation.amount (toString n) = .ok n := by
  have hlt : n.toNat < UInt32.size := n.toNat_lt_size
  obtain ⟨m, e, hread, hwhole⟩ := Decimal.read_toString_whole (hlt.trans (by decide) : n.toNat < 2 ^ 53)
  change Invocation.amount (toString n.toNat) = _
  rw [Invocation.amount, hread]
  simp [Binary64.isBelowZero, hwhole, hlt]

theorem expectAmount_readBack (sign : ExpectSign) (unit : ExpectUnit) (amount : UInt32) :
    Registry.ReadsBack .task (Command.expectAmount sign unit amount).write (.expectAmount sign unit amount) := by
  have hkey : IsKey .task .expectAmount ["EXPECT".toList] ["EXPECT"] ("EXPECT_" ++ sign.name) := by
    cases sign <;> exact ⟨by simp, by decide, by decide, by simp, rfl, rfl, rfl⟩
  have hsign : IsArgument sign.name ∧ Invocation.sign sign.name = .ok sign := by cases sign <;> decide
  have hunit : IsArgument unit.plural ∧ Invocation.unit unit.plural = .ok unit := by cases unit <;> decide
  have hamount : IsArgument (toString amount) := isArgument_toString amount.toNat
  have hline : (Command.expectAmount sign unit amount).write.toList =
      keyText ["EXPECT".toList] ++
        (keyText ([sign.name, toString amount].map String.toList) ++ unit.plural.toList) := by
    simp [Command.write, keyText]
  have hws : ∀ w ∈ [sign.name, toString amount], IsArgument w := by simp [hsign.1, hamount]
  apply Registry.read_of_key _ hkey hline (isPhrase_arguments hws hunit.1.isWord.isPhrase)
  · rw [List.map_cons, keyText_cons, firstWord_isWord_append _ hsign.1.isWord]
    exact ⟨"", by cases sign <;> rfl⟩
  · rw [argumentsOf_keyText _ hws, argumentsOf_argument hunit.1, CommandKind.read,
      Invocation.expectAmount]
    dsimp only [List.cons_append, List.nil_append, Invocation.next, bind, Except.bind]
    rw [hsign.2]
    dsimp only
    rw [amount_toString]
    dsimp only
    rw [hunit.2]
    rfl

namespace Foreach

def marked (f : Foreach) : List String := f.inputs.map (braced · ++ ",")

theorem toList_subparameters (inputs : List String) (output : String) :
    (String.intercalate ", " (inputs.map braced ++ [output])).toList =
      keyText ((inputs.map (braced · ++ ",")).map String.toList) ++ output.toList := by
  induction inputs with
  | nil => simp [keyText]
  | cons name inputs ih =>
      rw [List.map_cons, List.cons_append, String.intercalate_cons_of_ne_nil (by simp), String.toList_append, ih,
        List.map_cons, List.map_cons, keyText_cons]
      simp

theorem write_eq (f : Foreach) :
    f.write.toList = keyText ["FOREACH".toList] ++
      (keyText (([f.format, f.subformat, braced f.parameter, "->"] ++ f.marked).map String.toList) ++
        ("+" ++ braced f.output).toList) := by
  have hsub := toList_subparameters f.inputs ("+" ++ braced f.output)
  rw [write, String.toList_append, hsub, marked]
  simp [keyText]

variable {name : String} {f : Foreach}

theorem comma_not_mem_braced (h : Name.Valid name) : ∀ c ∈ (braced name).toList, decide (c = ',') = false := by
  intro c hc
  rw [Name.toList_braced, List.mem_cons, List.mem_append, List.mem_singleton] at hc
  rcases hc with rfl | hc | rfl
  · rfl
  · exact decide_eq_false fun e => h.not_mem (c := ',') (by decide) (e ▸ hc)
  · rfl

theorem split_marked (h : Name.Valid name) :
    split (· = ',') (braced name ++ ",").toList = [(braced name).toList, []] := by
  rw [split_eq_splitOnP, String.toList_append]
  change ((braced name).toList ++ ',' :: []).splitOnP _ = _
  rw [List.splitOnP_append_cons _ _ (by decide), List.splitOnP_eq_singleton (comma_not_mem_braced h)]
  rfl

theorem split_output (h : Name.Valid name) :
    split (· = ',') ("+" ++ braced name).toList = ['+' :: (braced name).toList] := by
  rw [split_eq_splitOnP, String.toList_append]
  change ('+' :: (braced name).toList).splitOnP _ = _
  rw [List.splitOnP_eq_singleton]
  intro c hc
  rcases List.mem_cons.mp hc with rfl | hc
  · rfl
  · exact comma_not_mem_braced h c hc

theorem trim_piece {s : List Char} (hne : s ≠ []) (h : ∀ c ∈ s, IsPlainChar c) :
    trimMatching (· = '\x60') (trim s) = s := by
  have hword : IsWord s := ⟨hne, fun c hc => (h c hc).1⟩
  have htick : ∀ c ∈ s, decide (c = '\x60') = false := by
    intro c hc
    apply decide_eq_false
    rintro rfl
    exact absurd (h _ hc).2 (by decide)
  rw [hword.trimmed.trim_eq]
  exact Bare.trimMatching_eq ⟨fun c hc => htick c (List.mem_of_mem_head? hc),
    fun c hc => htick c (List.mem_of_mem_getLast? hc)⟩

theorem trimmed_inputs {inputs : List String} (h : ∀ name ∈ inputs, Name.Valid name) :
    ((inputs.flatMap fun name => [(braced name).toList, []]).map fun piece =>
      trimMatching (· = '\x60') (trim piece)).filter (!·.isEmpty) = inputs.map fun name => (braced name).toList := by
  induction inputs with
  | nil => rfl
  | cons name inputs ih =>
      have hne : (braced name).toList ≠ [] := by simp [Name.toList_braced]
      have hpiece := trim_piece hne (braced_isPlainChar (h name List.mem_cons_self))
      have hrest := ih fun n hn => h n (List.mem_cons_of_mem name hn)
      rw [List.flatMap_cons, List.map_append, List.filter_append, hrest, List.map_cons, hpiece]
      simp [hne, trim, trimStart, trimEnd, dropEndWhile, trimMatching]

theorem pieces_eq (h : f.WellFormed) :
    Invocation.subparameterPieces (f.marked ++ ["+" ++ braced f.output]) =
      f.inputs.map (fun name => (braced name).toList) ++ ['+' :: (braced f.output).toList] := by
  have hsplit : (f.marked ++ ["+" ++ braced f.output]).flatMap (fun a => split (· = ',') a.toList) =
      f.inputs.flatMap (fun name => [(braced name).toList, []]) ++ ['+' :: (braced f.output).toList] := by
    rw [List.flatMap_append, marked, List.flatMap_map, List.flatMap_singleton, split_output h.output,
      List.flatMap_congr fun name hname => split_marked (h.inputs name hname)]
  have houtput : trimMatching (· = '\x60') (trim ('+' :: (braced f.output).toList)) = '+' :: (braced f.output).toList := by
    apply trim_piece (List.cons_ne_nil _ _)
    intro c hc
    rcases List.mem_cons.mp hc with rfl | hc
    · decide
    · exact braced_isPlainChar h.output c hc
  rw [Invocation.subparameterPieces, hsplit, List.map_append, List.filter_append, trimmed_inputs h.inputs,
    List.map_singleton, houtput]
  rfl

/-- Only a piece that begins with a plus sign is an output. -/
theorem subparameters_cons {c : Char} (hc : c ≠ '+') (cs : List Char) (pieces : List (List Char)) :
    Invocation.subparameters ((c :: cs) :: pieces) =
      (Invocation.reference (String.ofList (c :: cs))).bind fun name =>
        (Invocation.subparameters pieces).bind fun x => .ok (name :: x.1, x.2) := by
  rw [Invocation.subparameters.eq_def]
  split
  · contradiction
  · rename_i heq
    cases heq
    exact absurd rfl hc
  · rename_i heq
    cases heq
    rfl

theorem subparameters_plus (cs : List Char) (pieces : List (List Char)) :
    Invocation.subparameters (('+' :: cs) :: pieces) =
      (Invocation.reference (String.ofList cs)).bind fun name =>
        (Invocation.subparameters pieces).bind fun x => .ok (x.1, name :: x.2) := by
  rw [Invocation.subparameters.eq_def]
  rfl

theorem subparameters_append {inputs : List String} {pieces : List (List Char)} {ins outs : List String}
    (h : ∀ name ∈ inputs, Name.Valid name) (hrest : Invocation.subparameters pieces = .ok (ins, outs)) :
    Invocation.subparameters (inputs.map (fun name => (braced name).toList) ++ pieces) = .ok (inputs ++ ins, outs) := by
  induction inputs with
  | nil => exact hrest
  | cons name inputs ih =>
      have hname := Name.readReference_braced (h name List.mem_cons_self)
      have hreference : Invocation.reference (braced name) = .ok name := by rw [Invocation.reference, hname]
      have hrest := ih fun n hn => h n (List.mem_cons_of_mem name hn)
      rw [List.map_cons, List.cons_append, Name.toList_braced, subparameters_cons (by decide), ← Name.toList_braced,
        String.ofList_toList, hreference, hrest]
      rfl

theorem subparameters_eq (h : f.WellFormed) :
    Invocation.subparameters (Invocation.subparameterPieces (f.marked ++ ["+" ++ braced f.output])) =
      .ok (f.inputs, [f.output]) := by
  have hreference : Invocation.reference (braced f.output) = .ok f.output := by
    rw [Invocation.reference, Name.readReference_braced h.output]
  have hplus : Invocation.subparameters ['+' :: (braced f.output).toList] = .ok ([], [f.output]) := by
    rw [subparameters_plus, String.ofList_toList, hreference]
    rfl
  rw [pieces_eq h, subparameters_append h.inputs hplus, List.append_nil]

theorem format_eq (h : f.WellFormed) :
    IsArgument f.format ∧ IsArgument f.subformat ∧ Name.isSpelled f.format.toList = true ∧
      Invocation.foreachFormat f.format f.subformat = .ok (f.format, f.subformat) := by
  have hall : ∀ format ∈ ForeachFormat.all, ∀ part ∈ format.parts,
      IsArgument format.name ∧ IsArgument part ∧ Name.isSpelled format.name.toList = true ∧
        Invocation.foreachFormat format.name part = .ok (format.name, part) := by decide
  obtain ⟨format, hformat, hname, hpart⟩ := h.format
  rw [← hname]
  exact hall format hformat f.subformat hpart

theorem arguments_isArgument (h : f.WellFormed) :
    ∀ a ∈ [f.format, f.subformat, braced f.parameter, "->"] ++ f.marked, IsArgument a := by
  obtain ⟨hformat, hsubformat, -, -⟩ := format_eq h
  have hmarked : ∀ a ∈ f.marked, IsArgument a := by
    intro a ha
    obtain ⟨name, hname, rfl⟩ := List.mem_map.mp ha
    apply isArgument_of_isPlainChar (by simp)
    intro c hc
    rw [String.toList_append, List.mem_append] at hc
    rcases hc with hc | hc
    · exact braced_isPlainChar (h.inputs name hname) c hc
    · rw [List.mem_singleton.mp hc]
      decide
  have harrow : IsArgument "->" := by decide
  simp only [List.mem_append, List.mem_cons, List.not_mem_nil, or_false]
  rintro a ((rfl | rfl | rfl | rfl) | ha)
  · exact hformat
  · exact hsubformat
  · exact braced_isArgument h.parameter
  · exact harrow
  · exact hmarked a ha

theorem output_isArgument (h : f.WellFormed) : IsArgument ("+" ++ braced f.output) := by
  apply isArgument_of_isPlainChar (by simp)
  intro c hc
  rw [String.toList_append] at hc
  rcases List.mem_cons.mp hc with rfl | hc
  · decide
  · exact braced_isPlainChar h.output c hc

end Foreach

theorem foreach_readBack {f : Foreach} (h : f.WellFormed) :
    Registry.ReadsBack .task (Command.foreach f).write (.foreach f) := by
  have hkey : IsKey .task .foreach ["FOREACH".toList] ["FOREACH"] "FOREACH_" :=
    ⟨by simp, by decide, by decide, by simp, rfl, rfl, rfl⟩
  obtain ⟨hformat, -, hspelled, hparts⟩ := Foreach.format_eq h
  have harguments := Foreach.arguments_isArgument h
  have houtput := Foreach.output_isArgument h
  have hreference : Invocation.reference (braced f.parameter) = .ok f.parameter := by
    rw [Invocation.reference, Name.readReference_braced h.parameter]
  apply Registry.read_of_spelled _ hkey f.write_eq (isPhrase_arguments harguments houtput.isWord.isPhrase)
  · rw [List.cons_append, List.map_cons, keyText_cons, firstWord_isWord_append _ hformat.isWord]
    exact hspelled
  · rw [argumentsOf_keyText _ harguments, argumentsOf_argument houtput, CommandKind.read, Invocation.foreach]
    dsimp only [List.cons_append, List.nil_append, Invocation.next, bind, Except.bind]
    rw [hparts]
    dsimp only
    rw [hreference]
    dsimp only
    rw [if_neg (by simp), Foreach.subparameters_eq h]
    dsimp only
    rw [if_neg (by simpa using h.inputs_ne_nil)]
    rfl

theorem Registry.read_of_word {place : Place} {kind : CommandKind} {word : String} {c : Command}
    (hword : IsWord word.toList) (hnamed : kindsNamed (String.intercalate "_" (commandWords word.toList)) place = [kind])
    (hread : ∀ i, kind.read i = .ok c) : ReadsBack place word c := by
  have hphrase := hword.isPhrase
  have hraw : CommandLine.read word = .ok ⟨word.toList⟩ := by
    rw [CommandLine.read, hphrase.trimmed.trim_eq]
    simp [hphrase.noFeed, hphrase.noReturn]
  have hwords : (CommandLine.mk word.toList).words = [word.toList] ++ [] := words_of_isWord hword
  have hresolve : builtIn.resolve place ⟨word.toList⟩ = .ok (kind, .leading [word.toList].length) := by
    apply resolve_of_key hwords (by simp) (by simp [longestName])
    · rw [lookup_eq, List.flatMap_singleton, hnamed]
    · intro n hn hle
      exact absurd hn (Nat.not_lt.mpr hle)
  refine ⟨hphrase, ?_⟩
  simp only [Registry.read, hraw, hresolve, hread, bind, Except.bind]
  rfl

/-- What a text that goes right after the name of a command has to begin with to stay apart from the name. -/
def Command.Spelled : Command → Prop
  | parameter declaration => Name.isSpelled declaration.name.toList = true
  | persona name _ => Name.isSpelled (firstWord name.toList) = true
  | knowledge content => Name.isSpelled (firstWord content.toList) = true
  | joker name => Name.isSpelled name.toList = true
  | postprocess function => Name.isSpelled function.toList = true
  | _ => True

/-- A command that is written is read back where its kind may stand. -/
theorem Registry.read_write {place : Place} {c : Command} (hc : c.WellFormed) (hs : c.Spelled)
    (hplace : c.kind.usableIn place = true) : ReadsBack place c.write c := by
  cases c with
  | bookVersion version => cases place with
    | head => exact bookVersion_readBack hc
    | task => cases hplace
  | url address => cases place with
    | head => exact url_readBack hc
    | task => cases hplace
  | parameter declaration => exact parameter_readBack place hc hs
  | persona name description => exact persona_readBack place hc hs
  | knowledge content => cases place with
    | head => exact knowledge_readBack hc hs
    | task => cases hplace
  | formfactor name => cases place with
    | head => exact formfactor_readBack hc
    | task => cases hplace
  | sectionType type => cases place with
    | head => cases hplace
    | task => exact sectionLine_readBack type
  | model requirement => exact requirement_readBack place hc
  | expectAmount sign unit amount => cases place with
    | head => cases hplace
    | task => exact expectAmount_readBack sign unit amount
  | expectFormat format => cases place with
    | head => cases hplace
    | task => exact expectFormat_readBack format
  | joker name => cases place with
    | head => cases hplace
    | task => exact joker_readBack hc hs
  | postprocess function => cases place with
    | head => cases hplace
    | task => exact postprocess_readBack hc hs
  | foreach loop => cases place with
    | head => cases hplace
    | task => exact foreach_readBack hc
  | action => cases place with
    | head => exact read_of_word (by decide) rfl fun _ => rfl
    | task => cases hplace
  | instrument => cases place with
    | head => exact read_of_word (by decide) rfl fun _ => rfl
    | task => cases hplace

end BookCompiler
