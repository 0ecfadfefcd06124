import BookCompiler.Proofs.Command.Resolve
import BookCompiler.Proofs.Command.Sound

namespace BookCompiler

open Text

def argumentsOf (text : List Char) : List String :=
  (((words text).map bareArgument).filter (!·.isEmpty)).map String.ofList

theorem argumentsOf_argument {a : String} (h : IsArgument a) : argumentsOf a.toList = [a] := by
  rw [argumentsOf, words_of_isWord h.isWord, List.map_singleton, bareArgument, h.bare.trimMatching_eq]
  simp [h.isWord.1]

theorem argumentsOf_cons {a : String} (text : List Char) (h : IsArgument a) :
    argumentsOf (a.toList ++ ' ' :: text) = a :: argumentsOf text := by
  rw [argumentsOf, words_isWord_append text h.isWord rfl, List.map_cons, bareArgument, h.bare.trimMatching_eq]
  simp [h.isWord.1, argumentsOf]

section Key

variable {key : List (List Char)}

/-- The words before the arguments, with the blank after each. -/
def keyText (key : List (List Char)) : List Char := key.flatMap (· ++ [' '])

theorem keyText_cons (w : List Char) (key : List (List Char)) (text : List Char) :
    keyText (w :: key) ++ text = w ++ ' ' :: (keyText key ++ text) := by
  simp [keyText]

theorem words_keyText (text : List Char) (h : ∀ w ∈ key, IsWord w) : words (keyText key ++ text) = key ++ words text := by
  induction key with
  | nil => rfl
  | cons w key ih =>
      rw [keyText_cons, words_isWord_append _ (h w List.mem_cons_self) rfl,
        ih fun v hv => h v (List.mem_cons_of_mem w hv)]
      rfl

theorem afterWords_keyText_add (n : Nat) (text : List Char) (h : ∀ w ∈ key, IsWord w) :
    afterWords (key.length + n) (keyText key ++ text) = afterWords n text := by
  induction key with
  | nil => rw [List.length_nil, Nat.zero_add, keyText, List.flatMap_nil, List.nil_append]
  | cons w key ih =>
      rw [keyText_cons, List.length_cons, Nat.add_right_comm, afterWords_isWord_append _ _ (h w List.mem_cons_self),
        afterWords_cons_blank _ _ rfl, ih fun v hv => h v (List.mem_cons_of_mem w hv)]

theorem afterWords_keyText {text : List Char} (h : ∀ w ∈ key, IsWord w) (htext : Trimmed text) :
    afterWords key.length (keyText key ++ text) = text :=
  (afterWords_keyText_add 0 text h).trans (trimStart_eq_self htext.1)

theorem commandWords_keyText (key : List (List Char)) (text : List Char) :
    commandWords (keyText key ++ text) = key.flatMap commandWords ++ commandWords text := by
  induction key with
  | nil => rfl
  | cons w key ih => rw [keyText_cons, commandWords_append, ih, List.flatMap_cons, List.append_assoc]

theorem isPhrase_keyText {text : List Char} (h : ∀ w ∈ key, IsWord w) (htext : IsPhrase text) :
    IsPhrase (keyText key ++ text) := by
  induction key with
  | nil => exact htext
  | cons w key ih =>
      have hw := h w List.mem_cons_self
      have hrest := ih fun v hv => h v (List.mem_cons_of_mem w hv)
      have hnot {c : Char} (hc : isBlank c = true) : c ∉ w := fun hm => by simp [hw.2 c hm] at hc
      rw [keyText_cons]
      refine ⟨by simp, ⟨?_, ?_⟩, ?_, ?_⟩
      · intro c hc
        rw [List.head?_append_of_ne_nil _ hw.1] at hc
        exact hw.trimmed.1 c hc
      · intro c hc
        rw [List.getLast?_append_of_ne_nil _ (List.cons_ne_nil _ _), List.getLast?_cons_of_ne_nil hrest.ne_nil] at hc
        exact hrest.trimmed.2 c hc
      · simpa using ⟨hnot rfl, by simpa using hrest.noFeed⟩
      · simpa using ⟨hnot rfl, by simpa using hrest.noReturn⟩

theorem isPhrase_arguments {ws : List String} {text : List Char} (h : ∀ w ∈ ws, IsArgument w) (htext : IsPhrase text) :
    IsPhrase (keyText (ws.map String.toList) ++ text) := by
  apply isPhrase_keyText _ htext
  intro w hw
  obtain ⟨v, hv, rfl⟩ := List.mem_map.mp hw
  exact (h v hv).isWord

theorem argumentsOf_keyText {ws : List String} (text : List Char) (h : ∀ w ∈ ws, IsArgument w) :
    argumentsOf (keyText (ws.map String.toList) ++ text) = ws ++ argumentsOf text := by
  induction ws with
  | nil => rfl
  | cons w ws ih =>
      rw [List.map_cons, keyText_cons, argumentsOf_cons _ (h w List.mem_cons_self),
        ih fun v hv => h v (List.mem_cons_of_mem w hv)]
      rfl

end Key

/-- Words that name a kind of commands in a place, and a beginning that no name there has. -/
structure IsKey (place : Place) (kind : CommandKind) (key : List (List Char)) (names : List String) (start : String) :
    Prop where
  ne_nil : key ≠ []
  length : key.length ≤ longestName
  isWord : ∀ w ∈ key, IsWord w
  names_ne_nil : names ≠ []
  commandWords : key.flatMap commandWords = names
  named : Registry.kindsNamed (String.intercalate "_" names) place = [kind]
  start : (Registry.namesIn place).all (fun name => !start.toList.isPrefixOf name.toList) = true

theorem intercalate_isPrefix (sep : String) {a : List String} (b : List String) (h : a ≠ []) :
    ∃ rest, String.intercalate sep (a ++ b) = String.intercalate sep a ++ rest := by
  by_cases hb : b = []
  · exact ⟨"", by rw [hb, List.append_nil, String.append_empty]⟩
  · exact ⟨sep ++ String.intercalate sep b, by rw [String.intercalate_append_of_ne_nil h hb, String.append_assoc]⟩

structure Registry.ReadsBack (place : Place) (line : String) (c : Command) : Prop where
  isPhrase : IsPhrase line.toList
  read : builtIn.read place line = .ok c

section Read

variable {place : Place} {kind : CommandKind} {key : List (List Char)} {names : List String} {start line : String}
  {c : Command}

/-- A line is read by the words before its text if the text does not go on with another name. -/
theorem Registry.read_of_key (text : List Char) (hkey : IsKey place kind key names start) (hline : line.toList = keyText key ++ text)
    (htext : IsPhrase text)
    (hstart : ∃ rest, String.intercalate "_" (names ++ commandWords (firstWord text)) = start ++ rest)
    (hread : kind.read ⟨names ++ commandWords text, argumentsOf text, String.ofList text⟩ = .ok c) :
    ReadsBack place line c := by
  have hphrase := isPhrase_keyText hkey.isWord htext
  have hraw : CommandLine.read line = .ok ⟨keyText key ++ text⟩ := by
    rw [CommandLine.read, hline, hphrase.trimmed.trim_eq]
    simp [hphrase.noFeed, hphrase.noReturn]
  have hwords : (CommandLine.mk (keyText key ++ text)).words = key ++ words text := words_keyText text hkey.isWord
  have hresolve : builtIn.resolve place ⟨keyText key ++ text⟩ = .ok (kind, .leading key.length) := by
    apply resolve_of_key hwords hkey.ne_nil hkey.length
    · rw [hkey.commandWords, lookup_eq, hkey.named]
    · intro n hn _
      obtain ⟨ws, hw⟩ := List.head?_eq_some_iff.mp (head?_words htext.trimmed htext.ne_nil)
      obtain ⟨m, rfl⟩ := Nat.exists_eq_succ_of_ne_zero (Nat.pos_iff_ne_zero.mp hn)
      obtain ⟨rest, hrest⟩ := hstart
      obtain ⟨rest', hrest'⟩ := intercalate_isPrefix "_" ((ws.take m).flatMap commandWords)
        (List.append_ne_nil_of_left_ne_nil hkey.names_ne_nil (commandWords (firstWord text)))
      rw [hw, List.take_succ_cons, List.flatMap_append, List.flatMap_cons, hkey.commandWords, ← List.append_assoc,
        hrest', hrest, String.append_assoc]
      exact lookup_append_eq_nil _ hkey.start
  have hinvocation : (CommandLine.mk (keyText key ++ text)).invocation (.leading key.length) =
      ⟨names ++ commandWords text, argumentsOf text, String.ofList text⟩ := by
    rw [CommandLine.invocation, hwords]
    dsimp only
    rw [List.drop_left, afterWords_keyText hkey.isWord htext.trimmed, commandWords_keyText, hkey.commandWords]
    rfl
  refine ⟨by rwa [hline], ?_⟩
  simp only [Registry.read, hraw, hresolve, hinvocation, hread, bind, Except.bind]
  rfl

theorem Registry.read_of_spelled (text : List Char)
    (hkey : IsKey place kind key names (String.intercalate "_" names ++ "_"))
    (hline : line.toList = keyText key ++ text) (htext : IsPhrase text)
    (hspelled : Name.isSpelled (firstWord text) = true)
    (hread : kind.read ⟨names ++ commandWords text, argumentsOf text, String.ofList text⟩ = .ok c) :
    ReadsBack place line c := by
  apply read_of_key text hkey hline htext _ hread
  exact ⟨_, String.intercalate_append_of_ne_nil hkey.names_ne_nil (commandWords_ne_nil hspelled)⟩

end Read

theorem code_of_isAlphanum {c : Char} (h : c.isAlphanum = true) :
    48 ≤ c.toNat ∧ c.toNat ≤ 57 ∨ 65 ≤ c.toNat ∧ c.toNat ≤ 90 ∨ 97 ≤ c.toNat ∧ c.toNat ≤ 122 := by
  change (decide (65 ≤ c.val ∧ c.val ≤ 90) || (decide (97 ≤ c.val) && decide (c.val ≤ 122)) ||
    (decide (48 ≤ c.val) && decide (c.val ≤ 57))) = true at h
  simp [UInt32.le_iff_toNat_le] at h
  omega

def IsPlainChar (c : Char) : Prop := isBlank c = false ∧ isMark c = false

instance (c : Char) : Decidable (IsPlainChar c) := by
  unfold IsPlainChar
  infer_instance

theorem isPlainChar_of_isAlphanum {c : Char} (h : c.isAlphanum = true) : IsPlainChar c := by
  have hcode := code_of_isAlphanum h
  constructor
  · simp [isBlank]
    omega
  · rw [isMark]
    simp only [Bool.or_eq_false_iff, decide_eq_false_iff_not]
    refine ⟨⟨⟨?_, ?_⟩, ?_⟩, ?_⟩ <;> rintro rfl <;> simp at hcode

theorem isArgument_of_isPlainChar {s : String} (hne : s.toList ≠ []) (h : ∀ c ∈ s.toList, IsPlainChar c) :
    IsArgument s :=
  ⟨⟨hne, fun c hc => (h c hc).1⟩, fun c hc => (h c (List.mem_of_mem_head? hc)).2,
    fun c hc => (h c (List.mem_of_mem_getLast? hc)).2⟩

theorem Name.isSpelled_of_mem {c : Char} {s : List Char} (hc : c ∈ s) (h : c.isAlphanum = true) :
    Name.isSpelled s = true := by
  have hcode := code_of_isAlphanum h
  have hfold : foldAccent c = [c] := by rw [foldAccent, if_pos (by omega)]
  exact List.any_eq_true.mpr ⟨c, List.mem_flatMap.mpr ⟨c, hc, by rw [hfold]; exact List.mem_singleton_self c⟩, h⟩

theorem Name.isSpelled_mono {s t : List Char} (h : s ⊆ t) (hs : Name.isSpelled s = true) : Name.isSpelled t = true := by
  obtain ⟨c, hc, halnum⟩ := List.any_eq_true.mp hs
  obtain ⟨d, hd, hfold⟩ := List.mem_flatMap.mp hc
  exact List.any_eq_true.mpr ⟨c, List.mem_flatMap.mpr ⟨d, h hd, hfold⟩, halnum⟩

theorem Name.isSpelled_append (s t : List Char) : isSpelled (s ++ t) = (isSpelled s || isSpelled t) := by
  rw [isSpelled, foldAccents, List.flatMap_append, List.any_append]
  rfl

theorem Text.IsWord.isPhrase {s : List Char} (h : IsWord s) : IsPhrase s := by
  have hnot {c : Char} (hc : isBlank c = true) : c ∉ s := fun hm => by simp [h.2 c hm] at hc
  exact ⟨h.1, h.trimmed, hnot rfl, hnot rfl⟩

theorem Text.IsPhrase.append {s t : List Char} (m : List Char) (hs : IsPhrase s) (ht : IsPhrase t)
    (hfeed : '\n' ∉ m) (hreturn : '\r' ∉ m) : IsPhrase (s ++ (m ++ t)) := by
  have htrimmed := hs.trimmed.append m ht.trimmed hs.ne_nil ht.ne_nil
  rw [List.append_assoc] at htrimmed
  refine ⟨by simp [hs.ne_nil], htrimmed, ?_, ?_⟩
  · simp [hs.noFeed, hfeed, ht.noFeed]
  · simp [hs.noReturn, hreturn, ht.noReturn]

end BookCompiler
