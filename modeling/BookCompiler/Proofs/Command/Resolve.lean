import BookCompiler.Command.Registry
import BookCompiler.Proofs.Text.Words

namespace BookCompiler

open Text

namespace Name

theorem wordsFrom_append (current : List Char) (afterSmall : Bool) (a b : List Char) :
    wordsFrom current afterSmall (a ++ ' ' :: b) = wordsFrom current afterSmall a ++ wordsFrom [] false b := by
  have hblank : Char.isAlphanum ' ' = false := rfl
  induction a generalizing current afterSmall with
  | nil => by_cases h : current.isEmpty = true <;> simp [wordsFrom, hblank, h]
  | cons c a ih =>
      rw [List.cons_append, wordsFrom, wordsFrom, ih, ih, ih]
      split
      · split
        · rfl
        · rfl
      · split
        · rfl
        · rfl

theorem splitWords_append (a b : List Char) : splitWords (a ++ ' ' :: b) = splitWords a ++ splitWords b := by
  have hfold : foldAccents (a ++ ' ' :: b) = foldAccents a ++ ' ' :: foldAccents b := by
    rw [foldAccents, List.flatMap_append, List.flatMap_cons]
    rfl
  rw [splitWords, hfold, wordsFrom_append]
  rfl

def isSpelled (s : List Char) : Bool := (foldAccents s).any Char.isAlphanum

theorem wordsFrom_ne_nil {current s : List Char} (afterSmall : Bool)
    (h : current ≠ [] ∨ s.any Char.isAlphanum = true) : wordsFrom current afterSmall s ≠ [] := by
  induction s generalizing current afterSmall with
  | nil =>
      have hc : current ≠ [] := by simpa using h
      simp [wordsFrom, hc]
  | cons c s ih =>
      rw [wordsFrom]
      split
      · split
        · exact List.cons_ne_nil _ _
        · exact ih _ (Or.inl (List.cons_ne_nil c current))
      · rename_i hc
        split
        · rename_i he
          apply ih
          simpa [List.isEmpty_iff.mp he, hc] using h
        · exact List.cons_ne_nil _ _

theorem splitWords_ne_nil {s : List Char} (h : isSpelled s = true) : splitWords s ≠ [] :=
  wordsFrom_ne_nil false (Or.inr h)

theorem wordsFrom_eq_nil {s : List Char} (afterSmall : Bool) (h : s.any Char.isAlphanum = false) :
    wordsFrom [] afterSmall s = [] := by
  induction s generalizing afterSmall with
  | nil => rfl
  | cons c s ih =>
      rw [List.any_cons, Bool.or_eq_false_iff] at h
      rw [wordsFrom, if_neg (by simp [h.1])]
      exact ih false h.2

end Name

theorem commandWords_append (a b : List Char) : commandWords (a ++ ' ' :: b) = commandWords a ++ commandWords b := by
  rw [commandWords, Name.splitWords_append, List.map_append]
  rfl

theorem commandWords_intercalate (ws : List (List Char)) :
    commandWords (List.intercalate [' '] ws) = ws.flatMap commandWords := by
  induction ws with
  | nil => rfl
  | cons w ws ih =>
      cases ws with
      | nil => simp
      | cons v ws =>
          rw [List.intercalate_cons_cons, List.append_assoc, List.singleton_append, commandWords_append, ih]
          rfl

theorem commandWords_ne_nil {s : List Char} (h : Name.isSpelled s = true) : commandWords s ≠ [] := by
  intro e
  exact Name.splitWords_ne_nil h (List.map_eq_nil_iff.mp e)

theorem commandWords_eq_nil {s : List Char} (h : Name.isSpelled s = false) : commandWords s = [] := by
  rw [commandWords, Name.splitWords, Name.wordsFrom_eq_nil false h, List.map_nil]

/-- The canonical names of a kind, written out. -/
def CommandKind.knownNames : CommandKind → List String
  | bookVersion => ["BOOK_VERSION", "BOOK", "PROMPTBOOK_VERSION", "PTBK_VERSION"]
  | url => ["URL", "PIPELINE_URL", "PTBK_URL", "PROMPTBOOK_URL"]
  | formfactor => ["FORMFACTOR", "FORM_FACTOR"]
  | parameter => ["PARAMETER", "PARAM", "INPUT_PARAMETER", "INPUT_PARAM", "OUTPUT_PARAMETER", "OUTPUT_PARAM"]
  | persona => ["PERSONA"]
  | knowledge => ["KNOWLEDGE"]
  | sectionType =>
    ["SECTION", "PROMPT", "SIMPLE", "SCRIPT", "DIALOG", "SAMPLE", "KNOWLEDGE", "INSTRUMENT", "ACTION", "SECTION",
     "SECTION", "SECTION"]
  | model => ["MODEL"]
  | expectAmount => ["EXPECT"]
  | expectFormat => ["FORMAT", "EXPECT_FORMAT", "EXPECT_JSON"]
  | joker => ["JOKER"]
  | postprocess => ["POSTPROCESS", "POSTPROCESSING", "PP"]
  | foreach => ["FOREACH", "FOR", "EACH", "FOR_EACH"]
  | action => ["ACTION"]
  | instrument => ["INSTRUMENT"]

theorem CommandKind.canonicalNames_eq (kind : CommandKind) : kind.canonicalNames = kind.knownNames := by
  cases kind <;> decide +kernel

namespace Registry

variable {place : Place} {kind : CommandKind}

def kindsNamed (name : String) (place : Place) : List CommandKind :=
  CommandKind.all.filter fun kind => kind.knownNames.contains name && kind.usableIn place

theorem lookup_eq (name : String) (place : Place) : builtIn.lookup name place = kindsNamed name place := by
  simp only [lookup, CommandKind.canonicalNames_eq]
  rfl

def namesIn (place : Place) : List String :=
  (CommandKind.all.filter (·.usableIn place)).flatMap CommandKind.knownNames

theorem lookup_eq_nil {name : String} (h : name ∉ namesIn place) : builtIn.lookup name place = [] := by
  rw [lookup_eq, kindsNamed, List.filter_eq_nil_iff]
  intro k hk hkind
  rw [Bool.and_eq_true, List.contains_iff_mem] at hkind
  exact h (List.mem_flatMap.mpr ⟨k, List.mem_filter.mpr ⟨hk, hkind.2⟩, hkind.1⟩)

theorem lookup_append_eq_nil {start : String} (rest : String)
    (h : (namesIn place).all (fun name => !start.toList.isPrefixOf name.toList) = true) :
    builtIn.lookup (start ++ rest) place = [] := by
  apply lookup_eq_nil
  intro hmem
  have hname := List.all_eq_true.mp h _ hmem
  rw [String.toList_append, Bool.not_eq_true', Bool.eq_false_iff] at hname
  exact hname (List.isPrefixOf_iff_prefix.mpr (List.prefix_append _ _))

theorem lookup_empty (place : Place) : builtIn.lookup "" place = [] := by
  rw [lookup_eq]
  cases place <;> rfl

theorem firstNamed_filter (candidates : List Candidate) :
    builtIn.firstNamed place (candidates.filter fun c => c.name ≠ "") = builtIn.firstNamed place candidates := by
  induction candidates with
  | nil => rfl
  | cons c cs ih =>
      by_cases hc : c.name = ""
      · rw [List.filter_cons_of_neg (by simp [hc]), ih, firstNamed, hc, lookup_empty]
      · rw [List.filter_cons_of_pos (by simp [hc]), firstNamed, firstNamed, ih]

theorem firstNamed_range {f : Nat → Candidate} {k n : Nat} (rest : List Candidate) (hn : k < n)
    (hkey : builtIn.lookup (f k).name place = [kind])
    (hlong : ∀ i, k < i → i < n → builtIn.lookup (f i).name place = []) :
    builtIn.firstNamed place ((List.range n).reverse.map f ++ rest) = some ([kind], (f k).position) := by
  induction n with
  | zero => omega
  | succ n ih =>
      rw [List.range_succ, List.reverse_append]
      change builtIn.firstNamed place (f n :: ((List.range n).reverse.map f ++ rest)) = _
      rw [firstNamed]
      by_cases hk : k = n
      · subst hk
        rw [hkey]
      · rw [hlong n (by omega) (by omega)]
        exact ih (by omega) fun i hi hin => hlong i hi (by omega)

theorem firstNamed_range_of_ne_nil {f : Nat → Candidate} {k n : Nat} (rest : List Candidate) (hn : k < n)
    (hkey : builtIn.lookup (f k).name place ≠ []) :
    ∃ i kinds, k ≤ i ∧
      builtIn.firstNamed place ((List.range n).reverse.map f ++ rest) = some (kinds, (f i).position) := by
  induction n with
  | zero => omega
  | succ n ih =>
      rw [List.range_succ, List.reverse_append]
      change ∃ i kinds, k ≤ i ∧ builtIn.firstNamed place (f n :: ((List.range n).reverse.map f ++ rest)) = _
      rw [firstNamed]
      by_cases hlast : builtIn.lookup (f n).name place = []
      · rw [hlast]
        have hk : k ≠ n := fun e => hkey (e ▸ hlast)
        exact ih (by omega)
      · refine ⟨n, builtIn.lookup (f n).name place, by omega, ?_⟩
        split
        · contradiction
        · rfl

/-- The first words of a line decide if they name a command and no longer beginning of it does. -/
theorem resolve_of_key {line : CommandLine} {key ws : List (List Char)} (hwords : line.words = key ++ ws)
    (hne : key ≠ []) (hlen : key.length ≤ longestName)
    (hkey : builtIn.lookup (String.intercalate "_" (key.flatMap commandWords)) place = [kind])
    (hlong : ∀ n, 0 < n → n ≤ ws.length →
      builtIn.lookup (String.intercalate "_" ((key ++ ws.take n).flatMap commandWords)) place = []) :
    builtIn.resolve place line = .ok (kind, .leading key.length) := by
  obtain ⟨k, hk⟩ := Nat.exists_eq_succ_of_ne_zero (mt List.length_eq_zero_iff.mp hne)
  have hname (n : Nat) : (line.leadingName n).name =
      String.intercalate "_" ((line.words.take n).flatMap commandWords) := by
    rw [CommandLine.leadingName, commandText, commandWords_intercalate]
  have hfirst : builtIn.firstNamed place line.candidates = some ([kind], .leading key.length) := by
    have hlength : line.words.length = key.length + ws.length := by rw [hwords, List.length_append]
    rw [CommandLine.candidates, firstNamed_filter, hk]
    apply firstNamed_range (f := fun i => line.leadingName (i + 1)) (k := k)
    · omega
    · rw [hname, hwords, ← Nat.succ_eq_add_one, ← hk, List.take_left]
      exact hkey
    · intro i hi hin
      have htake : line.words.take (i + 1) = key ++ ws.take (i + 1 - key.length) := by
        rw [hwords, List.take_append, List.take_of_length_le (by omega)]
      rw [hname, htake]
      exact hlong _ (by omega) (by omega)
  rw [resolve, hfirst]

end Registry

end BookCompiler
