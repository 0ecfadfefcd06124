import BookCompiler.Catalog.Build
import BookCompiler.Proofs.Catalog.History
import BookCompiler.Proofs.Outcome
import BookCompiler.Proofs.Wire.ReadBack

namespace BookCompiler

open Json

namespace Json.Scalars

theorem written_faithful : written.Faithful fun _ => True := .of_eq rfl (fun _ _ => rfl) (fun _ => rfl) fun _ => rfl

theorem looseWord_ofUInt64 {n : UInt64} (h : n.toNat < 2 ^ 63) : looseWord (.ofUInt64 n) = some n := by
  have hsmall : ((n.toNat : Int)) < Nat.pow 2 63 := Int.ofNat_lt.mpr h
  have hsigned : signed (.ofUInt64 n) = .ofUInt64 n := by rw [ofUInt64, signed, if_pos hsmall]
  rw [looseWord, hsigned]
  exact uint64?_ofUInt64 n

/-- A word of 64 bits is taken for a double by the loose reading, and may come back as another word. -/
theorem loose_faithful : loose.Faithful fun n => n.toNat < 2 ^ 63 :=
  ⟨fun _ _ => rfl, fun _ => rfl, fun _ => rfl, fun _ h => by
    rw [show loose.word = looseWord from rfl, looseWord_ofUInt64 h]⟩

end Json.Scalars

section Settings

variable {scalars : Scalars} {P : UInt64 → Prop}

theorem InlineBook.read_toJson (h : scalars.Faithful P) (b : InlineBook) : read scalars b.toJson = some b := by
  simp [read, toJson, required, h.record, h.text]

theorem Settings.read_toJson (h : scalars.Faithful P) {s : Settings} (hidentifiers : P s.compiler.maxIdentifiers)
    (hnesting : P s.compiler.maxNesting) : read scalars s.toJson = some s := by
  have htext : Restores .str scalars.text id := ⟨h.text, fun _ => nofun⟩
  have hbook : Restores InlineBook.toJson (InlineBook.read scalars) id := ⟨InlineBook.read_toJson h, fun _ => nofun⟩
  have hfiles := htext.list.read s.bookFiles
  have hbooks := hbook.list.read s.books
  rw [List.map_id_fun, id_eq] at hfiles hbooks
  simp [read, toJson, ofStrings, Json.orElse, h.record, h.text, h.flag, hfiles, hbooks,
    Options.read_toJson h hidentifiers hnesting]

/-- Settings are read back from what is written of them, by all readings of a document. -/
theorem Settings.read_toJson_all (s : Settings) : ofJson? s.toJson = some s ∧ read .written s.toJson = some s ∧
    (s.compiler.maxIdentifiers.toNat < 2 ^ 63 → s.compiler.maxNesting.toNat < 2 ^ 63 →
      read .loose s.toJson = some s) :=
  ⟨read_toJson Scalars.strict_faithful trivial trivial, read_toJson Scalars.written_faithful trivial trivial,
    read_toJson Scalars.loose_faithful⟩

end Settings

namespace Catalog

def insertAll (c : Catalog) (ps : List Pipeline) : Except CatalogError Catalog := ps.foldlM insert c

theorem insertAll_cons (c : Catalog) (p : Pipeline) (ps : List Pipeline) :
    c.insertAll (p :: ps) = (c.insert p >>= fun d => d.insertAll ps) := List.foldlM_cons

theorem Records.insertAll_ok {c d : Catalog} {l ps : List Pipeline} (h : c.Records l) (hd : c.insertAll ps = .ok d) :
    d.Records (l ++ ps) := by
  induction ps generalizing c l with
  | nil =>
      cases hd
      rwa [List.append_nil]
  | cons p ps ih =>
      rw [insertAll_cons] at hd
      obtain ⟨next, hnext, hd⟩ := bind_ok hd
      rcases h.offer_cases p with ⟨url, q, -, -, hoffer⟩ | ⟨-, e, hoffer, he⟩
      · rw [insert, hoffer] at hnext
        cases hnext
      · rw [insert, hoffer] at hnext
        cases hnext
        rw [List.append_cons]
        exact ih he hd

theorem Records.exists_insertAll {c : Catalog} {l ps : List Pipeline} (h : c.Records l)
    (hps : ((l ++ ps).filterMap Pipeline.url).Nodup) : ∃ d, c.insertAll ps = .ok d := by
  induction ps generalizing c l with
  | nil => exact ⟨c, rfl⟩
  | cons p ps ih =>
      rw [List.append_cons] at hps
      rcases h.offer_cases p with ⟨url, q, hurl, hfind, -⟩ | ⟨-, e, hoffer, he⟩
      · rw [List.filterMap_append, List.filterMap_append] at hps
        have hsame : q.url = some url := by simpa using List.find?_some hfind
        have hq : url ∈ l.filterMap Pipeline.url := List.mem_filterMap.mpr ⟨q, List.mem_of_find?_eq_some hfind, hsame⟩
        have hp : url ∈ [p].filterMap Pipeline.url := by simp [hurl]
        exact absurd rfl ((List.nodup_append.mp (List.nodup_append.mp hps).1).2.2 url hq url hp)
      · obtain ⟨d, hd⟩ := ih he hps
        refine ⟨d, ?_⟩
        rw [insertAll_cons, insert, hoffer]
        exact hd

section Items

variable {α : Type} {add : Catalog → α → Except CatalogError Catalog} {Makes : α → Pipeline → Prop}

theorem foldlM_eq_ok_iff (hadd : ∀ c x d, add c x = .ok d ↔ ∃ p, Makes x p ∧ c.insert p = .ok d) (xs : List α)
    (c d : Catalog) : xs.foldlM add c = .ok d ↔ ∃ ps, List.Forall₂ Makes xs ps ∧ c.insertAll ps = .ok d := by
  induction xs generalizing c with
  | nil =>
      constructor
      · intro h
        exact ⟨[], .nil, h⟩
      · rintro ⟨ps, hps, h⟩
        cases hps
        exact h
  | cons x xs ih =>
      rw [List.foldlM_cons]
      constructor
      · intro h
        obtain ⟨next, hnext, h⟩ := bind_ok h
        obtain ⟨p, hp, hinsert⟩ := (hadd c x next).mp hnext
        obtain ⟨ps, hps, hrest⟩ := (ih next).mp h
        refine ⟨p :: ps, .cons hp hps, ?_⟩
        rw [insertAll_cons, hinsert]
        exact hrest
      · rintro ⟨ps, hps, h⟩
        obtain ⟨p, qs, hp, hqs, rfl⟩ := List.forall₂_cons_left_iff.mp hps
        rw [insertAll_cons] at h
        obtain ⟨next, hinsert, hrest⟩ := bind_ok h
        rw [(hadd c x next).mpr ⟨p, hp, hinsert⟩]
        exact (ih next).mpr ⟨qs, hqs, hrest⟩

end Items

variable {shelf : Shelf} {s : Settings}

theorem insertResult_eq_ok_iff (c : Catalog) (report : CompileError → CatalogError) (r : Except CompileError Pipeline)
    (d : Catalog) : c.insertResult report r = .ok d ↔ ∃ p, r = .ok p ∧ c.insert p = .ok d := by
  cases r with
  | error e => simp [insertResult]
  | ok p => simp [insertResult]

def FileMakes (options : Options) (shelf : Shelf) (path : String) (p : Pipeline) : Prop :=
  ∃ source, shelf.read path = .ok source ∧ (compileFile options path source).result = .ok p

theorem addFile_eq_ok_iff (options : Options) (shelf : Shelf) (c : Catalog) (path : String) (d : Catalog) :
    c.addFile options shelf path = .ok d ↔ ∃ p, FileMakes options shelf path p ∧ c.insert p = .ok d := by
  rw [addFile]
  cases hread : shelf.read path with
  | error fault =>
      refine iff_of_false nofun ?_
      rintro ⟨p, ⟨source, hsource, -⟩, -⟩
      rw [hread] at hsource
      cases hsource
  | ok source =>
      refine (insertResult_eq_ok_iff c _ _ d).trans (exists_congr fun p => and_congr_left' ?_)
      simp only [FileMakes, hread, Except.ok.injEq, exists_eq_left']

theorem addBook_eq_ok_iff (options : Options) (c : Catalog) (b : InlineBook) (d : Catalog) :
    c.addBook options b = .ok d ↔ ∃ p, (compile options b.content).result = .ok p ∧ c.insert p = .ok d :=
  insertResult_eq_ok_iff c _ _ d

/-- The pipelines of the books of a library, those of the files first. -/
def Compiles (shelf : Shelf) (s : Settings) (ps : List Pipeline) : Prop :=
  ∃ files books, ps = files ++ books ∧ List.Forall₂ (FileMakes s.compiler shelf) s.bookFiles files ∧
    List.Forall₂ (fun b p => (compile s.compiler b.content).result = .ok p) s.books books

theorem Compiles.unique {ps qs : List Pipeline} (hps : Compiles shelf s ps) (hqs : Compiles shelf s qs) : ps = qs := by
  obtain ⟨files, books, rfl, hfiles, hbooks⟩ := hps
  obtain ⟨files', books', rfl, hfiles', hbooks'⟩ := hqs
  have hunique : Relator.RightUnique (FileMakes s.compiler shelf) := by
    rintro path p q ⟨source, hread, hp⟩ ⟨source', hread', hq⟩
    rw [hread, Except.ok.injEq] at hread'
    rw [← hread', hp] at hq
    exact Except.ok.inj hq
  have hcompile : Relator.RightUnique fun (b : InlineBook) p => (compile s.compiler b.content).result = .ok p := by
    intro b p q hp hq
    rw [hp] at hq
    exact Except.ok.inj hq
  rw [List.right_unique_forall₂' hunique hfiles hfiles', List.right_unique_forall₂' hcompile hbooks hbooks']

theorem build_eq_ok_iff (c : Catalog) :
    build shelf s = .ok c ↔ ∃ ps, Compiles shelf s ps ∧ insertAll {} ps = .ok c := by
  have hfiles := foldlM_eq_ok_iff (addFile_eq_ok_iff s.compiler shelf) s.bookFiles
  have hbooks := foldlM_eq_ok_iff (addBook_eq_ok_iff s.compiler) s.books
  constructor
  · intro h
    obtain ⟨next, hnext, h⟩ := bind_ok h
    obtain ⟨files, hmade, hinsert⟩ := (hfiles {} next).mp hnext
    obtain ⟨books, hcompiled, hrest⟩ := (hbooks next c).mp h
    refine ⟨files ++ books, ⟨files, books, rfl, hmade, hcompiled⟩, ?_⟩
    rw [insertAll] at hinsert ⊢
    rw [List.foldlM_append, hinsert]
    exact hrest
  · rintro ⟨_, ⟨files, books, rfl, hmade, hcompiled⟩, h⟩
    rw [insertAll, List.foldlM_append] at h
    obtain ⟨next, hinsert, hrest⟩ := bind_ok h
    rw [build, (hfiles {} next).mpr ⟨files, hmade, hinsert⟩]
    exact (hbooks next c).mpr ⟨books, hcompiled, hrest⟩

/-- A library is built if and only if all of its books compile and no two of them have one address. Then it records
their pipelines, those of the files first. -/
theorem build_records (shelf : Shelf) (s : Settings) :
    (∀ c, build shelf s = .ok c → ∃ ps, Compiles shelf s ps ∧ c.Records ps) ∧
    ∀ ps, Compiles shelf s ps → ((∃ c, build shelf s = .ok c) ↔ (ps.filterMap Pipeline.url).Nodup) := by
  have hmade : ∀ c, build shelf s = .ok c → ∃ ps, Compiles shelf s ps ∧ c.Records ps := by
    intro c h
    obtain ⟨ps, hps, hinsert⟩ := (build_eq_ok_iff c).mp h
    exact ⟨ps, hps, Records.empty.insertAll_ok hinsert⟩
  refine ⟨hmade, fun ps hps => ⟨?_, fun hnodup => ?_⟩⟩
  · rintro ⟨c, hc⟩
    obtain ⟨qs, hqs, hrecords⟩ := hmade c hc
    rw [hps.unique hqs]
    exact hrecords.urls_distinct
  · obtain ⟨c, hinsert⟩ := Records.empty.exists_insertAll hnodup
    exact ⟨c, (build_eq_ok_iff c).mpr ⟨ps, hps, hinsert⟩⟩

end Catalog

end BookCompiler
