import BookCompiler.Catalog.Basic
import BookCompiler.Proofs.Name.Order
import Mathlib.Data.List.Nodup

namespace BookCompiler

theorem lookup_of_mem {index : List (String × Nat)} (h : (index.map Prod.fst).Nodup) {k : String} {i : Nat}
    (hmem : (k, i) ∈ index) : index.lookup k = some i := by
  obtain ⟨before, after, rfl⟩ := List.append_of_mem hmem
  refine List.lookup_eq_some_iff.mpr ⟨before, after, rfl, fun entry hentry => ?_⟩
  rw [List.map_append, List.map_cons, List.nodup_append] at h
  have hne := h.2.2 entry.1 (List.mem_map_of_mem hentry) k List.mem_cons_self
  simpa using hne.symm

theorem filter_eq_toList_find? {α : Type} {key : α → Option String} {l : List α} (h : (l.filterMap key).Nodup)
    (k : String) : l.filter (fun a => key a = some k) = (l.find? fun a => key a = some k).toList := by
  induction l with
  | nil => rfl
  | cons a rest ih =>
      have hrest : (rest.filterMap key).Nodup := h.sublist ((List.sublist_cons_self a rest).filterMap key)
      by_cases ha : key a = some k
      · have hnone : ∀ b ∈ rest, key b ≠ some k := by
          intro b hb hkey
          rw [List.filterMap_cons_some ha, List.nodup_cons] at h
          exact h.1 (List.mem_filterMap.mpr ⟨b, hb, hkey⟩)
        have hfilter : rest.filter (fun a => key a = some k) = [] := by simpa using hnone
        simp [ha, hfilter]
      · simp [ha, ih hrest]

/-- An index holds the place where each key occurs first in a list of pipelines. -/
structure Indexes (key : Pipeline → Option String) (index : List (String × Nat)) (l : List Pipeline) : Prop where
  nodup : (index.map Prod.fst).Nodup
  lookup_eq : ∀ k, index.lookup k = l.findIdx? fun p => key p = some k

namespace Indexes

variable {key : Pipeline → Option String} {index : List (String × Nat)} {l : List Pipeline} {p : Pipeline}

theorem nil (key : Pipeline → Option String) : Indexes key [] [] := ⟨List.nodup_nil, fun _ => rfl⟩

theorem lt_length (h : Indexes key index l) {k : String} {i : Nat} (hmem : (k, i) ∈ index) : i < l.length := by
  have hfind := (h.lookup_eq k).symm.trans (lookup_of_mem h.nodup hmem)
  exact (List.findIdx?_eq_some_iff_findIdx_eq.mp hfind).1

theorem get_eq (h : Indexes key index l) (k : String) :
    (index.lookup k).bind (fun i => l[i]?) = l.find? fun p => key p = some k := by
  rw [h.lookup_eq, List.find?_eq_bind_findIdx?_getElem?]

theorem lookup_eq_none (h : Indexes key index l) (k : String) :
    index.lookup k = none ↔ ∀ p ∈ l, key p ≠ some k := by
  simp [h.lookup_eq, List.findIdx?_eq_none_iff]

theorem mem_keys (h : Indexes key index l) (k : String) : k ∈ index.map Prod.fst ↔ ∃ p ∈ l, key p = some k := by
  constructor
  · intro hk
    obtain ⟨⟨_, i⟩, hentry, rfl⟩ := List.mem_map.mp hk
    by_contra hnone
    push Not at hnone
    rw [← h.lookup_eq_none, lookup_of_mem h.nodup hentry] at hnone
    cases hnone
  · rintro ⟨p, hp, hkey⟩
    by_contra hk
    refine (h.lookup_eq_none k).mp (List.lookup_eq_none_iff.mpr fun entry hentry => ?_) p hp hkey
    simpa using fun he : k = entry.1 => hk (he ▸ List.mem_map_of_mem hentry)

theorem findIdx?_append_singleton (l : List Pipeline) (p : Pipeline) (k : String) :
    (l ++ [p]).findIdx? (fun q => key q = some k) =
      (l.findIdx? fun q => key q = some k).or (if key p = some k then some l.length else none) := by
  rw [List.findIdx?_append]
  by_cases hp : key p = some k <;> simp [hp]

theorem append_known (h : Indexes key index l) (hknown : ∀ k, key p = some k → index.lookup k ≠ none) :
    Indexes key index (l ++ [p]) := by
  refine ⟨h.nodup, fun k => ?_⟩
  rw [findIdx?_append_singleton, ← h.lookup_eq]
  split
  · rename_i hkey
    rw [Option.or_of_isSome (Option.isSome_iff_ne_none.mpr (hknown k hkey))]
  · rw [Option.or_none]

theorem append_new (h : Indexes key index l) {k : String} (hkey : key p = some k) (hnew : index.lookup k = none) :
    Indexes key (index ++ [(k, l.length)]) (l ++ [p]) := by
  constructor
  · rw [List.map_append, List.nodup_append]
    refine ⟨h.nodup, List.nodup_singleton k, ?_⟩
    rintro other hother _ hk rfl
    obtain rfl : other = k := by simpa using hk
    obtain ⟨q, hq, hsame⟩ := (h.mem_keys other).mp hother
    exact (h.lookup_eq_none other).mp hnew q hq hsame
  · intro other
    rw [findIdx?_append_singleton, ← h.lookup_eq, List.lookup_append]
    by_cases hother : other = k
    · simp [hother, hkey]
    · have hbeq : (other == k) = false := by simpa using hother
      simp [List.lookup_cons, hbeq, hkey, Ne.symm hother]

end Indexes

namespace Catalog

/-- A catalog that stands for a list of pipelines: it has them in order, no address is taken twice, and its indexes
lead to the first pipeline with an address or a title. -/
structure Records (c : Catalog) (l : List Pipeline) : Prop where
  pipelines_eq : c.pipelines = l
  urls_distinct : (l.filterMap Pipeline.url).Nodup
  byUrl : Indexes Pipeline.url c.byUrl l
  byTitle : Indexes (fun p => some p.title) c.byTitle l

namespace Records

variable {c : Catalog} {l : List Pipeline}

theorem empty : Records {} [] := ⟨rfl, List.nodup_nil, .nil _, .nil _⟩

theorem getByUrl_eq (h : c.Records l) (url : String) : c.getByUrl url = l.find? fun p => p.url = some url := by
  rw [getByUrl, h.pipelines_eq, h.byUrl.get_eq]

theorem getByTitle_eq (h : c.Records l) (title : String) : c.getByTitle title = l.find? fun p => p.title = title := by
  rw [getByTitle, h.pipelines_eq, h.byTitle.get_eq]
  simp only [Option.some.injEq]

theorem mem_urls (h : c.Records l) (url : String) : url ∈ c.urls ↔ ∃ p ∈ l, p.url = some url := by
  rw [urls, Name.mem_sorted, h.byUrl.mem_keys]

theorem noteUrl_cases (h : c.Records l) (p : Pipeline) :
    (∃ url q, p.url = some url ∧ l.find? (fun q => q.url = some url) = some q ∧
      c.noteUrl p = .refused c (.duplicateUrl url q.title p.title)) ∨
    (∀ url, p.url = some url → ∀ q ∈ l, q.url ≠ some url) ∧
      ∃ byUrl, c.noteUrl p = .done { c with byUrl } ∧ Indexes Pipeline.url byUrl (l ++ [p]) := by
  rw [noteUrl]
  cases hurl : p.url with
  | none => exact Or.inr ⟨by simp, c.byUrl, rfl, h.byUrl.append_known (by simp [hurl])⟩
  | some url =>
      dsimp only
      rw [h.getByUrl_eq]
      cases hfind : l.find? (fun q => q.url = some url) with
      | some q => exact Or.inl ⟨url, q, rfl, hfind, rfl⟩
      | none =>
          have hfree : ∀ q ∈ l, q.url ≠ some url := by simpa using hfind
          refine Or.inr ⟨?_, _, rfl, ?_⟩
          · rintro _ ⟨⟩
            exact hfree
          · rw [h.pipelines_eq]
            exact h.byUrl.append_new hurl ((h.byUrl.lookup_eq_none url).mpr hfree)

theorem noteTitle_indexes (hlength : c.pipelines.length = l.length)
    (h : Indexes (fun p => some p.title) c.byTitle l) (p : Pipeline) :
    ∃ byTitle, c.noteTitle p = { c with byTitle } ∧ Indexes (fun p => some p.title) byTitle (l ++ [p]) := by
  rw [noteTitle]
  split
  · rename_i hknown
    refine ⟨c.byTitle, rfl, h.append_known ?_⟩
    rintro _ ⟨⟩
    exact Option.isSome_iff_ne_none.mp hknown
  · rename_i hnew
    rw [hlength]
    exact ⟨_, rfl, h.append_new rfl (Option.not_isSome_iff_eq_none.mp hnew)⟩

theorem offer_cases (h : c.Records l) (p : Pipeline) :
    (∃ url q, p.url = some url ∧ l.find? (fun q => q.url = some url) = some q ∧
      c.offer p = .refused c (.duplicateUrl url q.title p.title)) ∨
    (∀ url, p.url = some url → ∀ q ∈ l, q.url ≠ some url) ∧
      ∃ d, c.offer p = .done d ∧ d.Records (l ++ [p]) := by
  rcases h.noteUrl_cases p with ⟨url, q, hurl, hfind, hnoted⟩ | ⟨hfree, byUrl, hnoted, hindex⟩
  · refine Or.inl ⟨url, q, hurl, hfind, ?_⟩
    rw [offer, hnoted]
    rfl
  · obtain ⟨byTitle, htitle, htitles⟩ := noteTitle_indexes (c := { c with byUrl }) (by rw [h.pipelines_eq]) h.byTitle p
    refine Or.inr ⟨hfree, { pipelines := c.pipelines ++ [p], byUrl, byTitle }, ?_, ?_, ?_, hindex, htitles⟩
    · rw [offer, hnoted]
      simp [Attempt.done, htitle]
    · rw [h.pipelines_eq]
    · rw [List.filterMap_append, List.nodup_append]
      refine ⟨h.urls_distinct, by cases hurl : p.url <;> simp [hurl], ?_⟩
      rintro url hmem _ hp rfl
      obtain ⟨q, hq, hsame⟩ := List.mem_filterMap.mp hmem
      exact hfree url (by simpa using hp) q hq hsame

theorem insert_refused (h : c.Records l) (p : Pipeline) :
    (∃ e, c.insert p = .error e) ↔ ∃ url, p.url = some url ∧ ∃ q ∈ l, q.url = some url := by
  rcases h.offer_cases p with ⟨url, q, hurl, hfind, hoffer⟩ | ⟨hfree, d, hoffer, -⟩
  · refine iff_of_true ⟨_, by rw [insert, hoffer]; rfl⟩ ⟨url, hurl, q, List.mem_of_find?_eq_some hfind, ?_⟩
    simpa using List.find?_some hfind
  · refine iff_of_false ?_ ?_
    · rintro ⟨e, he⟩
      rw [insert, hoffer] at he
      cases he
    · rintro ⟨url, hurl, q, hq, hsame⟩
      exact hfree url hurl q hq hsame

theorem offer_refused (h : c.Records l) {p : Pipeline} {e : CatalogError} (he : c.insert p = .error e) :
    (c.offer p).draft = c := by
  rcases h.offer_cases p with ⟨url, q, -, -, hoffer⟩ | ⟨-, d, hoffer, -⟩
  · rw [hoffer]
    rfl
  · rw [insert, hoffer] at he
    cases he

end Records

def offerNoted (s : Catalog × List Pipeline) (p : Pipeline) : Catalog × List Pipeline :=
  let a := s.1.offer p
  (a.draft, if a.refusal.isSome then s.2 else s.2 ++ [p])

/-- The catalog to which some pipelines have been offered, and those that it accepted. -/
def history (ps : List Pipeline) : Catalog × List Pipeline := ps.foldl offerNoted ({}, [])

theorem records_offerNoted {s : Catalog × List Pipeline} (h : s.1.Records s.2) (p : Pipeline) :
    (offerNoted s p).1.Records (offerNoted s p).2 := by
  rcases h.offer_cases p with ⟨url, q, -, -, hoffer⟩ | ⟨-, d, hoffer, hd⟩
  · rw [offerNoted, hoffer]
    exact h
  · rw [offerNoted, hoffer]
    exact hd

theorem records_foldl_offerNoted {s : Catalog × List Pipeline} (h : s.1.Records s.2) (ps : List Pipeline) :
    (ps.foldl offerNoted s).1.Records (ps.foldl offerNoted s).2 := by
  induction ps generalizing s with
  | nil => exact h
  | cons p ps ih => exact ih (records_offerNoted h p)

/-- A catalog is no more than the list of the pipelines that it accepted. Whatever was offered to it, it shows these
in order, refuses a further pipeline exactly if its address is taken, without being changed, and finds pipelines as a
search of the list does. -/
theorem history_records (ps : List Pipeline) (c : Catalog) (l : List Pipeline) (h : history ps = (c, l)) :
    c.pipelines = l ∧
    (∀ p, (∃ e, c.insert p = .error e) ↔ ∃ url, p.url = some url ∧ ∃ q ∈ l, q.url = some url) ∧
    (∀ p e, c.insert p = .error e → (c.offer p).draft = c) ∧
    (∀ url, l.filter (fun q => q.url = some url) = (c.getByUrl url).toList) ∧
    (∀ title, c.getByTitle title = l.find? fun q => q.title = title) ∧
    (∀ key, c.get key = (l.find? fun q => q.url = some key).or (l.find? fun q => q.title = key)) ∧
    (c.urls.Pairwise (· < ·) ∧ ∀ url, url ∈ c.urls ↔ ∃ q ∈ l, q.url = some url) ∧
    ∀ entry ∈ c.byUrl ++ c.byTitle, entry.2 < c.pipelines.length := by
  have hrecords : c.Records l := by
    have hall := records_foldl_offerNoted (s := ({}, [])) .empty ps
    rwa [← history, h] at hall
  refine ⟨hrecords.pipelines_eq, hrecords.insert_refused, fun _ _ => hrecords.offer_refused, ?_,
    hrecords.getByTitle_eq, ?_, ⟨Name.sorted_increasing _, hrecords.mem_urls⟩, ?_⟩
  · intro url
    rw [hrecords.getByUrl_eq, filter_eq_toList_find? hrecords.urls_distinct]
  · intro key
    rw [get, hrecords.getByUrl_eq, hrecords.getByTitle_eq]
  · rintro ⟨k, i⟩ hentry
    rw [hrecords.pipelines_eq]
    rcases List.mem_append.mp hentry with hentry | hentry
    · exact hrecords.byUrl.lt_length hentry
    · exact hrecords.byTitle.lt_length hentry

def arrivals : List Pipeline :=
  [{ title := "Same", url := some "https://a.book" }, { title := "Same", url := some "https://b.book" },
   { title := "Late", url := some "https://a.book" }, { title := "https://a.book" }]

theorem history_records_arrivals : ∃ c l, history arrivals = (c, l) ∧ c.pipelines.map Pipeline.title =
    ["Same", "Same", "https://a.book"] ∧ (c.get "https://a.book").map Pipeline.title = some "Same" ∧
    c.urls.Pairwise (· < ·) := by
  obtain ⟨hpipelines, -, -, -, -, hget, ⟨hurls, -⟩, -⟩ := history_records arrivals _ _ rfl
  refine ⟨_, _, rfl, ?_, ?_, hurls⟩
  · rw [hpipelines]
    decide
  · rw [hget]
    decide

end Catalog

end BookCompiler
