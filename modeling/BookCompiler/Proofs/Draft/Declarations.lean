import BookCompiler.Proofs.Draft.Slots

namespace BookCompiler

open Attempt

/-- Declarations that can stand together: no name is reserved, none has two descriptions and none has two roles. -/
structure Compatible (qs : List ParameterDraft) : Prop where
  free : ∀ q ∈ qs, isReserved q.name = false
  description : ∀ name a b, Says qs ParameterDraft.name ParameterDraft.description name a →
    Says qs ParameterDraft.name ParameterDraft.description name b → a = b
  role : ∀ name a b, Says qs ParameterDraft.name ParameterDraft.role name a →
    Says qs ParameterDraft.name ParameterDraft.role name b → a = b

theorem Compatible.mono {qs rs : List ParameterDraft} (h : Compatible rs) (hsub : qs ⊆ rs) : Compatible qs where
  free q hq := h.free q (hsub hq)
  description name a b ha hb := h.description name a b (ha.mono hsub) (hb.mono hsub)
  role name a b ha hb := h.role name a b (ha.mono hsub) (hb.mono hsub)

namespace ParameterDraft

/-- A parameter that has what these declarations say of its name, and nothing more. -/
structure Holds (p : ParameterDraft) (qs : List ParameterDraft) : Prop where
  description : Gathers p.description (Says qs name description p.name)
  role : Gathers p.role (Says qs name role p.name)
  examples : p.examples = []

variable {p q r : ParameterDraft} {qs rs : List ParameterDraft}

theorem Holds.eq (hp : p.Holds qs) (hr : r.Holds rs) (hname : p.name = r.name) (hsame : ∀ q, q ∈ qs ↔ q ∈ rs) :
    p = r := by
  obtain ⟨hdescription, hrole, hexamples⟩ := hp
  rw [says_congr hsame, hname] at hdescription hrole
  cases p
  cases r
  simp only [mk.injEq]
  exact ⟨hname, hdescription.eq hr.description, hrole.eq hr.role, hexamples.trans hr.examples.symm⟩

theorem Holds.of_ne (h : p.Holds qs) (hname : q.name ≠ p.name) : p.Holds (qs ++ [q]) :=
  ⟨h.description.says_of_ne hname, h.role.says_of_ne hname, h.examples⟩

theorem Holds.merge (h : p.Holds qs) (hname : q.name = p.name) (hq : q.examples = [])
    (hr : (p.merge q).accepted? = some r) : r.Holds (qs ++ [q]) := by
  rw [accepted?_merge] at hr
  obtain ⟨description, hdescription, hr⟩ := Option.bind_eq_some_iff.mp hr
  obtain ⟨role, hrole, rfl⟩ := Option.map_eq_some_iff.mp hr
  refine ⟨(h.description.agree_says_iff hname description).mp hdescription,
    (h.role.agree_says_iff hname role).mp hrole, ?_⟩
  simp [h.examples, hq]

theorem Holds.exists_merge (h : p.Holds qs) (hname : q.name = p.name) (hcompatible : Compatible (qs ++ [q])) :
    ∃ r, (p.merge q).accepted? = some r := by
  obtain ⟨description, hdescription⟩ := exists_gathers (hcompatible.description p.name)
  obtain ⟨role, hrole⟩ := exists_gathers (hcompatible.role p.name)
  rw [accepted?_merge, (h.description.agree_says_iff hname description).mpr hdescription,
    (h.role.agree_says_iff hname role).mpr hrole]
  exact ⟨_, rfl⟩

end ParameterDraft

namespace PipelineDraft

def defineAll (d : PipelineDraft) (qs : List ParameterDraft) : Attempt ParameterError PipelineDraft :=
  each (fun q d => d.defineParameter q) qs d

/-- A draft with the parameters that these declarations name, each once, and with what they say of them. -/
structure Collects (d : PipelineDraft) (qs : List ParameterDraft) : Prop where
  nodup : d.names.Nodup
  free : ∀ name ∈ d.names, isReserved name = false
  names : ∀ name, name ∈ d.names ↔ ∃ q ∈ qs, q.name = name
  holds : ∀ p ∈ d.parameters, p.Holds qs

namespace Collects

variable {d e : PipelineDraft} {q : ParameterDraft} {qs rs : List ParameterDraft}

theorem of_empty (hd : d.parameters = []) : d.Collects [] := by
  have hnames : d.names = [] := by rw [PipelineDraft.names, hd, List.map_nil]
  constructor <;> simp [hnames, hd]

theorem exists_named (h : d.Collects qs) {α : Type} {field : ParameterDraft → Option α} {name : String} {a : α}
    (hsaid : Says qs ParameterDraft.name field name a) : ∃ p ∈ d.parameters, p.name = name := by
  obtain ⟨q, hq, hname, -⟩ := hsaid
  exact List.mem_map.mp ((h.names name).mpr ⟨q, hq, hname⟩)

theorem compatible (h : d.Collects qs) : Compatible qs where
  free q hq := h.free q.name ((h.names q.name).mpr ⟨q, hq, rfl⟩)
  description name a b ha hb := by
    obtain ⟨p, hp, rfl⟩ := h.exists_named ha
    exact (h.holds p hp).description.unique ha hb
  role name a b ha hb := by
    obtain ⟨p, hp, rfl⟩ := h.exists_named ha
    exact (h.holds p hp).role.unique ha hb

theorem known (h : d.Collects qs) (name : String) :
    (Slots.known d.parameter? name).name = name ∧ (Slots.known d.parameter? name).Holds qs := by
  rw [Slots.known]
  cases hfind : d.parameter? name with
  | some p =>
      obtain ⟨hp, hname⟩ := parameter?_eq_some hfind
      exact ⟨hname, h.holds p hp⟩
  | none =>
      have hsilent {α : Type} (field : ParameterDraft → Option α) :
          Gathers none (Says qs ParameterDraft.name field name) := by
        intro a
        constructor
        · intro hnone
          cases hnone
        · intro hsaid
          obtain ⟨p, hp, hname⟩ := h.exists_named hsaid
          exact absurd (hname ▸ List.mem_map_of_mem hp) ((d.parameter?_eq_none name).mp hfind)
      exact ⟨rfl, hsilent _, hsilent _, rfl⟩

theorem defineParameter (h : d.Collects qs) (hq : q.examples = []) (hok : (d.defineParameter q).refusal = none) :
    (d.defineParameter q).draft.Collects (qs ++ [q]) := by
  have hfree := isReserved_of_accepted hok
  have hnodup := nodup_names_defineParameter h.nodup q
  obtain ⟨r, hr, hupdate⟩ : ∃ r, ((Slots.known d.parameter? q.name).merge q).accepted? = some r ∧
      Function.update d.parameter? q.name (some r) = (d.defineParameter q).draft.parameter? := by
    have hview := d.accepted?_defineParameter hfree
    rw [accepted?_eq_some.mpr ⟨hok, rfl⟩] at hview
    exact Option.map_eq_some_iff.mp hview.symm
  refine ⟨hnodup, ?_, ?_, ?_⟩
  · intro name hname
    rcases mem_names_defineParameter.mp hname with hold | ⟨-, rfl⟩
    · exact h.free name hold
    · exact hfree
  · intro name
    rw [mem_names_defineParameter, h.names]
    simp [hfree, or_and_right, exists_or, eq_comm]
  · intro p hp
    have hfind := (parameter?_eq_some_iff hnodup p).mpr hp
    rw [← hupdate, Function.update_apply] at hfind
    split at hfind
    · obtain ⟨hname, hknown⟩ := h.known q.name
      cases hfind
      exact hknown.merge hname.symm hq hr
    · rename_i hother
      exact (h.holds p (parameter?_eq_some hfind).1).of_ne (Ne.symm hother)

theorem accepts (h : d.Collects qs) (hcompatible : Compatible (qs ++ [q])) : (d.defineParameter q).refusal = none := by
  have hfree : isReserved q.name = false := hcompatible.free q (by simp)
  obtain ⟨hname, hknown⟩ := h.known q.name
  obtain ⟨r, hr⟩ := hknown.exists_merge hname.symm hcompatible
  have hview := d.accepted?_defineParameter hfree
  rw [hr, Option.map_some] at hview
  obtain ⟨e, he, -⟩ := Option.map_eq_some_iff.mp hview
  exact (accepted?_eq_some.mp he).1

theorem defineAll (h : d.Collects qs) (hrs : ∀ r ∈ rs, r.examples = []) (hok : (d.defineAll rs).refusal = none) :
    (d.defineAll rs).draft.Collects (qs ++ rs) :=
  each_takes (fun r hr _ _ hd hfirst => hd.defineParameter (hrs r hr) hfirst) h hok

theorem accepts_all (h : d.Collects qs) (hrs : ∀ r ∈ rs, r.examples = []) (hcompatible : Compatible (qs ++ rs)) :
    (d.defineAll rs).refusal = none :=
  each_accepts (fun r hr _ _ hd hfirst => hd.defineParameter (hrs r hr) hfirst) (fun _ _ _ _ hd => hd.accepts)
    (fun _ _ hall => hall.mono (List.subset_append_left _ _)) h hcompatible

theorem perm (hd : d.Collects qs) (he : e.Collects rs) (hsame : ∀ q, q ∈ qs ↔ q ∈ rs) :
    d.parameters.Perm e.parameters := by
  have hsub {d e : PipelineDraft} {qs rs : List ParameterDraft} (hd : d.Collects qs) (he : e.Collects rs)
      (hsame : ∀ q, q ∈ qs ↔ q ∈ rs) {p : ParameterDraft} (hp : p ∈ d.parameters) : p ∈ e.parameters := by
    obtain ⟨q, hq, hname⟩ := (hd.names p.name).mp (List.mem_map_of_mem hp)
    obtain ⟨r, hr, hr'⟩ := List.mem_map.mp ((he.names p.name).mpr ⟨q, (hsame q).mp hq, hname⟩)
    rwa [(hd.holds p hp).eq (he.holds r hr) hr'.symm hsame]
  rw [List.perm_ext_iff_of_nodup hd.nodup.of_map he.nodup.of_map]
  exact fun p => ⟨hsub hd he hsame, hsub he hd fun q => (hsame q).symm⟩

end Collects

variable {d : PipelineDraft} {p q : ParameterDraft} {qs rs : List ParameterDraft}

theorem defineParameter_frame (d : PipelineDraft) (q : ParameterDraft) :
    (d.defineParameter q).draft = { d with parameters := (d.defineParameter q).draft.parameters } := by
  rw [defineParameter]
  split
  · rfl
  · split <;> rfl

theorem defineAll_frame (hok : (d.defineAll qs).refusal = none) :
    (d.defineAll qs).draft = { d with parameters := (d.defineAll qs).draft.parameters } := by
  refine each_keeps (I := fun e => e = { d with parameters := e.parameters }) (fun q _ e he _ => ?_) rfl hok
  rw [defineParameter_frame, he]

/-- Declarations without examples can come in any order. They are accepted if and only if they can stand together,
and leave the same parameters in some order: those that are named, each once and with all that is said of it. -/
theorem defineAll_perm (hd : d.parameters = []) (hqs : ∀ q ∈ qs, q.examples = []) (hperm : rs.Perm qs) :
    ((d.defineAll qs).refusal = none ↔ Compatible qs) ∧
    ((d.defineAll rs).refusal = none ↔ (d.defineAll qs).refusal = none) ∧
    ((d.defineAll qs).refusal = none →
      (d.defineAll qs).draft.Collects qs ∧
      (d.defineAll qs).draft = { d with parameters := (d.defineAll qs).draft.parameters } ∧
      (d.defineAll rs).draft.parameters.Perm (d.defineAll qs).draft.parameters) := by
  have hempty := Collects.of_empty hd
  have hrs : ∀ r ∈ rs, r.examples = [] := fun r hr => hqs r (hperm.mem_iff.mp hr)
  have haccepts {qs : List ParameterDraft} (hqs : ∀ q ∈ qs, q.examples = []) :
      (d.defineAll qs).refusal = none ↔ Compatible qs :=
    ⟨fun hok => (hempty.defineAll hqs hok).compatible, hempty.accepts_all hqs⟩
  have hboth : (d.defineAll rs).refusal = none ↔ (d.defineAll qs).refusal = none := by
    rw [haccepts hrs, haccepts hqs]
    exact ⟨fun h => h.mono hperm.symm.subset, fun h => h.mono hperm.subset⟩
  refine ⟨haccepts hqs, hboth, fun hok => ?_⟩
  have hcollects := hempty.defineAll hqs hok
  exact ⟨hcollects, defineAll_frame hok,
    (hempty.defineAll hrs (hboth.mpr hok)).perm hcollects fun q => hperm.mem_iff⟩

def poemDeclarations : List ParameterDraft :=
  [{ name := "poem" }, { name := "topic", role := some .input }, { name := "poem", description := some "A poem" },
   { name := "poem", role := some .output }, { name := "poem", description := some "A poem" }]

theorem defineAll_perm_poemDeclarations :
    (defineAll { title := "T" } poemDeclarations).refusal = none ∧
    (defineAll { title := "T" } poemDeclarations.reverse).refusal = none ∧
    (defineAll { title := "T" } poemDeclarations.reverse).draft.parameters.Perm
      [{ name := "poem", description := some "A poem", role := some .output },
       { name := "topic", role := some .input }] := by
  have hok : (defineAll { title := "T" } poemDeclarations).refusal = none := by decide
  obtain ⟨-, hboth, hresult⟩ := defineAll_perm (d := { title := "T" }) rfl (by decide)
    (List.reverse_perm poemDeclarations)
  exact ⟨hok, hboth.mpr hok, (hresult hok).2.2⟩

end PipelineDraft

namespace ParameterDraft

variable {p q : ParameterDraft}

/-- A parameter without a description meets a declaration with one that asks for another role. -/
structure Spills (p q : ParameterDraft) : Prop where
  undescribed : p.description = none
  described : q.description ≠ none
  conflict : ∃ first second, p.role = some first ∧ q.role = some second ∧ first ≠ second

/-- The description is taken before the roles are compared, and stays when they turn out to disagree. -/
theorem merge_of_spills (h : p.Spills q) :
    (p.merge q).refusal = some (.conflictingRole q.name) ∧
      (p.merge q).draft = { p with description := q.description } := by
  have hrole : mergeRole p.role q.role = none := by
    rw [mergeRole_eq_agree, agree_eq_none_iff]
    exact h.conflict
  simp [merge, h.undescribed, mergeDescription, hrole, refused]

theorem merge_of_not_spills (h : (p.merge q).refusal.isSome = true) (hnot : ¬ p.Spills q) : (p.merge q).draft = p := by
  cases hdescription : mergeDescription p.description q.description with
  | error texts => simp [merge, hdescription, refused]
  | ok description =>
      have hagree := agree_of_mergeDescription hdescription
      cases hrole : mergeRole p.role q.role with
      | some role => simp [merge, hdescription, hrole, done] at h
      | none =>
          have hsame : description = p.description := by
            cases hp : p.description with
            | some text => exact ((agree_eq_some_iff _ _ _).mp hagree text).mpr (Or.inl hp)
            | none =>
                rw [hp, agree_none_left, Option.some.injEq] at hagree
                rw [mergeRole_eq_agree, agree_eq_none_iff] at hrole
                by_contra hsome
                exact hnot ⟨hp, hagree ▸ hsome, hrole⟩
          simp [merge, hdescription, hrole, refused, hsame]

end ParameterDraft

namespace PipelineDraft

variable {d : PipelineDraft} {p q : ParameterDraft}

/-- A declaration of a parameter that is there leaves its description behind although its role is refused. -/
structure Spills (d : PipelineDraft) (q p : ParameterDraft) : Prop where
  free : isReserved q.name = false
  found : d.parameter? q.name = some p
  spills : p.Spills q

theorem defineParameter_of_spills (h : d.Spills q p) :
    (d.defineParameter q).refusal = some (.conflictingRole q.name) ∧
      (d.defineParameter q).draft = d.setParameter { p with description := q.description } := by
  obtain ⟨hrefusal, hdraft⟩ := ParameterDraft.merge_of_spills h.spills
  simp [defineParameter, h.free, h.found, Attempt.map, hrefusal, hdraft]

theorem defineParameter_of_not_spills (h : (d.defineParameter q).refusal.isSome = true) (hnot : ∀ p, ¬ d.Spills q p) :
    (d.defineParameter q).draft = d := by
  cases hfree : isReserved q.name with
  | true => simp [defineParameter, hfree, refused]
  | false =>
      cases hfind : d.parameter? q.name with
      | none => simp [defineParameter, hfree, hfind, done] at h
      | some p =>
          have hmerge : (p.merge q).refusal.isSome = true := by
            simpa [defineParameter, hfree, hfind, Attempt.map] using h
          have hdraft := ParameterDraft.merge_of_not_spills hmerge fun hspills => hnot p ⟨hfree, hfind, hspills⟩
          simp [defineParameter, hfree, hfind, Attempt.map, hdraft, setParameter_self hfind]

theorem setParameter_ne_of_spills (h : d.Spills q p) : d.setParameter { p with description := q.description } ≠ d := by
  obtain ⟨hp, hname⟩ := parameter?_eq_some h.found
  have hmem : p.name ∈ d.names := List.mem_map_of_mem hp
  intro hsame
  have hfind : (d.setParameter { p with description := q.description }).parameter? p.name =
      some { p with description := q.description } := by
    rw [parameter?_setParameter (q := { p with description := q.description }) hmem]
    exact Function.update_self ..
  rw [hsame, hname, h.found, Option.some.injEq] at hfind
  have hdescription : p.description = q.description := by rw [hfind]
  exact h.spills.described (hdescription ▸ h.spills.undescribed)

/-- A refused declaration changes the draft if and only if it spills, and then by its description. The state that is
reported with a command of the head is the one that its declaration leaves. -/
theorem defineParameter_refused {e : ParameterError} (h : (d.defineParameter q).refusal = some e) :
    ((d.defineParameter q).draft = d ↔ ∀ p, ¬ d.Spills q p) ∧
    (∀ p, d.Spills q p → e = .conflictingRole q.name ∧
      (d.defineParameter q).draft = d.setParameter { p with description := q.description }) ∧
    ∀ line x, x.role = .ok q.role → q = { name := x.name, description := x.description, role := q.role } →
      (applyHeadCommand ⟨line, .parameter x⟩ d).refusal =
        some (.refused (.parameter e) line .parameter (d.defineParameter q).draft.snapshot) := by
  refine ⟨⟨fun hsame p hspills => ?_, fun hnot => ?_⟩, fun p hspills => ?_, fun line x hrole hq => ?_⟩
  · rw [(defineParameter_of_spills hspills).2] at hsame
    exact setParameter_ne_of_spills hspills hsame
  · exact defineParameter_of_not_spills (by simp [h]) hnot
  · obtain ⟨hrefusal, hdraft⟩ := defineParameter_of_spills hspills
    exact ⟨Option.some.inj (h.symm.trans hrefusal), hdraft⟩
  · have hdeclare : d.declare x = (d.defineParameter q).mapRefusal .parameter := by
      simp only [declare, hrole, ← hq]
    have happly : CommandKind.parameter.applyToHead (.parameter x) d = d.declare x := rfl
    simp only [applyHeadCommand, owner?_builtIn, Command.kind, happly, hdeclare, mapRefusal, h, Option.map_some]

def topicDraft : PipelineDraft where
  title := "T"
  parameters := [{ name := "topic", role := some .input }]

def topicOutput : ParameterDraft where
  name := "topic"
  description := some "Topic"
  role := some .output

/-- The refused declaration is seen in the draft, and in the state that is reported. -/
theorem topicOutput_left_behind :
    (topicDraft.defineParameter topicOutput).refusal = some (.conflictingRole "topic") ∧
    (topicDraft.defineParameter topicOutput).draft ≠ topicDraft ∧
    (topicDraft.defineParameter topicOutput).draft.snapshot ≠ topicDraft.snapshot :=
  ⟨by decide, by decide, by decide +kernel⟩

theorem defineParameter_refused_topicOutput :
    (applyHeadCommand ⟨"OUTPUT PARAM \x7btopic\x7d Topic", .parameter ⟨"topic", some "Topic", false, true⟩⟩
        topicDraft).refusal =
      some (.refused (.parameter (.conflictingRole "topic")) "OUTPUT PARAM \x7btopic\x7d Topic" .parameter
        (topicDraft.setParameter { name := "topic", description := some "Topic", role := some .input }).snapshot) := by
  have hspills : topicDraft.Spills topicOutput { name := "topic", role := some .input } :=
    ⟨by decide, by decide, by decide, by decide, .input, .output, by decide⟩
  obtain ⟨-, hdraft, hstate⟩ := defineParameter_refused (d := topicDraft) (q := topicOutput)
    (e := .conflictingRole "topic") (by decide)
  rw [hstate _ ⟨"topic", some "Topic", false, true⟩ rfl rfl, (hdraft _ hspills).2]
  rfl

end PipelineDraft

end BookCompiler
