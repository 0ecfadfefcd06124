import BookCompiler.Proofs.Compile.Run
import BookCompiler.Proofs.Script.Limits

namespace BookCompiler

def CompileError.exceedsLimit : CompileError → Bool
  | script fault => fault.isLimit
  | inPipeline _ cause => cause.exceedsLimit
  | _ => false

theorem CompileError.exceedsLimit_ofScript (e : Script.Failure) : (ofScript e).exceedsLimit = e.isLimit := by
  cases e <;> rfl

theorem CompileError.exceedsLimit_within (url : Option String) (e : CompileError) :
    (e.within url).exceedsLimit = e.exceedsLimit := by
  cases e <;> cases url <;> rfl

namespace Attempt

variable {ε α β : Type} {P : ε → Prop}

/-- The second attempt is the first, unless the first is refused for a reason of a kind. -/
def SameUnless (P : ε → Prop) (a b : Attempt ε α) : Prop := a = b ∨ ∃ e, a.refusal = some e ∧ P e

theorem SameUnless.andThen {a b : Attempt ε α} {f g : α → Attempt ε α} (h : SameUnless P a b)
    (hfg : ∀ x, SameUnless P (f x) (g x)) : SameUnless P (a.andThen f) (b.andThen g) := by
  rcases h with rfl | ⟨e, hrefusal, he⟩
  · unfold Attempt.andThen
    cases hrefusal : a.refusal with
    | some e => exact Or.inl rfl
    | none =>
        rcases hfg a.draft with hsame | ⟨e, hrest, he⟩
        · left
          dsimp only
          rw [hsame]
        · exact Or.inr ⟨e, hrest, he⟩
  · right
    refine ⟨e, ?_, he⟩
    rw [Attempt.andThen, hrefusal]
    exact hrefusal

theorem SameUnless.each {f g : β → α → Attempt ε α} (hfg : ∀ b x, SameUnless P (f b x) (g b x)) (bs : List β) (x : α) :
    SameUnless P (each f bs x) (each g bs x) := by
  induction bs generalizing x with
  | nil => exact Or.inl rfl
  | cons b bs ih => exact (hfg b x).andThen ih

end Attempt

section Raised

variable {small large : Script.Limits}

namespace BookSection

theorem finishTask_raised (h : small.Within large) (s : BookSection) (state : String) (d : PipelineDraft) (t : Task) :
    SameUnless (·.exceedsLimit = true) (s.finishTask small state d t) (s.finishTask large state d t) := by
  refine .ite (.refl _) (SameUnless.bind (.refl _) fun u => ?_)
  rcases u.neededNames_raised h with hsame | ⟨fault, hfault, hlimit⟩
  · rw [hsame]
    exact .refl _
  · rw [hfault]
    exact Or.inr ⟨_, rfl, (CompileError.exceedsLimit_ofScript fault).trans hlimit⟩

theorem addTask_raised (h : small.Within large) (s : BookSection) (w : Workpiece) :
    Attempt.SameUnless (·.exceedsLimit = true) (s.addTask small w) (s.addTask large w) := by
  unfold addTask
  cases w.task.build with
  | none => exact Or.inl rfl
  | some t =>
      dsimp only
      rcases s.finishTask_raised h w.task.snapshot w.pipeline t with hsame | ⟨e, he, hlimit⟩
      · rw [hsame]
        exact Or.inl rfl
      · rw [he]
        exact Or.inr ⟨e, rfl, hlimit⟩

theorem apply_raised (h : small.Within large) (s : BookSection) (d : PipelineDraft) :
    Attempt.SameUnless (·.exceedsLimit = true) (s.apply small d) (s.apply large d) := by
  unfold apply
  cases s.openDraft with
  | error e => exact Or.inl rfl
  | ok task =>
      dsimp only
      split
      · exact Or.inl rfl
      · exact .andThen (Or.inl rfl) fun _ => s.addTask_raised h _

end BookSection

theorem Book.assemble_raised (h : small.Within large) (book : Book) :
    Attempt.SameUnless (·.exceedsLimit = true) (book.assemble small) (book.assemble large) := by
  apply Attempt.SameUnless.andThen (Or.inl rfl)
  exact Attempt.SameUnless.each (fun s d => s.apply_raised h d) book.sections

end Raised

theorem Book.compile_congr {first second : Options} {book : Book} (habstractions : first.abstractions = second.abstractions)
    (hvalidation : first.validation = second.validation)
    (hassemble : book.assemble first.limits = book.assemble second.limits) :
    book.compile first = book.compile second := by
  have hfinish (d : PipelineDraft) : d.finish first = d.finish second := by
    rw [PipelineDraft.finish, PipelineDraft.finish, habstractions]
  have hcheck (p : Pipeline) : first.check p = second.check p := by
    rw [Options.check, Options.check, hvalidation]
  simp only [compile, hassemble, hfinish, hcheck]

/-- Raising the limits of the script analysis keeps every answer of the compiler, with its notices, apart
from the refusal of a script for its size. In particular a book that compiles still compiles to the same
pipeline. -/
theorem compile_raiseLimits {small large : Options} (habstractions : small.abstractions = large.abstractions)
    (hvalidation : small.validation = large.validation) (hidentifiers : small.maxIdentifiers ≤ large.maxIdentifiers)
    (hnesting : small.maxNesting ≤ large.maxNesting) (source : String) :
    (∀ p, (compile small source).result = .ok p → (compile large source).result = .ok p) ∧
    (compile large source = compile small source ∨
      ∃ e, (compile small source).result = .error e ∧ e.exceedsLimit = true) := by
  have hwithin : small.limits.Within large.limits :=
    ⟨UInt64.le_iff_toNat_le.mp hidentifiers, UInt64.le_iff_toNat_le.mp hnesting⟩
  have hall : compile large source = compile small source ∨
      ∃ e, (compile small source).result = .error e ∧ e.exceedsLimit = true := by
    unfold compile
    cases Book.read source with
    | error e => exact Or.inl rfl
    | ok book =>
        rcases book.assemble_raised hwithin with hsame | ⟨e, hrefusal, hlimit⟩
        · exact Or.inl (Book.compile_congr habstractions hvalidation hsame).symm
        · right
          refine ⟨e.within (book.assemble small.limits).draft.url, ?_, ?_⟩
          · simp only [Book.compile, hrefusal]
          · rw [CompileError.exceedsLimit_within, hlimit]
  refine ⟨fun p hp => ?_, hall⟩
  rcases hall with hsame | ⟨e, he, -⟩
  · rw [hsame, hp]
  · rw [hp] at he
    cases he

def scriptsBook : String :=
  "# S\n## A\n- SCRIPT\n```js\n`$\x7ba\x7d`\n```\n-> \x7bb\x7d\n" ++
  "## B\n- SCRIPT\n```py\nf\"\x7bb\x7d \x7bc\x7d\"\n```\n-> \x7bd\x7d"

def tight : Options := { maxIdentifiers := 2, maxNesting := 1 }

theorem compile_raiseLimits_scriptsBook :
    ∃ p, (compile tight scriptsBook).result = .ok p ∧ (compile {} scriptsBook).result = .ok p := by
  obtain ⟨p, hp⟩ := exists_of_isOk (r := (compile tight scriptsBook).result) (by decide +kernel)
  obtain ⟨hkept, -⟩ := @compile_raiseLimits tight {} rfl rfl (by decide) (by decide) scriptsBook
  exact ⟨p, hp, hkept p hp⟩

end BookCompiler
