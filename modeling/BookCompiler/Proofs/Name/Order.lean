import BookCompiler.Name.Reference
import Mathlib.Data.String.Basic

namespace BookCompiler.Name

theorem mem_insert (x name : String) (l : List String) : x ∈ insert name l ↔ x = name ∨ x ∈ l := by
  induction l with
  | nil => simp [insert]
  | cons first rest ih =>
      simp only [insert]
      split
      · simp
      · split
        · rename_i _ he
          subst he
          simp
        · simp only [List.mem_cons, ih]
          tauto

theorem mem_sorted (x : String) (names : List String) : x ∈ sorted names ↔ x ∈ names := by
  induction names with
  | nil => simp [sorted]
  | cons name rest ih =>
      rw [show sorted (name :: rest) = insert name (sorted rest) from rfl, mem_insert, ih, List.mem_cons]

theorem insert_increasing (name : String) (l : List String) (h : l.Pairwise (· < ·)) :
    (insert name l).Pairwise (· < ·) := by
  induction l with
  | nil => simp [insert]
  | cons first rest ih =>
      obtain ⟨hfirst, hrest⟩ := List.pairwise_cons.mp h
      simp only [insert]
      split
      · rename_i hlt
        refine List.pairwise_cons.mpr ⟨?_, h⟩
        intro x hx
        rcases List.mem_cons.mp hx with rfl | hx
        · exact hlt
        · exact lt_trans hlt (hfirst x hx)
      · rename_i hge
        split
        · exact h
        · rename_i hne
          refine List.pairwise_cons.mpr ⟨?_, ih hrest⟩
          intro x hx
          rcases (mem_insert x name rest).mp hx with rfl | hx
          · exact lt_of_le_of_ne (not_lt.mp hge) (Ne.symm hne)
          · exact hfirst x hx

theorem sorted_increasing (names : List String) : (sorted names).Pairwise (· < ·) := by
  induction names with
  | nil => exact List.Pairwise.nil
  | cons name rest ih => exact insert_increasing name (sorted rest) ih

theorem sorted_perm {xs ys : List String} (h : xs.Perm ys) : sorted xs = sorted ys := by
  have hperm : (sorted xs).Perm (sorted ys) := by
    refine (List.perm_ext_iff_of_nodup ?_ ?_).mpr fun name => ?_
    · exact (sorted_increasing xs).imp ne_of_lt
    · exact (sorted_increasing ys).imp ne_of_lt
    · rw [mem_sorted, mem_sorted, h.mem_iff]
  exact List.Perm.eq_of_pairwise (fun a b _ _ hab hba => absurd (hab.trans hba) (lt_irrefl a))
    (sorted_increasing xs) (sorted_increasing ys) hperm

end BookCompiler.Name
