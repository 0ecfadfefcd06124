import BookCompiler.Json.Codec
import Mathlib.Data.List.Basic

namespace BookCompiler

def Binary64.isFinite : Binary64 → Bool
  | finite _ _ _ => true
  | infinite _ => false
  | nan => false

namespace Json

section Scalars

theorem nat?_int {bound n : Nat} (h : n < bound) : (int n).nat? bound = some n := by
  have hlt : (n : Int) < (bound : Int) := Int.ofNat_lt.mpr h
  simp [nat?, hlt]

theorem uint32?_ofUInt32 (n : UInt32) : (ofUInt32 n).uint32? = some n := by
  rw [uint32?, ofUInt32, nat?_int n.toNat_lt_size, Option.map_some, UInt32.ofNat_toNat]

theorem uint64?_ofUInt64 (n : UInt64) : (ofUInt64 n).uint64? = some n := by
  rw [uint64?, ofUInt64, nat?_int n.toNat_lt_size, Option.map_some, UInt64.ofNat_toNat]

theorem real?_ofReal (x : Binary64) : (ofReal x).real? = if x.isFinite then some x else none := by
  cases x <;> rfl

end Scalars

section Steps

variable {α β : Type}

/-- A reader takes one member after the other. Rewriting with this follows it, where a simplifier would go through
all that is still to be read at every member. -/
theorem bind_of_eq {x : Option α} {a : α} (h : x = some a) (f : α → Option β) : (x >>= f) = f a := by
  rw [h]
  rfl

theorem record?_obj_bind (fields : List String) (m : Members) (f : Members → Option β) :
    ((obj m).record? fields >>= f) = f m := rfl

end Steps

section Members

variable {α β : Type} {encode : α → Json} {decode : Json → Option β} {view : α → β}

@[simp] theorem lookup_member (key k : String) (x : Json) (m : Members) :
    List.lookup key ((k, x) :: m) = if key = k then some x else m.lookup key := by
  rw [List.lookup_cons]
  by_cases h : key = k
  · rw [if_pos h, beq_iff_eq.mpr h]
  · rw [if_neg h, beq_eq_false_iff_ne.mpr h]

@[simp] theorem lookup_ite (key : String) (p : Prop) [Decidable p] (m n : Members) :
    (if p then m else n).lookup key = if p then m.lookup key else n.lookup key := by
  split <;> rfl

@[simp] theorem lookup_optional (key k : String) (encode : α → Json) (o : Option α) :
    (optional k encode o).lookup key = if key = k then o.map encode else none := by
  cases o <;> simp [optional]

@[simp] theorem lookup_nonempty (key k : String) (encode : α → Json) (l : List α) :
    (nonempty k encode l).lookup key =
      if key = k then if l = [] then none else some (.arr (l.map encode)) else none := by
  cases l <;> simp [nonempty]

/-- What `encode` writes is never null, and `decode` makes of it what `view` says. -/
structure Restores (encode : α → Json) (decode : Json → Option β) (view : α → β) : Prop where
  read : ∀ a, decode (encode a) = some (view a)
  ne_null : ∀ a, encode a ≠ .null

namespace Restores

theorem required (h : Restores encode decode view) (m : Members) (key : String) (a : α)
    (hlookup : m.lookup key = some (encode a)) :
    Json.required m key decode = some (view a) := by
  rw [Json.required, hlookup, Option.bind_some, h.read]

theorem maybe (h : Restores encode decode view) (m : Members) (key : String) (o : Option α)
    (hlookup : m.lookup key = o.map encode) :
    Json.maybe m key decode = some (o.map view) := by
  rw [Json.maybe, hlookup]
  cases o with
  | none => rfl
  | some a =>
      have ha := h.ne_null a
      simp [h.read]

theorem list (h : Restores encode decode view) :
    Restores (fun l => .arr (l.map encode)) (list? decode) (List.map view) := by
  refine ⟨fun l => ?_, fun _ => nofun⟩
  rw [list?, List.mapM_map]
  induction l with
  | nil => rfl
  | cons a l ih => simp [h.read, ih]

theorem orElse (h : Restores encode decode view) (m : Members) (key : String) (default : β) (a : α)
    (hlookup : m.lookup key = some (encode a)) : Json.orElse m key default decode = some (view a) := by
  rw [Json.orElse, hlookup]
  exact h.read a

theorem nonempty (h : Restores encode decode view) (m : Members) (key : String) (l : List α)
    (hlookup : m.lookup key = if l = [] then none else some (.arr (l.map encode))) :
    Json.orElse m key [] (list? decode) = some (l.map view) := by
  by_cases hl : l = []
  · rw [Json.orElse, hlookup, if_pos hl, hl]
    rfl
  · exact h.list.orElse m key [] l (hlookup.trans (if_neg hl))

end Restores

theorem restores_str : Restores .str string? id := ⟨fun _ => rfl, fun _ => nofun⟩

theorem restores_bool : Restores .bool bool? id := ⟨fun _ => rfl, fun _ => nofun⟩

theorem restores_ofUInt32 : Restores ofUInt32 uint32? id := ⟨uint32?_ofUInt32, fun _ => nofun⟩

theorem restores_ofUInt64 : Restores ofUInt64 uint64? id := ⟨uint64?_ofUInt64, fun _ => nofun⟩

theorem restores_ofStrings : Restores ofStrings (list? string?) id := by
  have h := restores_str.list
  rwa [List.map_id_fun] at h

theorem maybe_ofOption (m : Members) (key : String) (o : Option String)
    (h : m.lookup key = some (ofOption .str o)) :
    maybe m key string? = some o := by
  rw [maybe, h]
  cases o <;> rfl

theorem maybe_ofReal (m : Members) (key : String) (o : Option Binary64)
    (h : m.lookup key = o.map ofReal) :
    maybe m key real? = some (o.filter Binary64.isFinite) := by
  rw [maybe, h]
  cases o with
  | none => rfl
  | some x => cases x <;> rfl

end Members

end Json

end BookCompiler
