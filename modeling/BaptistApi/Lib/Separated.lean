import Mathlib.Data.List.DropRight

/-!
# Separated values

Lists that are cut at a separator. Blanks around a piece are trimmed off, and empty pieces are dropped.
-/

namespace BaptistApi.Separated

variable {α : Type} (blank : α → Bool)

def trim (l : List α) : List α := (l.dropWhile blank).rdropWhile blank

/-- No blank at either end. -/
structure Trimmed (l : List α) : Prop where
  head : ∀ h : l ≠ [], blank (l.head h) = false
  last : ∀ h : l ≠ [], blank (l.getLast h) = false

variable {blank}

theorem trim_sublist (l : List α) : (trim blank l).Sublist l :=
  (List.rdropWhile_prefix blank _).sublist.trans (List.dropWhile_sublist blank)

theorem trimmed_trim (l : List α) : Trimmed blank (trim blank l) where
  head h := by
    have hpre : trim blank l <+: l.dropWhile blank := List.rdropWhile_prefix blank _
    have hne : l.dropWhile blank ≠ [] := fun h' => h (by simp [trim, h'])
    rw [hpre.head h]
    exact List.head_dropWhile_not blank hne
  last h := by
    have hlast := List.rdropWhile_last_not blank (l.dropWhile blank) h
    exact Bool.eq_false_iff.mpr hlast

theorem Trimmed.trim_eq {l : List α} (h : Trimmed blank l) : trim blank l = l := by
  cases l with
  | nil => rfl
  | cons a l =>
    have hhead : (a :: l).dropWhile blank = a :: l := List.dropWhile_cons_of_neg (Bool.eq_false_iff.mp (h.head (by simp)))
    rw [trim, hhead, List.rdropWhile_eq_self_iff]
    intro hne
    exact Bool.eq_false_iff.mp (h.last hne)

/-! ## Fields -/

section Fields

variable (blank) (sep : α)

/-- What can stand between two separators. -/
structure Field (f : List α) : Prop where
  nonempty : f ≠ []
  trimmed : Trimmed blank f
  free : sep ∉ f

variable {blank sep}

theorem trim_fields {fs : List (List α)} (h : ∀ f ∈ fs, Field blank sep f) :
    (fs.map (trim blank)).filter (· ≠ []) = fs := by
  have hmap : fs.map (trim blank) = fs := by
    refine (List.map_congr_left fun f hf => (h f hf).trimmed.trim_eq).trans (List.map_id fs)
  rw [hmap, List.filter_eq_self]
  intro f hf
  exact decide_eq_true (h f hf).nonempty

variable [DecidableEq α] (blank sep)

/-- The pieces of `l` between the separators. -/
def fields (l : List α) : List (List α) := ((l.splitOn sep).map (trim blank)).filter (· ≠ [])

variable {blank sep}

theorem not_mem_of_mem_splitOn {l f : List α} (h : f ∈ l.splitOn sep) : sep ∉ f := by
  induction l generalizing f with
  | nil =>
    rw [List.splitOn_nil, List.mem_singleton] at h
    subst h
    exact List.not_mem_nil
  | cons a l ih =>
    rw [List.splitOn_cons_eq_if_modifyHead] at h
    split at h
    · rcases List.mem_cons.mp h with rfl | h
      · exact List.not_mem_nil
      · exact ih h
    · rename_i ha
      cases hl : l.splitOn sep with
      | nil => exact absurd hl (List.splitOn_ne_nil sep l)
      | cons g gs =>
        rw [hl, List.modifyHead_cons] at h
        rcases List.mem_cons.mp h with rfl | h
        · intro hmem
          rcases List.mem_cons.mp hmem with rfl | hmem
          · exact ha (beq_self_eq_true _)
          · exact ih (hl ▸ List.mem_cons_self) hmem
        · exact ih (hl ▸ List.mem_cons_of_mem _ h)

theorem field_of_mem_fields {l f : List α} (h : f ∈ fields blank sep l) : Field blank sep f := by
  unfold fields at h
  rw [List.mem_filter, List.mem_map] at h
  obtain ⟨⟨g, hg, rfl⟩, hne⟩ := h
  refine ⟨of_decide_eq_true hne, trimmed_trim g, fun hsep => ?_⟩
  exact not_mem_of_mem_splitOn hg ((trim_sublist g).subset hsep)

theorem fields_intercalate {fs : List (List α)} (h : ∀ f ∈ fs, Field blank sep f) :
    fields blank sep ([sep].intercalate fs) = fs := by
  unfold fields
  cases fs with
  | nil => simp [trim]
  | cons f fs =>
    rw [List.splitOn_intercalate sep (fun g hg => (h g hg).free) (List.cons_ne_nil f fs)]
    exact trim_fields h

end Fields

end BaptistApi.Separated
