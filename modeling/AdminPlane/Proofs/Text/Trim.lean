import AdminPlane.Text.Blank
import Mathlib.Data.List.TakeWhile

namespace AdminPlane.Text

/-- What stands between the blanks at the ends of a text. -/
structure Trimmed (s core : List Char) : Prop where
  between : ∃ before after, s = before ++ core ++ after ∧ (∀ c ∈ before, isBlank c = true) ∧
    ∀ c ∈ after, isBlank c = true
  head : ∀ c ∈ core.head?, isBlank c = false
  last : ∀ c ∈ core.getLast?, isBlank c = false

theorem dropWhile_of_head {s : List Char} (h : ∀ c ∈ s.head?, isBlank c = false) :
    s.dropWhile isBlank = s := by
  cases s with
  | nil => rfl
  | cons c s => exact List.dropWhile_cons_of_neg (by simp [h c rfl])

theorem trim_between {before after : List Char} (hbefore : ∀ c ∈ before, isBlank c = true)
    (hafter : ∀ c ∈ after, isBlank c = true) (s : List Char) :
    trim (before ++ s ++ after) = trim s := by
  rw [trim, List.append_assoc, List.dropWhile_append_of_pos hbefore, List.dropWhile_append]
  split
  · rename_i hs
    rw [dropWhile_isBlank_eq_nil.mpr hafter, trim, List.isEmpty_iff.mp hs]
  · have hreverse : ∀ c ∈ after.reverse, isBlank c = true :=
      fun c hc => hafter c (List.mem_reverse.mp hc)
    rw [List.reverse_append, List.dropWhile_append_of_pos hreverse, trim]

theorem trim_eq_self {s : List Char} (hhead : ∀ c ∈ s.head?, isBlank c = false)
    (hlast : ∀ c ∈ s.getLast?, isBlank c = false) : trim s = s := by
  rw [← List.head?_reverse] at hlast
  rw [trim, dropWhile_of_head hhead, dropWhile_of_head hlast, List.reverse_reverse]

/-- A text in which no blank stands is left as it is. -/
theorem trim_of_no_blank {s : List Char} (h : ∀ c ∈ s, isBlank c = false) : trim s = s :=
  trim_eq_self (fun c hc => h c (List.mem_of_head? hc)) fun c hc => h c (List.mem_of_getLast? hc)

theorem head?_dropWhile {s : List Char} {c : Char} (h : c ∈ (s.dropWhile isBlank).head?) :
    isBlank c = false := by
  have hnot := List.head?_dropWhile_not isBlank s
  rw [h] at hnot
  simpa using hnot

theorem trimmed_trim (s : List Char) : Trimmed s (trim s) := by
  let rest := s.dropWhile isBlank
  let after := (rest.reverse.takeWhile isBlank).reverse
  have hrest : rest = trim s ++ after := by
    rw [trim, ← List.reverse_append, List.takeWhile_append_dropWhile, List.reverse_reverse]
  refine ⟨⟨s.takeWhile isBlank, after, ?_, fun c hc => List.mem_takeWhile_imp hc, fun c hc => ?_⟩,
    fun c hc => ?_, fun c hc => ?_⟩
  · rw [List.append_assoc, ← hrest, List.takeWhile_append_dropWhile]
  · exact List.mem_takeWhile_imp (List.mem_reverse.mp hc)
  · refine head?_dropWhile (s := s) ?_
    rw [show s.dropWhile isBlank = _ from hrest, List.head?_append, hc]
    rfl
  · rw [trim, List.getLast?_reverse] at hc
    exact head?_dropWhile hc

theorem trimmed_iff {s core : List Char} : Trimmed s core ↔ core = trim s := by
  constructor
  · rintro ⟨⟨before, after, rfl, hbefore, hafter⟩, hhead, hlast⟩
    rw [trim_between hbefore hafter, trim_eq_self hhead hlast]
  · rintro rfl
    exact trimmed_trim s

end AdminPlane.Text
