import AdminPlane.Client.Address
import Mathlib.Data.List.TakeWhile

namespace AdminPlane.Address

theorem mem_of_mem_splitOnP {p : Char → Bool} {s piece : List Char} {c : Char}
    (hpiece : piece ∈ s.splitOnP p) (hc : c ∈ piece) : c ∈ s := by
  induction s generalizing piece with
  | nil =>
    rw [List.splitOnP_nil, List.mem_singleton] at hpiece
    rw [hpiece] at hc
    cases hc
  | cons x s ih =>
    rw [List.splitOnP_cons_eq_if_modifyHead] at hpiece
    split at hpiece
    · rcases List.mem_cons.mp hpiece with rfl | hpiece
      · cases hc
      · exact List.mem_cons_of_mem x (ih hpiece hc)
    · obtain ⟨first, rest, hpieces⟩ := List.exists_cons_of_ne_nil (List.splitOnP_ne_nil p s)
      rw [hpieces, List.modifyHead_cons] at hpiece
      rcases List.mem_cons.mp hpiece with rfl | hpiece
      · rcases List.mem_cons.mp hc with rfl | hc
        · exact List.mem_cons_self
        · exact List.mem_cons_of_mem x (ih (hpieces ▸ List.mem_cons_self) hc)
      · exact List.mem_cons_of_mem x (ih (hpieces ▸ List.mem_cons_of_mem first hpiece) hc)

/-- Whatever holds of the empty segment and of those that are met and do not consist of one dot or
of two, holds of those that are left. -/
theorem forall_mem_resolve {P : List Char → Prop} (empty : P []) {walked met : List (List Char)}
    (hwalked : ∀ s ∈ walked, P s)
    (hmet : ∀ s ∈ met, dots? s ≠ some 1 → dots? s ≠ some 2 → P s) :
    ∀ s ∈ resolve walked met, P s := by
  induction met generalizing walked with
  | nil => exact hwalked
  | cons s rest ih =>
    have hrest : ∀ s ∈ rest, dots? s ≠ some 1 → dots? s ≠ some 2 → P s :=
      fun s hs => hmet s (List.mem_cons_of_mem _ hs)
    have hplace {kept : List (List Char)} (hkept : ∀ s ∈ kept, P s) :
        ∀ s ∈ (if rest = [] then [[]] else []) ++ kept, P s := by
      split
      · exact List.forall_mem_cons.mpr ⟨empty, hkept⟩
      · exact hkept
    rw [resolve]
    split
    · exact ih (hplace hwalked) hrest
    · exact ih (hplace fun s hs => hwalked s (List.mem_of_mem_tail hs)) hrest
    · rename_i hone htwo
      exact ih (List.forall_mem_cons.mpr ⟨hmet s List.mem_cons_self hone htwo, hwalked⟩) hrest

/-- No segment is left that stands for its place or for the one above it. -/
theorem segments_dots (url : List Char) :
    ∀ s ∈ segments url, dots? s ≠ some 1 ∧ dots? s ≠ some 2 := by
  intro s hs
  rw [segments, List.mem_reverse] at hs
  refine forall_mem_resolve (P := fun s => dots? s ≠ some 1 ∧ dots? s ≠ some 2) ?_ ?_ ?_ s hs
  · exact ⟨by decide, by decide⟩
  · exact fun s hs => absurd hs List.not_mem_nil
  · exact fun s _ hone htwo => ⟨hone, htwo⟩

theorem segments_unmarked (url : List Char) : ∀ s ∈ segments url, ∀ c ∈ s, c ≠ '?' := by
  intro s hs
  rw [segments, List.mem_reverse] at hs
  refine forall_mem_resolve (P := fun s => ∀ c ∈ s, c ≠ '?') ?_ ?_ ?_ s hs
  · exact fun c hc => absurd hc List.not_mem_nil
  · exact fun s hs => absurd hs List.not_mem_nil
  · rintro s hs - - c hc rfl
    have hpath := List.mem_takeWhile_imp (List.mem_of_mem_drop (mem_of_mem_splitOnP hs hc))
    simp [endsPath] at hpath

theorem query_eq (url : List Char) : query url = [] ∨ ∃ rest, query url = '?' :: rest := by
  have hends := List.head?_dropWhile_not (fun c => ! endsPath c) (behindHost url)
  rw [query]
  cases hmarked : (behindHost url).dropWhile fun c => ! endsPath c with
  | nil => exact .inl (by simp [hmarked])
  | cons c rest =>
    rw [hmarked] at hends
    have hmark : c = '?' ∨ c = '#' :=
      Decidable.or_iff_not_imp_left.mpr (by simpa [endsPath] using hends)
    rcases hmark with rfl | rfl
    · exact .inr ⟨rest.takeWhile (· ≠ '#'), by simp [hmarked]⟩
    · exact .inl (by simp [hmarked])

/-- What is asked for is the root if nothing is left of the path of the address. -/
theorem target_root_iff (url : List Char) :
    (target url).takeWhile (· ≠ '?') = ['/'] ↔ segments url = [[]] := by
  have hpath : (target url).takeWhile (· ≠ '?') = (segments url).flatMap ('/' :: ·) := by
    have hunmarked : ∀ c ∈ (segments url).flatMap ('/' :: ·), decide (c ≠ '?') = true := by
      intro c hc
      obtain ⟨s, hs, hc⟩ := List.mem_flatMap.mp hc
      rcases List.mem_cons.mp hc with rfl | hc
      · rfl
      · exact decide_eq_true (segments_unmarked url s hs c hc)
    rw [target, List.takeWhile_append_of_pos hunmarked]
    rcases query_eq url with hquery | ⟨rest, hquery⟩
    · rw [hquery, List.takeWhile_nil, List.append_nil]
    · rw [hquery, List.takeWhile_cons_of_neg (by simp), List.append_nil]
  rw [hpath]
  cases segments url with
  | nil => simp
  | cons s rest =>
    cases rest with
    | nil => simp
    | cons s' rest => simp

theorem margin_append {c : Char} (hc : isMargin c = false) (s rest : List Char) :
    ((s ++ c :: rest).reverse.dropWhile isMargin).reverse =
      s ++ c :: (rest.reverse.dropWhile isMargin).reverse := by
  rw [List.reverse_append, List.reverse_cons, List.append_assoc, List.dropWhile_append]
  split
  · rename_i hrest
    rw [List.isEmpty_iff.mp hrest, List.singleton_append,
      List.dropWhile_cons_of_neg (by simp [hc])]
    simp
  · simp

theorem behindScheme_http (rest : List Char) : behindScheme ("http://".toList ++ rest) =
    ((rest.reverse.dropWhile isMargin).reverse.filter fun c => ¬ isSkipped c).dropWhile
      isSlash := by
  have hscheme : "http://".toList ++ rest = "http:/".toList ++ '/' :: rest := rfl
  rw [behindScheme, hscheme, margin_append (by decide)]
  rfl

/-- A host alone, with its port or without, leads to the root. -/
theorem segments_host {rest : List Char} (h : ∀ c ∈ rest, endsHost c = false) :
    segments ("http://".toList ++ rest) = [[]] := by
  have hbehind : behindHost ("http://".toList ++ rest) = [] := by
    rw [behindHost, behindScheme_http, List.dropWhile_eq_nil_iff]
    intro c hc
    have hread := (List.mem_filter.mp ((List.dropWhile_sublist _).subset hc)).1
    have hrest := (List.dropWhile_sublist _).subset (List.mem_reverse.mp hread)
    simp [h c (List.mem_reverse.mp hrest)]
  rw [segments, hbehind]
  rfl

example : ["http://h:1", "http://h:1\\", "http:\\\\h:1/./%2e", "http://h:1/a/.%2E?q#f"].all
    fun url => segments url.toList = [[]] := by decide

example : ["http://h:1//", "http://h:1/a/", "http://h:1/a/../b", "http://h:1/..."].all
    fun url => segments url.toList ≠ [[]] := by decide

end AdminPlane.Address
