import AdminPlane.Proofs.Settings.Document
import AdminPlane.Settings.Basic
import Mathlib.Data.List.Induction
import Mathlib.Data.List.TakeDrop

namespace AdminPlane.Settings.Environment

open Toml (ReadsDistinct Taken)
open Settings.Tree (Distinct Layer Shows)

section Reader

variable {read : List Char → Option (Taken Tree)} (hread : ReadsDistinct read)
include hread

theorem distinct_items {s rest : List Char} {found : List Tree}
    (h : items read s = some (found, rest)) : ∀ t ∈ found, t.Distinct := by
  rw [items.eq_def] at h
  split at h
  · cases h
    exact List.forall_mem_nil _
  · split at h
    · rename_i item tail hitem
      cases h
      exact List.forall_mem_cons.mpr ⟨hread _ _ _ hitem, List.forall_mem_nil _⟩
    · rename_i item tail hitem
      split at h
      · obtain ⟨⟨more, last⟩, hmore, ⟨⟩⟩ := Option.map_eq_some_iff.mp h
        exact List.forall_mem_cons.mpr ⟨hread _ _ _ hitem, distinct_items hmore⟩
      · cases h
    · cases h
termination_by s.length

/-- The table so far with one more member in it. -/
theorem distinct_pair {given found : List (String × Tree)} {s rest : List Char}
    (hgiven : Distinct (.table given))
    (h : (do
      let (name, rest) ← name (skipBlanks s)
      let (value, rest) ← read (← Toml.behind? "=" (skipBlanks rest))
      return (Tree.put given name value, rest)) = some (found, rest)) :
    Distinct (.table found) := by
  obtain ⟨⟨name, behind⟩, _, h⟩ := Option.bind_eq_some_iff.mp h
  obtain ⟨behind', _, h⟩ := Option.bind_eq_some_iff.mp h
  obtain ⟨⟨value, rest'⟩, hvalue, ⟨⟩⟩ := Option.bind_eq_some_iff.mp h
  exact hgiven.put name (hread _ _ _ hvalue)

theorem distinct_members {given found : List (String × Tree)} {s rest : List Char}
    (hgiven : Distinct (.table given)) (h : members read given s = some (found, rest)) :
    Distinct (.table found) := by
  rw [members.eq_def] at h
  split at h
  · cases h
    exact hgiven
  · dsimp only at h
    split at h
    · rename_i hpair
      cases h
      exact distinct_pair hread hgiven hpair
    · rename_i hpair
      split at h
      · exact distinct_members (distinct_pair hread hgiven hpair) h
      · cases h
    · cases h
termination_by s.length

end Reader

theorem distinct_bare (word : List Char) : (bare word).Distinct := by
  rw [bare]
  split
  · exact .fraction
  · split
    · exact .integer _
    · exact .integer _
    · exact .text _

theorem distinct_value (depth : Nat) : ReadsDistinct (value depth) := by
  induction depth using Nat.strongRecOn with
  | ind depth ih =>
    intro s t rest h
    rw [value.eq_def] at h
    obtain ⟨⟨found, behind⟩, hfound, ⟨⟩⟩ := Option.map_eq_some_iff.mp h
    clear h
    split at hfound
    · split at hfound
      · cases hfound
      · obtain ⟨⟨given, last⟩, hgiven, ⟨⟩⟩ := Option.map_eq_some_iff.mp hfound
        exact distinct_members (ih _ (Nat.lt_succ_self _)) .nil hgiven
    · split at hfound
      · cases hfound
      · obtain ⟨⟨items, last⟩, hitems, ⟨⟩⟩ := Option.map_eq_some_iff.mp hfound
        exact .list (distinct_items (ih _ (Nat.lt_succ_self _)) hitems)
    · obtain ⟨⟨text, last⟩, _, ⟨⟩⟩ := Option.map_eq_some_iff.mp hfound
      exact .text text
    · cases hfound
      exact .text _
    · cases hfound
    · split at hfound
      · cases hfound
        exact .truth true
      · split at hfound
        · cases hfound
          exact .truth false
        · cases hfound
          exact distinct_bare _

theorem distinct_read (s : String) : (read s).Distinct := by
  rw [read]
  split
  · rename_i t hvalue
    exact distinct_value _ _ _ _ hvalue
  · exact .text s

/-- A variable whose name begins with the mark and the section, in letters of any case. Blanks at
the ends of the name and behind the mark do not count. -/
def NamesSection (name : String) : Prop :=
  let chars := Text.trim name.toList
  (chars.take mark.length).map Char.toLower = mark.toList.map Char.toLower ∧
    sectionName.toList <+: (Text.trim (chars.drop mark.length)).map Char.toLower

instance (name : String) : Decidable (NamesSection name) := inferInstanceAs (Decidable (_ ∧ _))

theorem dropWhile_append_cons {p : Char → Bool} {c : Char} (h : p c = false) (s t : List Char) :
    (s ++ c :: t).dropWhile p = s.dropWhile p ++ c :: t := by
  rw [List.dropWhile_append]
  split
  · rename_i hs
    rw [List.isEmpty_iff.mp hs, List.dropWhile_cons_of_neg (by simp [h])]
    rfl
  · rfl

/-- What stands in front of a character that is no blank loses the blanks in front of it alone. -/
theorem trim_append_cons {c : Char} (h : Text.isBlank c = false) (s t : List Char) :
    ∃ t', Text.trim (s ++ c :: t) = s.dropWhile Text.isBlank ++ c :: t' := by
  rw [Text.trim, dropWhile_append_cons h, List.reverse_append, List.reverse_cons,
    List.append_assoc, List.singleton_append, dropWhile_append_cons h, List.reverse_append,
    List.reverse_cons, List.reverse_reverse, List.append_assoc, List.singleton_append]
  exact ⟨_, rfl⟩

theorem prefix_of_not_mem {c : Char} {w s t : List Char} (hw : c ∉ w) (h : w <+: s ++ c :: t) :
    w <+: s := by
  induction s generalizing w with
  | nil =>
    cases w with
    | nil => exact List.nil_prefix
    | cons x w =>
      obtain ⟨rfl, _⟩ := List.cons_prefix_cons.mp h
      exact absurd List.mem_cons_self hw
  | cons y s ih =>
    cases w with
    | nil => exact List.nil_prefix
    | cons x w =>
      obtain ⟨rfl, hrest⟩ := List.cons_prefix_cons.mp h
      exact List.cons_prefix_cons.mpr ⟨rfl, ih (fun hmem => hw (List.mem_cons_of_mem _ hmem)) hrest⟩

theorem prefix_of_splitOn {c : Char} {s w : List Char} {rest : List (List Char)}
    (h : s.splitOn c = w :: rest) : w <+: s := by
  have hjoin : [c].intercalate (s.splitOn c) = s := List.intercalate_splitOn c
  rw [h] at hjoin
  cases rest with
  | nil =>
    rw [List.intercalate_singleton] at hjoin
    exact hjoin ▸ List.prefix_rfl
  | cons next rest =>
    rw [List.intercalate_cons_cons, List.append_assoc] at hjoin
    exact ⟨_, hjoin⟩

theorem eq_of_parts {s : List Char} {path : List String}
    (h : (if ((s.splitOn '.').map String.ofList).any (· = "") then none
      else some ((s.splitOn '.').map String.ofList)) = some path) :
    path = (s.splitOn '.').map String.ofList := by
  split at h
  · cases h
  · cases h
    rfl

theorem prefix_of_parts {s : List Char} {path : List String}
    (h : path = (s.splitOn '.').map String.ofList) (hpath : path.head? = some sectionName) :
    sectionName.toList <+: s := by
  cases hs : s.splitOn '.' with
  | nil => exact absurd hs (List.splitOn_ne_nil '.' s)
  | cons w rest =>
    rw [h, hs, List.map_cons, List.head?_cons, Option.some.injEq] at hpath
    rw [← hpath, String.toList_ofList]
    exact prefix_of_splitOn hs

theorem span_eq {s part rest : List Char} (h : s.span (· ≠ '_') = (part, rest)) :
    s = part ++ rest ∧ ∀ x ∈ rest.head?, x = '_' := by
  rw [List.span_eq_takeWhile_dropWhile, Prod.mk.injEq] at h
  obtain ⟨rfl, rfl⟩ := h
  refine ⟨List.takeWhile_append_dropWhile.symm, fun x hx => ?_⟩
  have hnot := List.head?_dropWhile_not (· ≠ '_') s
  rw [hx] at hnot
  simpa using hnot

/-- The underscore behind the section makes no difference to how the name begins. -/
theorem prefix_of_trim {w part s t : List Char} (hpoint : '.' ∉ w)
    (h : w <+: (Text.trim (part ++ '.' :: s)).map Char.toLower) :
    w <+: (Text.trim (part ++ '_' :: t)).map Char.toLower := by
  obtain ⟨s', hs⟩ := trim_append_cons (c := '.') (by decide) part s
  obtain ⟨t', ht⟩ := trim_append_cons (c := '_') (by decide) part t
  rw [hs, List.map_append, List.map_cons] at h
  rw [ht, List.map_append]
  exact (prefix_of_not_mem hpoint h).trans (List.prefix_append _ _)

/-- A path that leads into the section comes of a name that begins like it. -/
theorem namesSection_of_path? {name : String} {path : List String}
    (h : path? name = some path) (hpath : path.head? = some sectionName) : NamesSection name := by
  unfold path? at h
  dsimp only at h
  split at h
  · cases h
  · rename_i hmark
    refine ⟨Decidable.not_not.mp hmark, ?_⟩
    split at h
    · rename_i part hspan
      obtain ⟨hrest, _⟩ := span_eq hspan
      rw [hrest, List.append_nil]
      exact prefix_of_parts (eq_of_parts h) hpath
    · -- The first underscore of the name is where its path has the first point.
      rename_i part x setting hspan
      obtain ⟨hrest, hx⟩ := span_eq hspan
      obtain rfl := hx x rfl
      rw [hrest]
      exact prefix_of_trim (by decide) (prefix_of_parts (eq_of_parts h) hpath)

theorem path?_ne_nil {name : String} {path : List String} (h : path? name = some path) :
    path ≠ [] := by
  unfold path? at h
  dsimp only at h
  split at h
  · cases h
  · have hparts : ∃ s : List Char, path = (s.splitOn '.').map String.ofList := by
      split at h
      · exact ⟨_, eq_of_parts h⟩
      · exact ⟨_, eq_of_parts h⟩
    obtain ⟨s, rfl⟩ := hparts
    exact fun hnil => List.splitOn_ne_nil '.' s (List.map_eq_nil_iff.mp hnil)

def addrVariable : String := "FCR_ADMIN_ADDR"
def maxBodySizeVariable : String := "FCR_ADMIN_MAX_BODY_SIZE"

/-- The variables of the settings in the section, each with the name of its setting. -/
def known : List (String × String) :=
  [(addrVariable, addrName), (CommandLine.keyVariable, keyName),
   (maxBodySizeVariable, maxBodySizeName)]

/-- No other variables begin like those of the settings. -/
def Only (environ : List (String × String)) : Prop :=
  ∀ m ∈ environ, NamesSection m.1 → m.1 ∈ known.map Prod.fst

/-- The value that a variable was given last. -/
def given? (environ : List (String × String)) (name : String) : Option Tree :=
  (environ.reverse.lookup name).map read

theorem path?_known : ∀ v ∈ known, path? v.1 = some [sectionName, v.2] := by
  decide

/-- No two variables are for one setting. -/
theorem setting_inj : ∀ v ∈ known, ∀ w ∈ known, v.2 = w.2 → v.1 = w.1 := by
  decide

/-- No two settings are of one variable. -/
theorem variable_inj : ∀ v ∈ known, ∀ w ∈ known, v.1 = w.1 → v.2 = w.2 := by
  decide

theorem tree_concat (environ : List (String × String)) (name value : String) :
    tree (environ ++ [(name, value)]) =
      match path? name with
      | none => tree environ
      | some path => (tree environ).merge (.atPath path (read value)) := by
  rw [tree, List.foldl_append]
  rfl

theorem given?_concat (environ : List (String × String)) (name value k : String) :
    given? (environ ++ [(name, value)]) k =
      if k = name then some (read value) else given? environ k := by
  rw [given?, List.reverse_append, List.reverse_singleton, List.singleton_append, Tree.lookup_cons]
  split
  · rfl
  · rfl

/-- What the environment holds of the section: the values of the variables of its settings. -/
structure Holds (environ : List (String × String)) : Prop where
  layer : Layer sectionName (tree environ)
  shows : ∀ v ∈ known, Shows ((tree environ).setting? sectionName v.2) (given? environ v.1)

theorem holds_nil : Holds [] := ⟨Tree.layer_nil _, fun _ _ => .inl rfl⟩

section Step

variable {environ : List (String × String)} (h : Holds environ) {name : String} (value : String)
include h

/-- A variable whose path leads elsewhere leaves the section as it is. -/
theorem holds_of_elsewhere
    (hpath : ∀ path, path? name = some path → path.head? ≠ some sectionName) :
    Holds (environ ++ [(name, value)]) := by
  have hgiven : ∀ v ∈ known, given? (environ ++ [(name, value)]) v.1 = given? environ v.1 := by
    intro v hv
    rw [given?_concat, if_neg]
    rintro rfl
    exact hpath _ (path?_known v hv) rfl
  have htree := tree_concat environ name value
  cases hname : path? name with
  | none =>
    rw [hname] at htree
    refine ⟨htree ▸ h.layer, fun v hv => ?_⟩
    rw [htree, hgiven v hv]
    exact h.shows v hv
  | some path =>
    rw [hname] at htree
    obtain ⟨first, rest, rfl⟩ := List.exists_cons_of_ne_nil (path?_ne_nil hname)
    have hfirst : sectionName ≠ first := fun heq => hpath _ hname (congrArg some heq.symm)
    have hlater := Tree.layer_elsewhere hfirst rest (distinct_read value)
    refine ⟨htree ▸ hlater.merge h.layer, fun v hv => ?_⟩
    rw [htree, hlater.setting?_merge, Tree.setting?_elsewhere hfirst, hgiven v hv]
    exact h.shows v hv

/-- A variable of the section gives its own setting and leaves the others. -/
theorem holds_of_known (hname : name ∈ known.map Prod.fst) :
    Holds (environ ++ [(name, value)]) := by
  obtain ⟨w, hw, rfl⟩ := List.mem_map.mp hname
  have htree := tree_concat environ w.1 value
  rw [path?_known w hw] at htree
  have hlater : Layer sectionName (.atPath [sectionName, w.2] (read value)) :=
    Tree.layer_setting w.2 [] (distinct_read value)
  refine ⟨htree ▸ hlater.merge h.layer, fun v hv => ?_⟩
  rw [htree, hlater.setting?_merge, Tree.setting?_setting, given?_concat]
  by_cases hsame : v.1 = w.1
  · rw [if_pos hsame, if_pos (variable_inj v hv w hw hsame)]
    exact (h.shows v hv).overlay (.inl rfl)
  · rw [if_neg hsame, if_neg fun hsetting => hsame (setting_inj v hv w hw hsetting)]
    exact h.shows v hv

end Step

theorem holds {environ : List (String × String)} (only : Only environ) : Holds environ := by
  -- The variables are laid one over the other from the left, so the last one is the step.
  induction environ using List.reverseRecOn with
  | nil => exact holds_nil
  | append_singleton environ m ih =>
    obtain ⟨name, value⟩ := m
    have hrest := ih fun m hm => only m (List.mem_append_left _ hm)
    by_cases hname : NamesSection name
    · exact holds_of_known hrest value (only (name, value) (by simp) hname)
    · exact holds_of_elsewhere hrest value fun path hpath hhead =>
        hname (namesSection_of_path? hpath hhead)

end AdminPlane.Settings.Environment
