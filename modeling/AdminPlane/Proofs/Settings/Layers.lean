import AdminPlane.Settings.Tree

namespace AdminPlane.Settings.Tree

section Members

variable {α : Type}

theorem lookup_cons (name : String) (value : α) (rest : List (String × α)) (k : String) :
    ((name, value) :: rest).lookup k = if k = name then some value else rest.lookup k := by
  rw [List.lookup_cons]
  by_cases hk : k = name
  · rw [if_pos hk, beq_iff_eq.mpr hk]
  · rw [if_neg hk, beq_false_of_ne hk]

theorem lookup_put (members : List (String × α)) (name k : String) (value : α) :
    (put members name value).lookup k = if k = name then some value else members.lookup k := by
  induction members with
  | nil => exact lookup_cons name value [] k
  | cons m rest ih =>
    obtain ⟨n, v⟩ := m
    rw [put]
    split
    · rename_i hn
      subst hn
      rw [lookup_cons, lookup_cons]
      split
      · rfl
      · rfl
    · rename_i hn
      rw [lookup_cons, lookup_cons, ih]
      by_cases hk : k = n
      · rw [if_pos hk, if_neg fun hname => hn (hk.symm.trans hname), if_pos hk]
      · rw [if_neg hk, if_neg hk]

theorem lookup_eq_none {members : List (String × α)} {name : String}
    (h : name ∉ members.map Prod.fst) : members.lookup name = none := by
  rw [List.lookup_eq_none_iff]
  intro m hm
  rw [bne_iff_ne]
  rintro rfl
  exact h (List.mem_map_of_mem hm)

theorem mem_of_lookup {members : List (String × α)} {name : String} {value : α}
    (h : members.lookup name = some value) : (name, value) ∈ members := by
  obtain ⟨before, after, hmembers, _⟩ := List.lookup_eq_some_iff.mp h
  rw [hmembers]
  exact List.mem_append_right _ List.mem_cons_self

theorem mem_put {members : List (String × α)} {name : String} {value : α} {m : String × α}
    (h : m ∈ put members name value) : m = (name, value) ∨ m ∈ members := by
  induction members with
  | nil => exact .inl (List.mem_singleton.mp h)
  | cons first rest ih =>
    obtain ⟨n, v⟩ := first
    rw [put] at h
    split at h
    · rename_i hn
      subst hn
      exact (List.mem_cons.mp h).imp_right (List.mem_cons_of_mem _)
    · rcases List.mem_cons.mp h with rfl | h
      · exact .inr List.mem_cons_self
      · exact (ih h).imp_right (List.mem_cons_of_mem _)

theorem nodup_put {members : List (String × α)} (h : (members.map Prod.fst).Nodup) (name : String)
    (value : α) : ((put members name value).map Prod.fst).Nodup := by
  induction members with
  | nil => simp [put]
  | cons first rest ih =>
    obtain ⟨n, v⟩ := first
    rw [List.map_cons, List.nodup_cons] at h
    rw [put]
    split
    · exact List.nodup_cons.mpr h
    · rename_i hn
      refine List.nodup_cons.mpr ⟨fun hmem => ?_, ih h.2⟩
      obtain ⟨m, hm, hname⟩ := List.mem_map.mp hmem
      rcases mem_put hm with rfl | hm
      · exact hn hname.symm
      · exact h.1 (hname ▸ List.mem_map_of_mem hm)

end Members

/-- A tree in whose tables, at any depth, no two members have one name. -/
inductive Distinct : Tree → Prop
  | text (s : String) : Distinct (.text s)
  | integer (n : Int) : Distinct (.integer n)
  | fraction : Distinct .fraction
  | truth (b : Bool) : Distinct (.truth b)
  | list {items : List Tree} (inner : ∀ t ∈ items, t.Distinct) : Distinct (.list items)
  | table {members : List (String × Tree)} (names : (members.map Prod.fst).Nodup)
      (inner : ∀ m ∈ members, m.2.Distinct) : Distinct (.table members)

theorem distinct_table {members : List (String × Tree)} :
    Distinct (.table members) ↔
      (members.map Prod.fst).Nodup ∧ ∀ m ∈ members, m.2.Distinct := by
  constructor
  · rintro (_ | _ | _ | _ | _ | ⟨names, inner⟩)
    exact ⟨names, inner⟩
  · rintro ⟨names, inner⟩
    exact .table names inner

theorem distinct_list {items : List Tree} :
    Distinct (.list items) ↔ ∀ t ∈ items, t.Distinct := by
  constructor
  · rintro (_ | _ | _ | _ | inner | _)
    exact inner
  · exact .list

theorem Distinct.nil : Distinct (.table []) := .table .nil nofun

theorem Distinct.put {members : List (String × Tree)} (h : Distinct (.table members))
    (name : String) {value : Tree} (hvalue : value.Distinct) :
    Distinct (.table (Tree.put members name value)) := by
  obtain ⟨names, inner⟩ := distinct_table.mp h
  refine .table (nodup_put names name value) fun m hm => ?_
  rcases mem_put hm with rfl | hm
  · exact hvalue
  · exact inner m hm

theorem Distinct.append {members : List (String × Tree)} (h : Distinct (.table members))
    {name : String} (hnew : members.lookup name = none) {value : Tree} (hvalue : value.Distinct) :
    Distinct (.table (members ++ [(name, value)])) := by
  obtain ⟨names, inner⟩ := distinct_table.mp h
  refine .table ?_ fun m hm => ?_
  · rw [List.map_append, List.nodup_append]
    refine ⟨names, by simp, ?_⟩
    rintro k hk _ hname rfl
    obtain ⟨m, hm, rfl⟩ := List.mem_map.mp hk
    have hne := List.lookup_eq_none_iff.mp hnew m hm
    rw [bne_iff_ne] at hne
    exact hne (List.mem_singleton.mp hname).symm
  · rcases List.mem_append.mp hm with hm | hm
    · exact inner m hm
    · rw [List.mem_singleton.mp hm]
      exact hvalue

theorem Distinct.lookup {members : List (String × Tree)} (h : Distinct (.table members))
    {name : String} {value : Tree} (hvalue : members.lookup name = some value) :
    value.Distinct :=
  (distinct_table.mp h).2 _ (mem_of_lookup hvalue)

theorem Distinct.member? {t : Tree} (h : t.Distinct) {name : String} {value : Tree}
    (hvalue : t.member? name = some value) : value.Distinct := by
  cases t with
  | table members => exact h.lookup hvalue
  | text _ | integer _ | fraction | truth _ | list _ => cases hvalue

theorem Distinct.merge {earlier later : Tree} (he : earlier.Distinct) (hl : later.Distinct) :
    (earlier.merge later).Distinct := by
  refine merge.induct (fun e l => e.Distinct → l.Distinct → (e.merge l).Distinct)
    (fun members l => Distinct (.table members) → (∀ m ∈ l, m.2.Distinct) →
      Distinct (.table (mergeMembers members l)))
    ?tables ?table ?other ?nil ?cons earlier later he hl
  case tables =>
    intro later members ih he hl
    rw [Tree.merge]
    exact ih he (distinct_table.mp hl).2
  case table =>
    intro e later hother _ hl
    rw [Tree.merge]
    · exact hl
    · exact hother
  case other =>
    intro l e hother _ hl
    rw [Tree.merge]
    · exact hl
    · exact hother
  case nil =>
    intro members hm _
    rw [mergeMembers]
    exact hm
  case cons =>
    intro members name value rest joined ihValue ihRest hm hl
    have hvalue := hl (name, value) List.mem_cons_self
    have hjoined : joined.Distinct := by
      cases hlookup : members.lookup name with
      | none =>
        simp only [joined, hlookup]
        exact hvalue
      | some e =>
        simp only [joined, hlookup]
        exact ihValue e (hm.lookup hlookup) hvalue
    rw [mergeMembers]
    exact ihRest (hm.put name hjoined) fun m hm => hl m (List.mem_cons_of_mem _ hm)

theorem distinct_atPath (path : List String) {value : Tree} (h : value.Distinct) :
    (atPath path value).Distinct := by
  induction path with
  | nil => exact h
  | cons name path ih =>
    refine .table (by simp) fun m hm => ?_
    rw [List.mem_singleton.mp hm]
    exact ih

/-- What a member stands for once a later layer is laid over an earlier one. -/
def overlay : Option Tree → Option Tree → Option Tree
  | earlier, none => earlier
  | none, some later => some later
  | some earlier, some later => some (earlier.merge later)

theorem overlay_none (later : Option Tree) : overlay none later = later := by
  cases later <;> rfl

def isTable : Tree → Bool
  | table _ => true
  | _ => false

theorem lookup_mergeMembers {later : List (String × Tree)} (h : (later.map Prod.fst).Nodup)
    (members : List (String × Tree)) (k : String) :
    (mergeMembers members later).lookup k = overlay (members.lookup k) (later.lookup k) := by
  induction later generalizing members with
  | nil => rfl
  | cons m rest ih =>
    obtain ⟨name, value⟩ := m
    rw [List.map_cons, List.nodup_cons] at h
    rw [mergeMembers, ih h.2, lookup_put, lookup_cons]
    by_cases hk : k = name
    · subst hk
      rw [lookup_eq_none h.1, if_pos rfl, if_pos rfl]
      cases members.lookup k with
      | none => rfl
      | some earlier => rfl
    · rw [if_neg hk, if_neg hk]

/-- A table that is laid over anything decides on its own members and leaves the others. -/
theorem member?_merge {later : Tree} (h : later.Distinct) (htable : later.isTable = true)
    (earlier : Tree) (k : String) :
    (earlier.merge later).member? k = overlay (earlier.member? k) (later.member? k) := by
  cases later with
  | table members =>
    cases earlier with
    | table earlier =>
      rw [merge]
      exact lookup_mergeMembers (distinct_table.mp h).1 earlier k
    | text _ | integer _ | fraction | truth _ | list _ =>
      rw [merge]
      · exact (overlay_none _).symm
      · exact nofun
  | text _ | integer _ | fraction | truth _ | list _ => cases htable

theorem merge_eq_or_table (earlier later : Tree) :
    earlier.merge later = later ∨ (earlier.merge later).isTable = true := by
  cases later with
  | table members =>
    cases earlier with
    | table earlier => exact .inr (by rw [merge]; rfl)
    | text _ | integer _ | fraction | truth _ | list _ => exact .inl (by rw [merge]; exact nofun)
  | text _ | integer _ | fraction | truth _ | list _ => exact .inl (by rw [merge]; exact nofun)

theorem isTable_merge (earlier : Tree) {later : Tree} (h : later.isTable = true) :
    (earlier.merge later).isTable = true := by
  rcases earlier.merge_eq_or_table later with hsame | htable
  · rw [hsame]
    exact h
  · exact htable

theorem merge_text (s : String) (later : Tree) : (text s).merge later = later := by
  cases later with
  | table members => rw [merge]; exact nofun
  | text _ | integer _ | fraction | truth _ | list _ => rw [merge]; exact nofun

/-- What a name stands for in a section of a tree. -/
def setting? (t : Tree) (part name : String) : Option Tree := (t.member? part).bind (·.member? name)

/-- A table of distinct names in which the section, if there is one, is a table too. -/
structure Layer (part : String) (t : Tree) : Prop where
  distinct : t.Distinct
  table : t.isTable = true
  part : ∀ inner, t.member? part = some inner → inner.isTable = true

section Layer

variable {part : String} {later : Tree} (h : Layer part later)
include h

theorem Layer.merge {earlier : Tree} (hearlier : Layer part earlier) :
    Layer part (earlier.merge later) where
  distinct := hearlier.distinct.merge h.distinct
  table := isTable_merge earlier h.table
  part inner hinner := by
    rw [member?_merge h.distinct h.table] at hinner
    cases hlater : later.member? part with
    | none =>
      rw [hlater] at hinner
      exact hearlier.part inner hinner
    | some above =>
      rw [hlater] at hinner
      cases hmember : earlier.member? part with
      | none =>
        rw [hmember, overlay_none, Option.some.injEq] at hinner
        exact hinner ▸ h.part above hlater
      | some below =>
        rw [hmember] at hinner
        cases hinner
        exact isTable_merge below (h.part above hlater)

/-- What lies below is not lost. -/
theorem Layer.isSome_member? {earlier : Tree} {name : String}
    (hearlier : (earlier.member? name).isSome) : ((earlier.merge later).member? name).isSome := by
  obtain ⟨below, hbelow⟩ := Option.isSome_iff_exists.mp hearlier
  rw [member?_merge h.distinct h.table, hbelow]
  cases later.member? name with
  | none => rfl
  | some above => rfl

/-- A section is laid over the earlier one name by name. -/
theorem Layer.setting?_merge (earlier : Tree) (name : String) :
    (earlier.merge later).setting? part name =
      overlay (earlier.setting? part name) (later.setting? part name) := by
  have hmember := member?_merge h.distinct h.table earlier part
  unfold setting?
  rw [hmember]
  cases hlater : later.member? part with
  | none => rfl
  | some inner =>
    have hinner : inner.Distinct := h.distinct.member? hlater
    cases earlier.member? part with
    | none => exact (overlay_none _).symm
    | some t => exact member?_merge hinner (h.part inner hlater) t name

end Layer

theorem layer_nil (part : String) : Layer part (.table []) := ⟨.nil, rfl, nofun⟩

section Path

variable {part first : String} {value : Tree}

theorem member?_atPath (path : List String) : (atPath (first :: path) value).member? part =
    if part = first then some (atPath path value) else none :=
  lookup_cons first (atPath path value) [] part

/-- A path that leads to a setting of the section, or into one. -/
theorem layer_setting (name : String) (path : List String) (hvalue : value.Distinct) :
    Layer part (atPath (part :: name :: path) value) where
  distinct := distinct_atPath _ hvalue
  table := rfl
  part inner hinner := by
    rw [member?_atPath, if_pos rfl] at hinner
    cases hinner
    rfl

theorem setting?_setting (name : String) (path : List String) (k : String) :
    (atPath (part :: name :: path) value).setting? part k =
      if k = name then some (atPath path value) else none := by
  rw [setting?, member?_atPath, if_pos rfl, Option.bind_some]
  exact member?_atPath path

variable (hfirst : part ≠ first)
include hfirst

/-- A path that leads elsewhere. -/
theorem layer_elsewhere (path : List String) (hvalue : value.Distinct) :
    Layer part (atPath (first :: path) value) where
  distinct := distinct_atPath _ hvalue
  table := rfl
  part inner hinner := by
    rw [member?_atPath, if_neg hfirst] at hinner
    cases hinner

theorem setting?_elsewhere (path : List String) (k : String) :
    (atPath (first :: path) value).setting? part k = none := by
  rw [setting?, member?_atPath, if_neg hfirst, Option.bind_none]

end Path

/-- A layer holds what was given for a setting, or a table in its place, which is no value of any
setting. -/
def Shows (held given : Option Tree) : Prop := held = given ∨ ∃ t, held = some t ∧ t.isTable = true

/-- The later of two layers decides where it says something. -/
theorem Shows.overlay {earlier later above below : Option Tree} (hbelow : Shows earlier below)
    (habove : Shows later above) : Shows (Tree.overlay earlier later) (above.or below) := by
  cases later with
  | none =>
    rcases habove with rfl | ⟨t, ht, _⟩
    · rw [Option.none_or]
      exact hbelow
    · cases ht
  | some t =>
    rcases habove with rfl | ⟨_, ht, htable⟩
    · cases earlier with
      | none => exact .inl rfl
      | some e =>
        -- Only tables are joined, and what they come to is a table again.
        rcases e.merge_eq_or_table t with hsame | htable
        · exact .inl (congrArg some hsame)
        · exact .inr ⟨_, rfl, htable⟩
    · cases ht
      cases earlier with
      | none => exact .inr ⟨t, rfl, htable⟩
      | some e => exact .inr ⟨_, rfl, isTable_merge e htable⟩

theorem not_shows_none {t : Tree} : ¬ Shows none (some t) := by
  rintro (hheld | ⟨_, hheld, _⟩)
  · cases hheld
  · cases hheld

theorem Shows.given {held given : Option Tree} (h : Shows held given) {t : Tree}
    (hheld : held = some t) (hvalue : t.isTable = false) : given = some t := by
  rcases h with rfl | ⟨t', ht', htable⟩
  · exact hheld
  · rw [hheld] at ht'
    cases ht'
    rw [hvalue] at htable
    cases htable

end AdminPlane.Settings.Tree
