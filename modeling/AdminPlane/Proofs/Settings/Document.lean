import AdminPlane.Proofs.Settings.Layers
import AdminPlane.Settings.Toml.Document

namespace AdminPlane.Settings.Toml

open Settings.Tree (Distinct distinct_list distinct_table)

namespace Node

theorem lookup_treeMembers (members : Members) (name : String) :
    (treeMembers members).lookup name = (members.lookup name).map tree := by
  induction members with
  | nil => rfl
  | cons m rest ih =>
    obtain ⟨n, node⟩ := m
    rw [treeMembers, Tree.lookup_cons, Tree.lookup_cons, ih]
    split
    · rfl
    · rfl

theorem treeMembers_append (members : Members) (name : String) (node : Node) :
    treeMembers (members ++ [(name, node)]) = treeMembers members ++ [(name, tree node)] := by
  induction members with
  | nil => rfl
  | cons m rest ih =>
    obtain ⟨n, node'⟩ := m
    rw [List.cons_append, treeMembers, ih, treeMembers, List.cons_append]

theorem treeMembers_put (members : Members) (name : String) (node : Node) :
    treeMembers (Tree.put members name node) = Tree.put (treeMembers members) name (tree node) := by
  induction members with
  | nil => rfl
  | cons m rest ih =>
    obtain ⟨n, node'⟩ := m
    rw [Tree.put, treeMembers, Tree.put]
    split
    · rw [treeMembers]
    · rw [treeMembers, ih]

/-- Members that come to a table of distinct names. -/
def Sound (members : Members) : Prop := Distinct (.table (treeMembers members))

theorem Sound.nil : Sound [] := Distinct.nil

section Sound

variable {members : Members} (h : Sound members) {name : String}
include h

theorem Sound.append (hnew : members.lookup name = none) {node : Node}
    (hnode : (tree node).Distinct) : Sound (members ++ [(name, node)]) := by
  rw [Sound, treeMembers_append]
  refine Distinct.append h ?_ hnode
  rw [lookup_treeMembers, hnew]
  rfl

theorem Sound.put (name : String) {node : Node} (hnode : (tree node).Distinct) :
    Sound (Tree.put members name node) := by
  rw [Sound, treeMembers_put]
  exact Distinct.put h name hnode

theorem Sound.member {node : Node} (hnode : members.lookup name = some node) :
    (tree node).Distinct := by
  have hlookup : (treeMembers members).lookup name = some (tree node) := by
    rw [lookup_treeMembers, hnode]
    rfl
  exact Distinct.lookup h hlookup

end Sound

theorem distinct_tables {earlier : List Members} {last : Members} :
    (tree (.tables earlier last)).Distinct ↔
      (∀ t ∈ treeElements earlier, t.Distinct) ∧ Sound last := by
  rw [tree, distinct_list]
  simp only [List.mem_append, List.mem_singleton, or_imp, forall_and, forall_eq]
  rfl

theorem sound_assign {members result : Members} {path : List String} {value : Tree}
    (h : Sound members) (hvalue : value.Distinct)
    (assigned : assign members path value = some result) : Sound result := by
  induction path generalizing members result with
  | nil => cases assigned
  | cons name rest ih =>
    cases rest with
    | nil =>
      rw [assign] at assigned
      split at assigned
      · cases assigned
      · rename_i hnew
        cases assigned
        exact h.append (Option.not_isSome_iff_eq_none.mp hnew) hvalue
    | cons next path =>
      rw [assign] at assigned
      cases hlookup : members.lookup name with
      | none =>
        simp only [hlookup] at assigned
        obtain ⟨inner, hinner, ⟨⟩⟩ := Option.bind_eq_some_iff.mp assigned
        exact h.append hlookup (ih .nil hinner)
      | some node =>
        simp only [hlookup] at assigned
        have hnode := h.member hlookup
        cases node with
        | leaf value => cases assigned
        | table origin inner =>
          cases origin with
          | header => cases assigned
          | dotted =>
            obtain ⟨inner', hinner, ⟨⟩⟩ := Option.bind_eq_some_iff.mp assigned
            exact h.put name (ih hnode hinner)
          | implied =>
            dsimp only at assigned
            split at assigned
            · cases assigned
            · obtain ⟨inner', hinner, ⟨⟩⟩ := Option.bind_eq_some_iff.mp assigned
              exact h.put name (ih hnode hinner)
        | tables earlier last =>
          obtain ⟨hearlier, hlast⟩ := distinct_tables.mp hnode
          dsimp only at assigned
          split at assigned
          · cases assigned
          · obtain ⟨last', hlast', ⟨⟩⟩ := Option.bind_eq_some_iff.mp assigned
            exact h.put name (distinct_tables.mpr ⟨hearlier, ih hlast hlast'⟩)

/-- What keeps names apart in one table keeps them apart in the table that a header leads to. -/
theorem sound_within {act : Members → Option Members}
    (hact : ∀ members result, Sound members → act members = some result → Sound result)
    {members result : Members} {path : List String} (h : Sound members)
    (acted : within act members path = some result) : Sound result := by
  induction path generalizing members result with
  | nil => exact hact members result h acted
  | cons name path ih =>
    rw [within] at acted
    cases hlookup : members.lookup name with
    | none =>
      simp only [hlookup] at acted
      obtain ⟨inner, hinner, ⟨⟩⟩ := Option.bind_eq_some_iff.mp acted
      exact h.append hlookup (ih .nil hinner)
    | some node =>
      simp only [hlookup] at acted
      have hnode := h.member hlookup
      cases node with
      | leaf value => cases acted
      | table origin inner =>
        obtain ⟨inner', hinner, ⟨⟩⟩ := Option.bind_eq_some_iff.mp acted
        exact h.put name (ih hnode hinner)
      | tables earlier last =>
        obtain ⟨hearlier, hlast⟩ := distinct_tables.mp hnode
        obtain ⟨last', hlast', ⟨⟩⟩ := Option.bind_eq_some_iff.mp acted
        exact h.put name (distinct_tables.mpr ⟨hearlier, ih hlast hlast'⟩)

theorem sound_openTable {name : String} {members result : Members} (h : Sound members)
    (opened : openTable name members = some result) : Sound result := by
  rw [openTable] at opened
  cases hlookup : members.lookup name with
  | none =>
    simp only [hlookup] at opened
    cases opened
    exact h.append hlookup Sound.nil
  | some node =>
    simp only [hlookup] at opened
    have hnode := h.member hlookup
    cases node with
    | leaf value => cases opened
    | table origin inner =>
      cases origin with
      | implied =>
        cases opened
        exact h.put name hnode
      | header | dotted => cases opened
    | tables earlier last => cases opened

theorem treeElements_append (earlier : List Members) (last : Members) :
    treeElements (earlier ++ [last]) = treeElements earlier ++ [.table (treeMembers last)] := by
  induction earlier with
  | nil => rfl
  | cons first rest ih => rw [List.cons_append, treeElements, ih, treeElements, List.cons_append]

theorem sound_openElement {name : String} {members result : Members} (h : Sound members)
    (opened : openElement name members = some result) : Sound result := by
  rw [openElement] at opened
  cases hlookup : members.lookup name with
  | none =>
    simp only [hlookup] at opened
    cases opened
    exact h.append hlookup (distinct_tables.mpr ⟨nofun, .nil⟩)
  | some node =>
    simp only [hlookup] at opened
    have hnode := h.member hlookup
    cases node with
    | leaf value => cases opened
    | table origin inner => cases opened
    | tables earlier last =>
      cases opened
      obtain ⟨hearlier, hlast⟩ := distinct_tables.mp hnode
      refine h.put name (distinct_tables.mpr ⟨fun t ht => ?_, .nil⟩)
      rw [treeElements_append] at ht
      rcases List.mem_append.mp ht with ht | ht
      · exact hearlier t ht
      · rw [List.mem_singleton.mp ht]
        exact hlast

end Node

/-- What comes of a reader has distinct names. -/
def ReadsDistinct (read : List Char → Option (Taken Tree)) : Prop :=
  ∀ s t rest, read s = some (t, rest) → t.Distinct

section Reader

variable {read : List Char → Option (Taken Tree)} (hread : ReadsDistinct read)
include hread

theorem distinct_items {s rest : List Char} {found : List Tree}
    (h : items read s = some (found, rest)) : ∀ t ∈ found, t.Distinct := by
  rw [items] at h
  split at h
  · cases h
  · cases h
    exact List.forall_mem_nil _
  · rename_i s' _ _
    cases hitem : read s' with
    | none =>
      simp only [hitem] at h
      cases h
    | some taken =>
      obtain ⟨item, behind⟩ := taken
      have hdistinct := hread s' item behind hitem
      simp only [hitem] at h
      split at h
      · rename_i tail _
        split at h
        · obtain ⟨⟨more, last⟩, hmore, ⟨⟩⟩ := Option.map_eq_some_iff.mp h
          exact List.forall_mem_cons.mpr ⟨hdistinct, distinct_items hmore⟩
        · cases h
      · cases h
        exact List.forall_mem_cons.mpr ⟨hdistinct, List.forall_mem_nil _⟩
      · cases h
termination_by s.length

theorem distinct_pair {s rest : List Char} {name : List String} {value : Tree}
    (h : pair read s = some ((name, value), rest)) : value.Distinct := by
  obtain ⟨⟨name', behind⟩, _, h⟩ := Option.bind_eq_some_iff.mp h
  obtain ⟨behind', _, h⟩ := Option.bind_eq_some_iff.mp h
  obtain ⟨⟨value', rest'⟩, hvalue, ⟨⟩⟩ := Option.bind_eq_some_iff.mp h
  exact hread _ _ _ hvalue

theorem sound_pairs {members found : Members} {s rest : List Char} (hsound : Node.Sound members)
    (h : pairs read members s = some (found, rest)) : Node.Sound found := by
  rw [pairs] at h
  split at h
  · cases h
  · rename_i name value behind hpair
    have hvalue := distinct_pair hread hpair
    split at h
    · rename_i assigned hassigned _
      cases h
      exact Node.sound_assign hsound hvalue hassigned
    · rename_i assigned tail hassigned _
      split at h
      · exact sound_pairs (Node.sound_assign hsound hvalue hassigned) h
      · cases h
    · cases h
termination_by s.length

theorem distinct_inlineTable : ReadsDistinct (inlineTable read) := by
  intro s t rest h
  rw [inlineTable] at h
  split at h
  · cases h
    exact .nil
  · obtain ⟨⟨found, last⟩, hfound, ⟨⟩⟩ := Option.map_eq_some_iff.mp h
    exact sound_pairs hread .nil hfound

end Reader

theorem distinct_number : ReadsDistinct number := by
  intro s t rest h
  rw [number] at h
  split at h
  · cases h
    exact .nil
  · cases h
    exact .fraction
  · obtain ⟨⟨n, last⟩, _, ⟨⟩⟩ := Option.map_eq_some_iff.mp h
    exact .integer n

theorem distinct_value (depth : Nat) : ReadsDistinct (value depth) := by
  induction depth using Nat.strongRecOn with
  | ind depth ih =>
    intro s t rest h
    rw [value.eq_def] at h
    split at h
    · cases h
    · split at h
      · obtain ⟨⟨text, last⟩, _, ⟨⟩⟩ := Option.map_eq_some_iff.mp h
        exact .text text
      · split at h
        · split at h
          · cases h
          · obtain ⟨⟨found, last⟩, hfound, ⟨⟩⟩ := Option.map_eq_some_iff.mp h
            exact .list (distinct_items (ih _ (Nat.lt_succ_self _)) hfound)
        · split at h
          · split at h
            · cases h
            · exact distinct_inlineTable (ih _ (Nat.lt_succ_self _)) _ _ _ h
          · split at h
            · obtain ⟨last, _, ⟨⟩⟩ := Option.map_eq_some_iff.mp h
              exact .truth true
            · split at h
              · obtain ⟨last, _, ⟨⟩⟩ := Option.map_eq_some_iff.mp h
                exact .truth false
              · exact distinct_number _ _ _ h

namespace Draft

theorem sound_header {d d' : Draft} {name : List String} {act : String → Members → Option Members}
    (hact : ∀ last members result, Node.Sound members → act last members = some result →
      Node.Sound result)
    (h : Node.Sound d.root) (read : d.header name act = some d') : Node.Sound d'.root := by
  obtain ⟨last, _, read⟩ := Option.bind_eq_some_iff.mp read
  obtain ⟨root, hroot, ⟨⟩⟩ := Option.bind_eq_some_iff.mp read
  exact Node.sound_within (hact last) h hroot

theorem sound_add {d d' : Draft} {name : List String} {value : Tree} (h : Node.Sound d.root)
    (hvalue : value.Distinct) (read : d.add name value = some d') : Node.Sound d'.root := by
  obtain ⟨root, hroot, ⟨⟩⟩ := Option.bind_eq_some_iff.mp read
  exact Node.sound_within (fun _ _ hs => Node.sound_assign hs hvalue) h hroot

theorem sound_line {d d' : Draft} {s rest : List Char} (h : Node.Sound d.root)
    (read : d.line s = some (d', rest)) : Node.Sound d'.root := by
  rw [line.eq_def] at read
  split at read
  · obtain ⟨⟨name, behind⟩, _, read⟩ := Option.bind_eq_some_iff.mp read
    obtain ⟨opened, hopened, read⟩ := Option.bind_eq_some_iff.mp read
    obtain ⟨behind', _, read⟩ := Option.bind_eq_some_iff.mp read
    obtain ⟨last, _, ⟨⟩⟩ := Option.bind_eq_some_iff.mp read
    exact sound_header (fun _ _ _ => Node.sound_openElement) h hopened
  · obtain ⟨⟨name, behind⟩, _, read⟩ := Option.bind_eq_some_iff.mp read
    obtain ⟨opened, hopened, read⟩ := Option.bind_eq_some_iff.mp read
    obtain ⟨behind', _, read⟩ := Option.bind_eq_some_iff.mp read
    obtain ⟨last, _, ⟨⟩⟩ := Option.bind_eq_some_iff.mp read
    exact sound_header (fun _ _ _ => Node.sound_openTable) h hopened
  · obtain ⟨⟨⟨name, value⟩, behind⟩, hpair, read⟩ := Option.bind_eq_some_iff.mp read
    obtain ⟨added, hadded, read⟩ := Option.bind_eq_some_iff.mp read
    obtain ⟨last, _, ⟨⟩⟩ := Option.bind_eq_some_iff.mp read
    exact sound_add h (distinct_pair (distinct_value depthLimit) hpair) hadded

theorem sound_lines {d d' : Draft} {s : List Char} (h : Node.Sound d.root)
    (read : d.lines s = some d') : Node.Sound d'.root := by
  rw [lines] at read
  split at read
  · cases read
    exact h
  · split at read
    · split at read
      · cases read
      · split at read
        · exact sound_lines h read
        · cases read
    · split at read
      · cases read
      · rename_i hline
        split at read
        · exact sound_lines (sound_line h hline) read
        · cases read
termination_by s.length

end Draft

/-- A document is a table, and no two members of any table in it have one name. -/
theorem distinct_read {s : String} {t : Tree} (h : read s = some t) :
    t.Distinct ∧ t.isTable = true := by
  obtain ⟨d, hd, rfl⟩ := Option.map_eq_some_iff.mp h
  exact ⟨Draft.sound_lines .nil hd, rfl⟩

end AdminPlane.Settings.Toml
