import AdminPlane.CommandLine.Basic
import AdminPlane.Proofs.CommandLine.Reading
import AdminPlane.Proofs.Settings.Variables
import Mathlib

namespace AdminPlane.Settings

open CommandLine (Found Invocation LogOptions NodeOptions keyVariable)
open Environment (Only addrVariable given? holds known maxBodySizeVariable)
open Settings.Tree (Layer Shows)

/-- What a file says on a setting. -/
def Source.setting? (file : Source) (name : String) : Option Tree :=
  match fileTree file with
  | .ok (some t) => t.setting? sectionName name
  | _ => none

/-- Where the file has the section, it gives the settings by name. -/
def Source.Named (file : Source) : Prop :=
  ∀ t part, fileTree file = .ok (some t) → t.member? sectionName = some part → part.isTable = true

/-- The first that says something on a setting decides: the command line, the file, the
environment. -/
def decided (given : Option Tree) (file : Source) (environ : List (String × String))
    (v : String × String) (default : Tree) : Tree :=
  ((given.or (file.setting? v.2)).or (given? environ v.1)).getD default

/-- Each setting has the value that was decided for it. -/
structure Decided (o : NodeOptions) (file : Source) (environ : List (String × String))
    (c : ServerConfig) : Prop where
  addr : .text c.addr = decided (o.addr.map .text) file environ (addrVariable, addrName)
    (.text ServerConfig.defaultAddr)
  key : .text c.key = decided (o.key.map .text) file environ (keyVariable, keyName) (.text "")
  maxBodySize : .integer c.maxBodySize =
    decided (o.maxBodySize.map fun n => .integer n) file environ
      (maxBodySizeVariable, maxBodySizeName) (.integer ServerConfig.defaultMaxBodySize)

/-- The options of a command line that says nothing. -/
def silent : NodeOptions := ⟨none, none, none, none, none⟩

theorem layer_tree (s : Settings) : Layer sectionName s.tree where
  distinct := by
    refine .table (by simp) fun m hm => ?_
    rw [List.mem_singleton.mp hm]
    refine .table (by simp [addrName, keyName, maxBodySizeName]) ?_
    simp only [List.forall_mem_cons, List.not_mem_nil, false_imp_iff, implies_true, and_true]
    exact ⟨.text _, .text _, .integer _⟩
  table := rfl
  part inner hinner := by
    cases hinner
    rfl

theorem layer_file {file : Source} (named : file.Named) {t : Tree}
    (h : fileTree file = .ok (some t)) : Layer sectionName t := by
  cases file with
  | absent => cases h
  | unreadable => cases h
  | contents bytes =>
    have hread : (Text.Utf8.decode? bytes).bind Toml.read = some t := by
      rw [fileTree] at h
      split at h
      · cases h
      · rename_i hread
        cases h
        exact hread
    obtain ⟨s, _, hread⟩ := Option.bind_eq_some_iff.mp hread
    have hdistinct := Toml.distinct_read hread
    exact ⟨hdistinct.1, hdistinct.2, fun part hpart => named t part h hpart⟩

theorem text_ok {path : List String} {default a : String} {held : Option Tree} {t : Tree}
    (h : text path default held = .ok a) (hshows : Shows held (some t)) : .text a = t := by
  unfold text at h
  split at h
  · exact absurd hshows Tree.not_shows_none
  · cases h
    exact (Option.some.inj (hshows.given rfl rfl)).symm
  · cases h

theorem size_ok {path : List String} {default n : Nat} {held : Option Tree} {t : Tree}
    (h : size path default held = .ok n) (hshows : Shows held (some t)) : .integer n = t := by
  unfold size at h
  split at h
  · exact absurd hshows Tree.not_shows_none
  · rename_i i
    split at h
    · cases h
    · rename_i hsign
      cases h
      rw [Option.some.inj (hshows.given rfl rfl), Int.toNat_of_nonneg (Int.not_lt.mp hsign)]
  · cases h

theorem ofTree_table {t : Tree} {members : List (String × Tree)}
    (h : t.member? sectionName = some (.table members)) {s : Settings} (hload : ofTree t = .ok s) :
    ofSection default.admin (.table members) = .ok s.admin := by
  rw [ofTree, h] at hload
  dsimp only at hload
  cases hsection : ofSection default.admin (.table members) with
  | error fault =>
    rw [hsection] at hload
    cases hload
  | ok admin =>
    rw [hsection] at hload
    cases hload
    rfl

theorem size_natural (path : List String) (default n : Nat) :
    size path default (some (.integer n)) = .ok n := by
  rw [size, if_neg (Int.not_lt.mpr (Int.natCast_nonneg n)), Int.toNat_natCast]

/-- A node's settings are what their own layer comes to. -/
theorem ofTree_tree (s : Settings) : ofTree s.tree = .ok s := by
  have hmember : s.tree.member? sectionName = some (.table
    [(addrName, .text s.admin.addr), (keyName, .text s.admin.key),
     (maxBodySizeName, .integer s.admin.maxBodySize)]) := rfl
  have hsection : ofSection default.admin (.table
    [(addrName, .text s.admin.addr), (keyName, .text s.admin.key),
     (maxBodySizeName, .integer s.admin.maxBodySize)]) = .ok s.admin :=
    bind_ok.mpr ⟨_, rfl, bind_ok.mpr ⟨_, rfl, bind_ok.mpr ⟨_, size_natural _ _ _, rfl⟩⟩⟩
  rw [ofTree, hmember]
  dsimp only
  rw [hsection]
  rfl

/-- What was decided for each setting stands in the section of the tree that is checked. -/
theorem decided_of_layer {t : Tree} (h : Layer sectionName t)
    (hpart : (t.member? sectionName).isSome) {file : Source} {environ : List (String × String)}
    (hshows : ∀ v ∈ known, Shows (t.setting? sectionName v.2)
      (((file.setting? v.2).or (given? environ v.1)).or (default.tree.setting? sectionName v.2)))
    {s : Settings} (hload : ofTree t = .ok s) : Decided silent file environ s.admin := by
  obtain ⟨inner, hinner⟩ := Option.isSome_iff_exists.mp hpart
  cases inner with
  | table members =>
    have hdecided : ∀ v ∈ known, ∀ d, default.tree.setting? sectionName v.2 = some d →
        Shows (members.lookup v.2) (some (decided none file environ v d)) := by
      intro v hv d hd
      have hv := hshows v hv
      rw [Tree.setting?, hinner, hd, Option.or_some] at hv
      exact hv
    have hsection := ofTree_table hinner hload
    obtain ⟨addr, haddr, hsection⟩ := bind_ok.mp hsection
    obtain ⟨key, hkey, hsection⟩ := bind_ok.mp hsection
    obtain ⟨maxBodySize, hsize, hsection⟩ := bind_ok.mp hsection
    obtain rfl : s = ⟨⟨addr, key, maxBodySize⟩⟩ := by
      cases s
      cases hsection
      rfl
    exact {
      addr := text_ok haddr (hdecided (addrVariable, addrName) (by simp [known]) _ rfl)
      key := text_ok hkey (hdecided (keyVariable, keyName) (by simp [known]) _ rfl)
      maxBodySize :=
        size_ok hsize (hdecided (maxBodySizeVariable, maxBodySizeName) (by simp [known]) _ rfl) }
  | text _ | integer _ | fraction | truth _ | list _ => cases h.part _ hinner

theorem decided_of_load {environ : List (String × String)} {file : Source} (only : Only environ)
    (named : file.Named) {s : Settings} (h : load environ file = .ok s) :
    Decided silent file environ s.admin := by
  have henviron := holds only
  have hbelow := henviron.layer.merge (layer_tree default)
  have hpart : ((default.tree.merge (Environment.tree environ)).member? sectionName).isSome :=
    henviron.layer.isSome_member? rfl
  have hshows : ∀ v ∈ known,
      Shows ((default.tree.merge (Environment.tree environ)).setting? sectionName v.2)
        ((given? environ v.1).or (default.tree.setting? sectionName v.2)) := by
    intro v hv
    rw [henviron.layer.setting?_merge]
    exact Shows.overlay (.inl rfl) (henviron.shows v hv)
  obtain ⟨above, hfile, hload⟩ := bind_ok.mp h
  cases above with
  | none =>
    refine decided_of_layer hbelow hpart (fun v hv => ?_) hload
    rw [Source.setting?, hfile, Option.none_or]
    exact hshows v hv
  | some t =>
    have hfileLayer := layer_file named hfile
    refine decided_of_layer (hfileLayer.merge hbelow) (hfileLayer.isSome_member? hpart)
      (fun v hv => ?_) hload
    rw [Source.setting?, hfile, hfileLayer.setting?_merge, Option.or_assoc]
    exact (hshows v hv).overlay (.inl rfl)

/-- An option that was found elsewhere than on the command line leaves what was loaded. -/
theorem explicit_found {α : Type} (given environment : Option α) (d loaded : α) :
    (if (Found.of given environment d).source = .commandLine then
      (Found.of given environment d).value else loaded) = given.getD loaded := by
  cases given with
  | some a => rfl
  | none =>
    cases environment with
    | some _ | none => rfl

theorem override_eq (s : Settings) (o : NodeOptions) : s.override o =
    ⟨⟨o.addr.getD s.admin.addr, o.key.getD s.admin.key,
      o.maxBodySize.getD s.admin.maxBodySize⟩⟩ := by
  simp only [override, apply, Option.all_some, decide_eq_true_eq, NodeOptions.admin,
    NodeOptions.sources, NodeOptions.addrFound, NodeOptions.keyFound,
    NodeOptions.maxBodySizeFound, explicit_found]

/-- Without sources the options replace all settings, also with their defaults. -/
theorem apply_none (s : Settings) (args : ServerConfig) : s.apply args none = ⟨args⟩ := rfl

/-- What stands on the command line decides before all that was loaded. -/
theorem Decided.override {file : Source} {environ : List (String × String)} {s : Settings}
    (h : Decided silent file environ s.admin) (o : NodeOptions) :
    Decided o file environ (s.override o).admin := by
  obtain ⟨haddr, hkey, hsize⟩ := h
  obtain ⟨_, addr, key, maxBodySize, _⟩ := o
  rw [override_eq]
  constructor
  · cases addr with
    | none => exact haddr
    | some a => rfl
  · cases key with
    | none => exact hkey
    | some k => rfl
  · cases maxBodySize with
    | none => exact hsize
    | some n => rfl

/-- A node runs with settings each of which is the first that was given for it, by the command
line, the file, the environment. The environment's key, which the command line shows as well, does
not come before the file's. -/
theorem first_source_decides {environ : List (String × String)} {file : Source}
    {words : List String} {logs : LogOptions} {o : NodeOptions} {s : Settings} (only : Only environ)
    (named : file.Named)
    (hwords : Invocation.ofWords (environ.lookup keyVariable) words = .ok ⟨logs, .node o⟩)
    (hload : load environ file = .ok s) :
    ∃ g, Invocation.ofWords none words = .ok ⟨logs, .node g⟩ ∧
      o = { g with environmentKey := environ.lookup keyVariable } ∧
      Decided g file environ (s.override o).admin ∧
      (g.key = none → ∀ t, file.setting? keyName = some t → .text (s.override o).admin.key = t) := by
  obtain ⟨g, hg, rfl⟩ := CommandLine.ofWords_node hwords
  have hdecided : Decided g file environ (s.override g).admin :=
    (decided_of_load only named hload).override g
  have hsame : s.override { g with environmentKey := environ.lookup keyVariable } =
      s.override g := by
    rw [override_eq, override_eq]
  rw [hsame]
  refine ⟨g, hg, rfl, hdecided, fun hkey t ht => ?_⟩
  have hsource := hdecided.key
  rw [decided, hkey, ht] at hsource
  exact hsource

def sampleEnviron : List (String × String) := [(addrVariable, "node:1"), (keyVariable, "e:1")]

def sampleFile : Source := .contents (Text.Utf8.encode "[admin]\nkey='f'")

theorem fileTree_sample : fileTree sampleFile =
    .ok (some (.table [("admin", .table [("key", .text "f")])])) := by
  cbv

theorem tree_sample : Environment.tree sampleEnviron =
    .table [("admin", .table [("addr", .text "node:1"), ("key", .text "e:1")])] := by
  have haddr : Environment.path? addrVariable = some ["admin", "addr"] := rfl
  have hkey : Environment.path? keyVariable = some ["admin", "key"] := rfl
  have hnode : Environment.read "node:1" = .text "node:1" := rfl
  have htext : Environment.read "e:1" = .text "e:1" := rfl
  simp only [Environment.tree, sampleEnviron, List.foldl_cons, List.foldl_nil, haddr, hkey, hnode,
    htext]
  rfl

theorem load_sample : load sampleEnviron sampleFile =
    .ok ⟨⟨"node:1", "f", ServerConfig.defaultMaxBodySize⟩⟩ := by
  have hmerge : (default.tree.merge (Environment.tree sampleEnviron)).merge
      (.table [("admin", .table [("key", .text "f")])]) =
      tree ⟨⟨"node:1", "f", ServerConfig.defaultMaxBodySize⟩⟩ := by
    rw [tree_sample]
    rfl
  refine bind_ok.mpr ⟨_, fileTree_sample, ?_⟩
  dsimp only
  rw [hmerge]
  exact ofTree_tree _

theorem sample_decided : sampleEnviron.lookup keyVariable = some "e:1" ∧
    sampleFile.setting? keyName = some (.text "f") ∧ ∃ g,
      Invocation.ofWords none ["node", "--config", "fcr.toml"] = .ok ⟨{}, .node g⟩ ∧
      Decided g sampleFile sampleEnviron ⟨"node:1", "f", ServerConfig.defaultMaxBodySize⟩ := by
  have honly : Only sampleEnviron := by
    unfold Only
    decide
  have hnamed : sampleFile.Named := by
    intro t part ht hpart
    rw [fileTree_sample] at ht
    cases ht
    cases hpart
    rfl
  have hwords : Invocation.ofWords (sampleEnviron.lookup keyVariable)
      ["node", "--config", "fcr.toml"] =
        .ok ⟨{}, .node ⟨some "fcr.toml", none, none, none, some "e:1"⟩⟩ := rfl
  have hfile : sampleFile.setting? keyName = some (.text "f") := by
    rw [Source.setting?, fileTree_sample]
    rfl
  obtain ⟨g, hg, _, hdecided, _⟩ := first_source_decides honly hnamed hwords load_sample
  exact ⟨rfl, hfile, g, hg, hdecided⟩

/-- A name that does not begin like those of the settings reaches one of them where blanks stand
behind the mark. -/
theorem blanks_reach_setting :
    (∀ m ∈ [("fcr_ admin_addr", "node:1")],
      ¬ "fcr_admin".toList <+: m.1.toList.map Char.toLower) ∧
    Invocation.ofWords none ["node"] = .ok ⟨{}, .node silent⟩ ∧
    ∃ s, load [("fcr_ admin_addr", "node:1")] .absent = .ok s ∧
      ¬ Decided silent .absent [("fcr_ admin_addr", "node:1")] (s.override silent).admin := by
  have hpath : Environment.path? "fcr_ admin_addr" = some ["admin", "addr"] := rfl
  have hnode : Environment.read "node:1" = .text "node:1" := rfl
  have htree : Environment.tree [("fcr_ admin_addr", "node:1")] =
      .table [("admin", .table [("addr", .text "node:1")])] := by
    simp only [Environment.tree, List.foldl_cons, List.foldl_nil, hpath, hnode]
    rfl
  have hmerge : default.tree.merge (Environment.tree [("fcr_ admin_addr", "node:1")]) =
      tree ⟨⟨"node:1", "", ServerConfig.defaultMaxBodySize⟩⟩ := by
    rw [htree]
    rfl
  have hload : load [("fcr_ admin_addr", "node:1")] .absent =
      .ok ⟨⟨"node:1", "", ServerConfig.defaultMaxBodySize⟩⟩ := by
    refine bind_ok.mpr ⟨none, rfl, ?_⟩
    dsimp only
    rw [hmerge]
    exact ofTree_tree _
  refine ⟨by decide, rfl, _, hload, fun hdecided => ?_⟩
  have haddr : Tree.text "node:1" = .text ServerConfig.defaultAddr := hdecided.addr
  injection haddr with haddr
  exact absurd haddr (by decide)

end AdminPlane.Settings
