import AdminPlane.Proofs.Channel.KeyText
import AdminPlane.Proofs.Settings.Precedence
import Mathlib

namespace AdminPlane

/-- A key whose text has no letters in it and stands for a number of 64 bits. -/
def Channel.Key.IsNumeral (k : Channel.Key) : Prop :=
  k.hex.toList.all Decimal.isDigit = true ∧ Decimal.ofDigits k.hex.toList < UInt64.size

instance Channel.Key.decidableIsNumeral (k : Channel.Key) : Decidable k.IsNumeral :=
  inferInstanceAs (Decidable (_ ∧ _))

end AdminPlane

namespace AdminPlane.Settings.Environment

open Channel (Key)
open CommandLine (keyVariable)
open Settings.Tree (Layer)

section Digits

variable {s : List Char} (h : ∀ c ∈ s, c ∈ Text.Hex.digits)
include h

/-- A word of digits in base sixteen has neither a point nor a sign in it. -/
theorem bare_digits (hne : s ≠ []) :
    bare s = if s.all Decimal.isDigit = true ∧ Decimal.ofDigits s < UInt64.size then
      .integer (Decimal.ofDigits s) else .text (String.ofList s) := by
  have hpoint : s.contains '.' = false := by
    rw [List.contains_eq_mem, decide_eq_false_iff_not]
    exact fun hmem => absurd (h _ hmem) (by decide)
  have hunsigned : Decimal.unsigned? UInt64.size s =
      (Decimal.natural? s).filter (· < UInt64.size) := by
    unfold Decimal.unsigned?
    split
    · exact absurd (h '+' List.mem_cons_self) (by decide)
    · rfl
  have hsigned : Decimal.signed64? s =
      ((Decimal.natural? s).map Int.ofNat).filter Decimal.fits64 := by
    unfold Decimal.signed64?
    split
    · exact absurd (h '-' List.mem_cons_self) (by decide)
    · exact absurd (h '+' List.mem_cons_self) (by decide)
    · rfl
  rw [bare, hpoint, Bool.false_and, if_neg Bool.false_ne_true, hunsigned, hsigned]
  unfold Decimal.natural?
  by_cases hall : s.all Decimal.isDigit = true
  · rw [if_pos ⟨hne, hall⟩]
    by_cases hsize : Decimal.ofDigits s < UInt64.size
    · rw [Option.filter_some, if_pos (decide_eq_true hsize), if_pos ⟨hall, hsize⟩]
    · have hlarge : Decimal.fits64 (Int.ofNat (Decimal.ofDigits s)) = false := by
        have hbound : UInt64.size = 0x10000000000000000 := rfl
        refine Bool.and_eq_false_iff.mpr (.inr (decide_eq_false ?_))
        rw [Int.ofNat_eq_natCast]
        omega
      rw [Option.map_some, Option.filter_some, Option.filter_some,
        if_neg (mt of_decide_eq_true hsize), if_neg (ne_true_of_eq_false hlarge),
        if_neg fun hboth => hsize hboth.2]
  · rw [if_neg fun hboth => hall hboth.2, if_neg fun hboth => hall hboth.1]
    rfl

/-- Such a word is read to its end: nothing in it opens a list, a table or a quotation, and it is
not one of the words for truth. -/
theorem value_digits (depth : Nat) : value depth s = some (bare s, []) := by
  have hplain : ∀ c ∈ s, Text.isBlank c = false ∧ Text.isAsciiBlank c = false ∧
      isSeparator c = false := by
    have hdigits : Text.Hex.digits.all fun c => ¬ Text.isBlank c ∧ ¬ Text.isAsciiBlank c ∧
        ¬ isSeparator c := by decide
    intro c hc
    simpa using List.all_eq_true.mp hdigits c (h c hc)
  have hblanks : skipBlanks s = s := by
    rw [skipBlanks]
    cases s with
    | nil => rfl
    | cons c s => exact List.dropWhile_cons_of_neg (by simp [hplain c List.mem_cons_self])
  have hword : s.takeWhile (fun c => ¬ isSeparator c) = s :=
    List.takeWhile_eq_self_iff.mpr fun c hc => by simp [hplain c hc]
  have hrest : s.dropWhile (fun c => ¬ isSeparator c) = [] :=
    List.dropWhile_eq_nil_iff.mpr fun c hc => by simp [hplain c hc]
  have hbehind : ∀ (word : String) (c : Char), c ∈ word.toList → c ∉ Text.Hex.digits →
      Toml.behind? word s = none := by
    intro word c hc hnot
    rw [Toml.behind?, if_neg]
    exact fun hprefix => hnot (h c ((List.isPrefixOf_iff_prefix.mp hprefix).subset hc))
  rw [value.eq_def, hblanks]
  dsimp only
  split
  · exact absurd (h _ List.mem_cons_self) (by decide)
  · exact absurd (h _ List.mem_cons_self) (by decide)
  · exact absurd (h _ List.mem_cons_self) (by decide)
  · exact absurd (h _ List.mem_cons_self) (by decide)
  · exact absurd (h _ List.mem_cons_self) (by decide)
  · rw [hbehind "true" 't' (by decide) (by decide), hbehind "false" 'l' (by decide) (by decide),
      hword, hrest, Text.trim_of_no_blank fun c hc => (hplain c hc).1]
    rfl

end Digits

theorem read_hex (k : Key) : read k.hex =
    if k.IsNumeral then .integer (Decimal.ofDigits k.hex.toList) else .text k.hex := by
  have hne : k.hex.toList ≠ [] := List.ne_nil_of_length_pos (by rw [k.length_hex]; decide)
  rw [read, value_digits k.digits_hex, bare_digits k.digits_hex hne, String.ofList_toList]
  rfl

/-- A variable that gives neither the section as a whole nor anything in the place of the key. -/
def Apart (name : String) : Prop :=
  ∀ path ∈ path? name, path ≠ [sectionName] ∧ ¬ [sectionName, keyName] <+: path

/-- What such a variable is laid over the others as, if it counts at all. -/
theorem tree_concat_apart {name : String} (apart : Apart name) (value : String) :
    (∀ environ, tree (environ ++ [(name, value)]) = tree environ) ∨
      ∃ later, Layer sectionName later ∧ later.setting? sectionName keyName = none ∧
        ∀ environ, tree (environ ++ [(name, value)]) = (tree environ).merge later := by
  cases hname : path? name with
  | none =>
    refine .inl fun environ => ?_
    rw [tree_concat, hname]
  | some path =>
    obtain ⟨hsection, hkey⟩ := apart path hname
    refine .inr ⟨.atPath path (read value), ?_⟩
    obtain ⟨first, rest, rfl⟩ := List.exists_cons_of_ne_nil (path?_ne_nil hname)
    have htree : ∀ environ, tree (environ ++ [(name, value)]) =
        (tree environ).merge (.atPath (first :: rest) (read value)) := by
      intro environ
      rw [tree_concat, hname]
    by_cases hfirst : sectionName = first
    · subst hfirst
      cases rest with
      | nil => exact absurd rfl hsection
      | cons setting rest =>
        have hsetting : keyName ≠ setting := by
          rintro rfl
          exact hkey ⟨rest, rfl⟩
        refine ⟨Tree.layer_setting setting rest (distinct_read value), ?_, htree⟩
        rw [Tree.setting?_setting, if_neg hsetting]
    · exact ⟨Tree.layer_elsewhere hfirst rest (distinct_read value),
        Tree.setting?_elsewhere hfirst rest keyName, htree⟩

end AdminPlane.Settings.Environment

namespace AdminPlane.Settings

open Channel (Key)
open CommandLine (Invocation LogOptions NodeOptions keyVariable)
open Environment (Apart addrVariable)
open Settings.Tree (Layer)

/-- Two trees that give the same but for the key. -/
structure DifferInKey (held held' : Option Tree) (t t' : Tree) : Prop where
  layer : Layer sectionName t
  layer' : Layer sectionName t'
  held : t.setting? sectionName keyName = held
  held' : t'.setting? sectionName keyName = held'
  others : ∀ name, name ≠ keyName → t'.setting? sectionName name = t.setting? sectionName name

namespace DifferInKey

variable {held held' : Option Tree} {t t' : Tree}

theorem single {t : Tree} (h : Layer sectionName t) (hnone : t.setting? sectionName keyName = none)
    {value : Tree} (hvalue : value.Distinct) :
    DifferInKey none (some value) t (t.merge (.atPath [sectionName, keyName] value)) := by
  have hlater : Layer sectionName (.atPath [sectionName, keyName] value) :=
    Tree.layer_setting keyName [] hvalue
  refine ⟨h, hlater.merge h, hnone, ?_, fun name hname => ?_⟩
  · rw [hlater.setting?_merge, hnone, Tree.overlay_none, Tree.setting?_setting, if_pos rfl]
    rfl
  · rw [hlater.setting?_merge, Tree.setting?_setting, if_neg hname]
    rfl

/-- A layer that does not give the key is laid over both. -/
theorem covered (h : DifferInKey held held' t t') {later : Tree} (hlater : Layer sectionName later)
    (hnone : later.setting? sectionName keyName = none) :
    DifferInKey held held' (t.merge later) (t'.merge later) := by
  refine ⟨hlater.merge h.layer, hlater.merge h.layer', ?_, ?_, fun name hname => ?_⟩
  · rw [hlater.setting?_merge, hnone]
    exact h.held
  · rw [hlater.setting?_merge, hnone]
    exact h.held'
  · rw [hlater.setting?_merge, hlater.setting?_merge, h.others name hname]

/-- Both are laid over one layer. -/
theorem onto (h : DifferInKey held held' t t') {earlier : Tree}
    (hearlier : Layer sectionName earlier) :
    DifferInKey (Tree.overlay (earlier.setting? sectionName keyName) held)
      (Tree.overlay (earlier.setting? sectionName keyName) held') (earlier.merge t)
      (earlier.merge t') := by
  refine ⟨h.layer.merge hearlier, h.layer'.merge hearlier, ?_, ?_, fun name hname => ?_⟩
  · rw [h.layer.setting?_merge, h.held]
  · rw [h.layer'.setting?_merge, h.held']
  · rw [h.layer.setting?_merge, h.layer'.setting?_merge, h.others name hname]

end DifferInKey

/-- A tree with a key gives the settings that its section has by name. -/
theorem ofTree_section {t : Tree} (h : Layer sectionName t) {value : Tree}
    (hkey : t.setting? sectionName keyName = some value) :
    ∃ members, ofTree t = (ofSection default.admin (.table members)).map Settings.mk ∧
      ∀ name, members.lookup name = t.setting? sectionName name := by
  obtain ⟨inner, hinner, _⟩ := Option.bind_eq_some_iff.mp hkey
  have htable := h.part inner hinner
  cases inner with
  | table members =>
    refine ⟨members, ?_, fun name => ?_⟩
    · rw [ofTree, hinner]
    · rw [Tree.setting?, hinner]
      rfl
  | text _ | integer _ | fraction | truth _ | list _ => cases htable

/-- The same settings with another key. -/
def withKey (key : String) (s : Settings) : Settings := ⟨{ s.admin with key := key }⟩

namespace DifferInKey

variable {old : String} {t t' : Tree}

theorem ofTree_text {key : String}
    (h : DifferInKey (some (.text old)) (some (.text key)) t t') :
    ofTree t' = (ofTree t).map (withKey key) := by
  obtain ⟨members, ht, hmembers⟩ := ofTree_section h.layer h.held
  obtain ⟨members', ht', hmembers'⟩ := ofTree_section h.layer' h.held'
  rw [ht, ht']
  simp only [ofSection]
  rw [hmembers, hmembers, hmembers, hmembers', hmembers', hmembers', h.held, h.held',
    h.others addrName (by decide), h.others maxBodySizeName (by decide)]
  cases text [sectionName, addrName] default.admin.addr (t.setting? sectionName addrName) with
  | error fault => rfl
  | ok addr =>
    cases size [sectionName, maxBodySizeName] default.admin.maxBodySize
        (t.setting? sectionName maxBodySizeName) with
    | error fault => rfl
    | ok maxBodySize => rfl

theorem ofTree_integer {n : Int} (h : DifferInKey (some (.text old)) (some (.integer n)) t t') :
    (∀ s, ofTree t' ≠ .ok s) ∧
      ∀ s, ofTree t = .ok s → ofTree t' = .error (.wrongType [sectionName, keyName]) := by
  obtain ⟨members, ht, hmembers⟩ := ofTree_section h.layer h.held
  obtain ⟨members', ht', hmembers'⟩ := ofTree_section h.layer' h.held'
  rw [ht, ht']
  simp only [ofSection]
  rw [hmembers, hmembers, hmembers, hmembers', hmembers', hmembers', h.held, h.held',
    h.others addrName (by decide)]
  cases text [sectionName, addrName] default.admin.addr (t.setting? sectionName addrName) with
  | error fault => exact ⟨nofun, nofun⟩
  | ok addr => exact ⟨nofun, fun _ _ => rfl⟩

end DifferInKey

theorem layer_apart {environ : List (String × String)} (apart : ∀ m ∈ environ, Apart m.1) :
    Layer sectionName (Environment.tree environ) ∧
      (Environment.tree environ).setting? sectionName keyName = none := by
  induction environ using List.reverseRecOn with
  | nil => exact ⟨Tree.layer_nil _, rfl⟩
  | append_singleton environ m ih =>
    obtain ⟨hlayer, hnone⟩ := ih fun m hm => apart m (List.mem_append_left _ hm)
    rcases Environment.tree_concat_apart (apart m (by simp)) m.2 with
      htree | ⟨later, hlater, hkey, htree⟩
    · rw [htree]
      exact ⟨hlayer, hnone⟩
    · rw [htree]
      refine ⟨hlater.merge hlayer, ?_⟩
      rw [hlater.setting?_merge, hnone, hkey]
      rfl

/-- The key's variable makes a difference in the key, wherever it stands among the others. -/
theorem differInKey_tree {before after : List (String × String)}
    (apart : ∀ m ∈ before ++ after, Apart m.1) (value : String) :
    DifferInKey none (some (Environment.read value)) (Environment.tree (before ++ after))
      (Environment.tree (before ++ (keyVariable, value) :: after)) := by
  induction after using List.reverseRecOn with
  | nil =>
    rw [List.append_nil] at apart ⊢
    obtain ⟨hlayer, hnone⟩ := layer_apart apart
    rw [Environment.tree_concat,
      Environment.path?_known (keyVariable, keyName) (by simp [Environment.known])]
    exact .single hlayer hnone (Environment.distinct_read value)
  | append_singleton after m ih =>
    have hm : m ∈ before ++ (after ++ [m]) := by simp
    have hrest := ih fun m hm => apart m (by
      rcases List.mem_append.mp hm with hm | hm
      · exact List.mem_append_left _ hm
      · exact List.mem_append_right _ (List.mem_append_left _ hm))
    rw [← List.append_assoc, ← List.cons_append, ← List.append_assoc]
    rcases Environment.tree_concat_apart (apart m hm) m.2 with
      htree | ⟨later, hlater, hkey, htree⟩
    · rw [htree, htree]
      exact hrest
    · rw [htree, htree]
      exact hrest.covered hlater hkey

theorem load_eq {file : Source} {above : Option Tree} (h : fileTree file = .ok above)
    (environ : List (String × String)) :
    load environ file = ofTree (above.elim (default.tree.merge (Environment.tree environ))
      (default.tree.merge (Environment.tree environ)).merge) := by
  rw [load, h]
  cases above with
  | none => rfl
  | some t => rfl

/-- What is loaded comes of two trees that differ in the key, if the file can be read. -/
theorem differInKey_load {before after : List (String × String)} {file : Source}
    (apart : ∀ m ∈ before ++ after, Apart m.1) (named : file.Named)
    (keyless : file.setting? keyName = none) {above : Option Tree}
    (hfile : fileTree file = .ok above) (value : String) :
    ∃ t t', DifferInKey (some (.text "")) (some (Environment.read value)) t t' ∧
      load (before ++ after) file = ofTree t ∧
      load (before ++ (keyVariable, value) :: after) file = ofTree t' := by
  have hbelow := (differInKey_tree apart value).onto (layer_tree default)
  have hdefault : default.tree.setting? sectionName keyName = some (.text "") := rfl
  rw [hdefault, Tree.overlay, Tree.overlay, Tree.merge_text] at hbelow
  refine ⟨_, _, ?_, load_eq hfile _, load_eq hfile _⟩
  cases above with
  | none => exact hbelow
  | some t =>
    rw [Source.setting?, hfile] at keyless
    exact hbelow.covered (layer_file named hfile) keyless

theorem lookup_keyVariable {before after : List (String × String)}
    (apart : ∀ m ∈ before ++ after, Apart m.1) (value : String) :
    (before ++ (keyVariable, value) :: after).lookup keyVariable = some value := by
  have hbefore : before.lookup keyVariable = none := by
    refine Tree.lookup_eq_none fun hmem => ?_
    obtain ⟨m, hm, hname⟩ := List.mem_map.mp hmem
    have hpath := Environment.path?_known (keyVariable, keyName) (by simp [Environment.known])
    exact (apart m (List.mem_append_left _ hm) _ (hname ▸ hpath)).2 List.prefix_rfl
  rw [List.lookup_append, hbefore, Option.none_or, Tree.lookup_cons, if_pos rfl]

section Load

variable {k : Key} {before after : List (String × String)} {file : Source}
  (apart : ∀ m ∈ before ++ after, Apart m.1) (named : file.Named)
  (keyless : file.setting? keyName = none)
include apart named keyless

theorem load_text (h : ¬ k.IsNumeral) : load (before ++ (keyVariable, k.hex) :: after) file =
    (load (before ++ after) file).map (withKey k.hex) := by
  cases hfile : fileTree file with
  | error fault =>
    rw [load, load, hfile]
    rfl
  | ok above =>
    obtain ⟨t, t', hdiffer, hothers, hload⟩ := differInKey_load apart named keyless hfile k.hex
    rw [Environment.read_hex, if_neg h] at hdiffer
    rw [hload, hothers]
    exact hdiffer.ofTree_text

theorem load_numeral (h : k.IsNumeral) :
    (∀ s, load (before ++ (keyVariable, k.hex) :: after) file ≠ .ok s) ∧
      ∀ s, load (before ++ after) file = .ok s →
        load (before ++ (keyVariable, k.hex) :: after) file =
          .error (.wrongType [sectionName, keyName]) := by
  cases hfile : fileTree file with
  | error fault =>
    rw [load, load, hfile]
    exact ⟨nofun, nofun⟩
  | ok above =>
    obtain ⟨t, t', hdiffer, hothers, hload⟩ := differInKey_load apart named keyless hfile k.hex
    rw [Environment.read_hex, if_pos h] at hdiffer
    rw [hload, hothers]
    exact hdiffer.ofTree_integer

end Load

/-- A key that the environment alone gives is the one that a node runs with, unless its text is a
number: of such a key no settings come. -/
theorem environment_key (k : Key) {before after : List (String × String)} {file : Source}
    {words : List String} {logs : LogOptions} {o : NodeOptions}
    (apart : ∀ m ∈ before ++ after, Apart m.1) (named : file.Named)
    (keyless : file.setting? keyName = none)
    (hwords : Invocation.ofWords ((before ++ (keyVariable, k.hex) :: after).lookup keyVariable)
      words = .ok ⟨logs, .node o⟩)
    (hsilent : o.key = none) :
    let loaded := load (before ++ (keyVariable, k.hex) :: after) file
    let others := load (before ++ after) file
    o.environmentKey = some k.hex ∧
      (¬ k.IsNumeral → loaded = others.map (withKey k.hex) ∧
        ∀ s, others = .ok s → ∃ s', loaded = .ok s' ∧ (s'.override o).admin.key = k.hex ∧
          Key.parse (s'.override o).admin.key = .ok k) ∧
      (k.IsNumeral → (∀ s, loaded ≠ .ok s) ∧
        ∀ s, others = .ok s → loaded = .error (.wrongType [sectionName, keyName])) := by
  intro loaded others
  have henvironment : o.environmentKey = some k.hex := by
    rw [lookup_keyVariable apart] at hwords
    obtain ⟨g, _, rfl⟩ := CommandLine.ofWords_node hwords
    rfl
  refine ⟨henvironment, fun hnumeral => ?_, load_numeral apart named keyless⟩
  have hloaded : loaded = others.map (withKey k.hex) := load_text apart named keyless hnumeral
  refine ⟨hloaded, fun s hothers => ⟨s.withKey k.hex, ?_, ?_⟩⟩
  · rw [hloaded, hothers]
    rfl
  · have hkey : ((s.withKey k.hex).override o).admin.key = k.hex := by
      rw [override_eq, hsilent]
      rfl
    rw [hkey]
    exact ⟨rfl, k.parse_hex⟩

/-- Its text has letters in it. -/
def letteredKey : Key := ⟨.replicate 32 0xab⟩

theorem named_absent : Source.absent.Named := by
  intro t part h
  cases h

theorem load_node : load [(addrVariable, "node:1"), ("HOME", "/root")] .absent =
    .ok ⟨⟨"node:1", "", ServerConfig.defaultMaxBodySize⟩⟩ := by
  have haddr : Environment.path? addrVariable = some ["admin", "addr"] := rfl
  have hhome : Environment.path? "HOME" = none := rfl
  have hnode : Environment.read "node:1" = .text "node:1" := rfl
  have htree : Environment.tree [(addrVariable, "node:1"), ("HOME", "/root")] =
      .table [("admin", .table [("addr", .text "node:1")])] := by
    simp only [Environment.tree, List.foldl_cons, List.foldl_nil, haddr, hhome, hnode]
    rfl
  have hmerge : default.tree.merge (.table [("admin", .table [("addr", .text "node:1")])]) =
      tree ⟨⟨"node:1", "", ServerConfig.defaultMaxBodySize⟩⟩ := rfl
  rw [load_eq rfl, htree, Option.elim_none, hmerge]
  exact ofTree_tree _

theorem lettered_key_loads : ¬ letteredKey.IsNumeral ∧ ∃ o s,
    Invocation.ofWords (some letteredKey.hex) ["node"] = .ok ⟨{}, .node o⟩ ∧
    load [(addrVariable, "node:1"), (keyVariable, letteredKey.hex), ("HOME", "/root")] .absent =
      .ok s ∧
    (s.override o).admin.key = letteredKey.hex ∧
    Key.parse (s.override o).admin.key = .ok letteredKey := by
  have hletters : ¬ letteredKey.IsNumeral := by
    rw [Key.IsNumeral, Key.hex, String.toList_ofList]
    decide
  have hapart : ∀ m ∈ [(addrVariable, "node:1")] ++ [("HOME", "/root")], Apart m.1 := by
    unfold Apart
    decide
  have hwords : Invocation.ofWords (some letteredKey.hex) ["node"] =
      .ok ⟨{}, .node ⟨none, none, none, none, some letteredKey.hex⟩⟩ := rfl
  obtain ⟨_, hloads, _⟩ := environment_key letteredKey hapart named_absent rfl hwords rfl
  obtain ⟨s, hs, hkey⟩ := (hloads hletters).2 _ load_node
  exact ⟨hletters, _, s, hwords, hs, hkey⟩

def zeroKey : Key := ⟨.replicate 32 0⟩

/-- No node starts with a key of zeros that stands in its environment. -/
theorem zero_key_refused : ∃ o, Invocation.ofWords (some zeroKey.hex) ["node"] = .ok ⟨{}, .node o⟩ ∧
    o.key = none ∧
    load [(keyVariable, zeroKey.hex)] .absent = .error (.wrongType [sectionName, keyName]) := by
  have hzeros : zeroKey.IsNumeral := by
    rw [Key.IsNumeral, Key.hex, String.toList_ofList]
    decide
  have hapart : ∀ m ∈ ([] ++ [] : List (String × String)), Apart m.1 := List.forall_mem_nil _
  have hothers : load [] .absent = .ok default := ofTree_tree default
  exact ⟨_, rfl, rfl, (load_numeral hapart named_absent rfl hzeros).2 _ hothers⟩

end AdminPlane.Settings
