import AdminPlane.Proofs.Json.Documents
import AdminPlane.Proofs.Json.Passing
import Mathlib.Data.List.Nodup

namespace AdminPlane.Json

open AdminPlane.Text AdminPlane.Text.Ascii

/-- The reader reads `x` from every text that says what the document says, and nothing of what
follows it. -/
def Accepts (defaults : List (String × Json)) (r : Reader α) (j : Json) (x : α) : Prop :=
  ∀ w text rest, Blank w → Says defaults j text → Follows rest →
    r (w ++ (text ++ rest)) = .ok (x, rest)

/-- Spaces in front of a value make no difference to its reader. -/
def Padded (r : Reader α) : Prop := ∀ w s, Blank w → r (w ++ s) = r s

theorem padded_onToken (f : Option UInt8 → Reader α) : Padded (peekToken >>= f) :=
  fun _ s hw => onToken_blank hw s

theorem padded_value (expected : String) (read : UInt8 → Option (Reader α)) :
    Padded (value expected read) :=
  padded_onToken _

theorem padded_bind {r : Reader α} (f : α → Reader β) (h : Padded r) : Padded (r >>= f) := by
  intro w s hw
  change (r (w ++ s) >>= fun p => f p.1 p.2) = (r s >>= fun p => f p.1 p.2)
  rw [h w s hw]

theorem padded_map {r : Reader α} (f : α → β) (h : Padded r) : Padded (f <$> r) :=
  padded_bind (fun x => pure (f x)) h

/-- Text of a document other than an array or an object has one form. -/
theorem accepts_scalar {defaults : List (String × Json)} {r : Reader α} {j : Json} {x : α}
    (hj : j.IsScalar) (hpad : Padded r) (h : Reads r j x) : Accepts defaults r j x := by
  intro w text rest hw hsay hrest
  rw [hpad w _ hw]
  cases hsay with
  | scalar _ => exact h rest hrest
  | array | object => exact hj.elim

theorem accepts_map {defaults : List (String × Json)} {r : Reader α} {j : Json} {x : α}
    (f : α → β) (h : Accepts defaults r j x) : Accepts defaults (f <$> r) j (f x) :=
  fun w text rest hw hsay hrest => map_of_ok f (h w text rest hw hsay hrest)

theorem Says.starts {defaults : List (String × Json)} {j : Json} {text : List UInt8}
    (h : Says defaults j text) :
    ∃ b u, text = b :: u ∧ isSpace b = false ∧ b ≠ closeBracket := by
  cases h with
  | scalar _ => exact compact_starts j
  | array | object => exact ⟨_, _, rfl, by decide, by decide⟩

/-- A member with nothing between its tokens. -/
def Entry.compact (m : String × Json) : Entry :=
  ⟨m.1, quote m.1, quote m.1 ++ [colon], m.2.compact, spelt_quote m.1,
    [], [], blank_nil, blank_nil, rfl⟩

theorem behind_itemsBehind (js : List Json) : Behind (js.map compact) (itemsBehind js) := by
  induction js with
  | nil => exact .nil blank_nil
  | cons j js ih => exact .cons blank_nil blank_nil ih

theorem laid_compactItems (js : List Json) : Laid (js.map compact) (compactItems js) := by
  cases js with
  | nil => exact .nil blank_nil
  | cons j js =>
    rw [compactItems_cons]
    exact .cons blank_nil (behind_itemsBehind js)

theorem behind_membersBehind (ms : List (String × Json)) :
    Behind ((ms.map Entry.compact).map Entry.text) (membersBehind ms) := by
  induction ms with
  | nil => exact .nil blank_nil
  | cons m ms ih =>
    have h : Behind ((Entry.compact m).text :: (ms.map Entry.compact).map Entry.text) _ :=
      .cons blank_nil blank_nil ih
    simpa [membersBehind, Entry.text, Entry.compact] using h

theorem laid_compactMembers (ms : List (String × Json)) :
    Laid ((ms.map Entry.compact).map Entry.text) (compactMembers ms) := by
  cases ms with
  | nil => exact .nil blank_nil
  | cons m ms =>
    obtain ⟨name, value⟩ := m
    have h : Laid ((Entry.compact (name, value)).text :: (ms.map Entry.compact).map Entry.text) _ :=
      .cons blank_nil (behind_membersBehind ms)
    simpa [compactMembers_cons, Entry.text, Entry.compact] using h

/-- A list says itself. -/
theorem says_array {defaults : List (String × Json)} {js : List Json}
    (h : ∀ j ∈ js, Says [] j j.compact) : Says defaults (.array js) (Json.array js).compact := by
  have hall : List.Forall₂ (Says []) js (js.map compact) := by
    rw [List.forall₂_map_right_iff, List.forall₂_same]
    exact h
  rw [compact]
  exact .array hall (laid_compactItems js)

/-- An object says itself, if no two of its members have one name. -/
theorem says_object {defaults ms : List (String × Json)} (hdistinct : (ms.map (·.1)).Nodup)
    (h : ms.Forall fun m => Says [] m.2 m.2.compact) :
    Says defaults (.object ms) (Json.object ms).compact := by
  have hnames : (ms.map Entry.compact).map (·.name) = ms.map (·.1) := by
    rw [List.map_map]
    rfl
  rw [compact]
  refine .object (fun e he j hj => ?_) (fun e he hunknown => ?_) ?_ (fun m hm => .inl ?_)
    (laid_compactMembers ms)
  · obtain ⟨m, hm, rfl⟩ := List.mem_map.mp he
    have hsame := List.inj_on_of_nodup_map hdistinct hm hj rfl
    rw [show j = m.2 from congrArg Prod.snd hsame.symm]
    exact List.forall_iff_forall_mem.mp h m hm
  · obtain ⟨m, hm, rfl⟩ := List.mem_map.mp he
    exact absurd (List.mem_map_of_mem hm) hunknown
  · rw [namesIn, hnames]
    exact hdistinct.filter _
  · rw [hnames]
    exact List.mem_map_of_mem hm

namespace List

variable {item : Reader α} {json : α → Json}

theorem nextItem_close {isFirst : Bool} {w : List UInt8} (hw : Blank w) (s : List UInt8) :
    nextItem isFirst (w ++ closeBracket :: s) = .ok (false, closeBracket :: s) := by
  rw [nextItem, onToken_blank hw]
  cases isFirst
  all_goals rfl

section NextItem

variable {w w' s : List UInt8} {b : UInt8} (hw : Blank w) (hb : isSpace b = false)
  (hclose : b ≠ closeBracket)
include hw hb hclose

theorem nextItem_first : nextItem true (w ++ b :: s) = .ok (true, b :: s) := by
  rw [nextItem, onToken_blank hw, bind_of_ok (peekToken_cons hb)]
  dsimp only
  rw [if_neg hclose]
  rfl

theorem nextItem_behind (hw' : Blank w') :
    nextItem false (w ++ comma :: (w' ++ b :: s)) = .ok (true, b :: s) := by
  rw [nextItem, onToken_blank hw, bind_of_ok (peekToken_cons (by decide))]
  dsimp only
  rw [if_neg (by decide), if_neg (by decide), if_pos rfl, bind_of_ok (advance_cons comma _),
    onToken_blank hw', bind_of_ok (peekToken_cons hb)]
  dsimp only
  rw [if_neg hclose]
  rfl

end NextItem

/-- One item and the rest of its list. -/
theorem items_cons {isFirst : Bool} {fuel : Nat} {x : α} {xs : List α} {s t u v : List UInt8}
    (hnext : nextItem isFirst s = .ok (true, t)) (hitem : item t = .ok (x, u))
    (hrest : items item fuel false u = .ok (xs, v)) :
    items item (fuel + 1) isFirst s = .ok (x :: xs, v) := by
  rw [items, bind_of_ok hnext, if_pos rfl, bind_of_ok hitem, bind_of_ok hrest]
  rfl

/-- The items behind the first one. -/
theorem items_said {xs : List α} {texts : List (List UInt8)} {t : List UInt8}
    (htexts : List.Forall₂ (Says []) (xs.map json) texts) (ht : Behind texts t)
    (hi : ∀ x ∈ xs, Accepts [] item (json x) x) (rest : List UInt8) :
    items item (xs.length + 1) false (t ++ closeBracket :: rest) =
      .ok (xs, closeBracket :: rest) := by
  induction ht generalizing xs with
  | nil hw =>
    rw [List.forall₂_nil_right_iff, List.map_eq_nil_iff] at htexts
    subst htexts
    rw [List.length_nil, items, bind_of_ok (nextItem_close hw rest)]
    rfl
  | @cons w w' text texts t hw hw' ht ih =>
    obtain ⟨j, js, hsay, hsaid, hxs⟩ := List.forall₂_cons_right_iff.mp htexts
    obtain ⟨x, xs, rfl, rfl, rfl⟩ := List.map_eq_cons_iff.mp hxs
    obtain ⟨b, u, htext, hspace, hclose⟩ := hsay.starts
    have hitem := hi x (.head _) [] text _ blank_nil hsay
      (follows_behind ht (follows_closeBracket rest))
    have hrest := ih hsaid fun y hy => hi y (.tail _ hy)
    have hnext : nextItem false (w ++ comma :: (w' ++ (text ++ (t ++ closeBracket :: rest)))) =
        .ok (true, text ++ (t ++ closeBracket :: rest)) := by
      rw [htext]
      exact nextItem_behind hw hspace hclose hw'
    simp only [List.append_assoc, List.cons_append]
    exact items_cons hnext hitem hrest

theorem length_le_behind {pieces : List (List UInt8)} {t : List UInt8} (h : Behind pieces t) :
    pieces.length ≤ t.length := by
  induction h with
  | nil => exact Nat.zero_le _
  | cons _ _ _ ih =>
    simp only [List.length_append, List.length_cons]
    omega

theorem items_laid {xs : List α} {texts : List (List UInt8)} {t : List UInt8}
    (htexts : List.Forall₂ (Says []) (xs.map json) texts) (ht : Laid texts t)
    (hi : ∀ x ∈ xs, Accepts [] item (json x) x) (rest : List UInt8) :
    ∃ fuel ≤ t.length + 1, items item fuel true (t ++ closeBracket :: rest) =
      .ok (xs, closeBracket :: rest) := by
  cases ht with
  | nil hw =>
    rw [List.forall₂_nil_right_iff, List.map_eq_nil_iff] at htexts
    subst htexts
    refine ⟨1, by omega, ?_⟩
    rw [items, bind_of_ok (nextItem_close hw rest)]
    rfl
  | @cons w text texts t hw ht =>
    obtain ⟨j, js, hsay, hsaid, hxs⟩ := List.forall₂_cons_right_iff.mp htexts
    obtain ⟨x, xs, rfl, rfl, rfl⟩ := List.map_eq_cons_iff.mp hxs
    obtain ⟨b, u, htext, hspace, hclose⟩ := hsay.starts
    have hitem := hi x (.head _) [] text _ blank_nil hsay
      (follows_behind ht (follows_closeBracket rest))
    have hrest := items_said hsaid ht (fun y hy => hi y (.tail _ hy)) rest
    have hnext : nextItem true (w ++ (text ++ (t ++ closeBracket :: rest))) =
        .ok (true, text ++ (t ++ closeBracket :: rest)) := by
      rw [htext]
      exact nextItem_first hw hspace hclose
    have hcount := length_le_behind ht
    have hsame := hsaid.length_eq
    refine ⟨xs.length + 2, ?_, ?_⟩
    · rw [List.length_map] at hsame
      simp only [htext, List.length_append, List.length_cons]
      omega
    · simp only [List.append_assoc]
      exact items_cons hnext hitem hrest

theorem accepts_list {defaults : List (String × Json)} {xs : List α}
    (hi : ∀ x ∈ xs, Accepts [] item (json x) x) :
    Accepts defaults (read item) (.array (xs.map json)) xs := by
  intro w text rest hw hsay _
  cases hsay with
  | scalar h => exact h.elim
  | @array _ _ texts t htexts ht =>
    obtain ⟨fuel, hle, hitems⟩ := items_laid htexts ht hi rest
    have hfuel : List.items item ((t ++ closeBracket :: rest).length + 1) true
        (t ++ closeBracket :: rest) = .ok (xs, closeBracket :: rest) := by
      refine within_le (r := fun n => List.items item n true)
        (fun n => within_items item n true) ?_ _ _ hitems
      rw [List.length_append]
      omega
    have hend : listEnd (closeBracket :: rest) = .ok ((), rest) := rfl
    rw [read, padded_value _ _ w _ hw, List.cons_append, List.append_assoc,
      List.singleton_append, value_cons (by decide) (if_pos rfl),
      bind_of_ok (advance_cons openBracket _)]
    refine (bind_of_ok (r := fun s => List.items item (s.length + 1) true s) hfuel).trans ?_
    exact bind_of_ok hend

end List

theorem Entry.starts (e : Entry) : ∃ u, e.text = Ascii.quote :: u := by
  obtain ⟨pieces, _, hkey⟩ := e.spelt
  obtain ⟨w, w', _, _, hhead⟩ := e.heads
  exact ⟨_, by rw [Entry.text, hhead, hkey]; rfl⟩

theorem nameEnd_colon {w : List UInt8} (hw : Blank w) (s : List UInt8) :
    nameEnd (w ++ colon :: s) = .ok ((), s) := by
  rw [nameEnd, onToken_blank hw, bind_of_ok (peekToken_cons (by decide))]
  rfl

/-- The name of a member and its colon are read, up to spaces that belong to the value. -/
theorem Entry.read_head (e : Entry) (s : List UInt8) :
    ∃ u w, Blank w ∧ Text.read (e.head ++ s) = .ok (e.name, u) ∧ nameEnd u = .ok ((), w ++ s) := by
  obtain ⟨w, w', hw, hw', hhead⟩ := e.heads
  refine ⟨w ++ colon :: (w' ++ s), w', hw', ?_, ?_⟩
  · rw [hhead]
    simp only [List.append_assoc, List.cons_append]
    exact Text.read_spelt e.spelt _
  · exact nameEnd_colon hw _

theorem reverse_namesIn_cons (members : List (String × Json)) (e : Entry) (entries : List Entry) :
    (namesIn members (e :: entries)).reverse =
      (namesIn members entries).reverse ++ namesIn members [e] := by
  by_cases h : e.name ∈ members.map (·.1)
  all_goals simp [namesIn, h]

namespace Member

variable {fields : List (Member σ)} {ms : List (String × Json)} {draft : List String → σ}

theorem nextMember_close {isFirst : Bool} {w : List UInt8} (hw : Blank w) (s : List UInt8) :
    nextMember isFirst (w ++ closeBrace :: s) = .ok (false, closeBrace :: s) := by
  rw [nextMember, onToken_blank hw]
  cases isFirst
  all_goals rfl

/-- What separates a member from those before it. -/
def Leads (isFirst : Bool) (lead : List UInt8) : Prop :=
  (isFirst = true ∧ lead = []) ∨ (isFirst = false ∧ ∃ w, Blank w ∧ lead = w ++ [comma])

theorem nextMember_leads {isFirst : Bool} {lead w : List UInt8} (h : Leads isFirst lead)
    (hw : Blank w) (s : List UInt8) :
    nextMember isFirst (lead ++ (w ++ Ascii.quote :: s)) = .ok (true, Ascii.quote :: s) := by
  rcases h with ⟨rfl, rfl⟩ | ⟨rfl, w', hw', rfl⟩
  · rw [List.nil_append, nextMember, onToken_blank hw]
    rfl
  · rw [List.append_assoc, List.singleton_append, nextMember, onToken_blank hw',
      bind_of_ok (peekToken_cons (by decide))]
    dsimp only
    rw [if_neg (by decide), if_neg (by decide), if_pos rfl, bind_of_ok (advance_cons comma _),
      onToken_blank hw]
    rfl

theorem nextMember_start {w : List UInt8} (hw : Blank w) (e : Entry) (s : List UInt8) :
    nextMember true (w ++ (e.text ++ s)) = .ok (true, e.text ++ s) := by
  obtain ⟨u, hu⟩ := e.starts
  rw [hu]
  exact nextMember_leads (.inl ⟨rfl, rfl⟩) hw _

theorem nextMember_behind {w w' : List UInt8} (hw : Blank w) (hw' : Blank w') (e : Entry)
    (s : List UInt8) :
    nextMember false (w ++ comma :: (w' ++ (e.text ++ s))) = .ok (true, e.text ++ s) := by
  obtain ⟨u, hu⟩ := e.starts
  have hnext := nextMember_leads (.inr ⟨rfl, w, hw, rfl⟩) hw' (u ++ s)
  rw [List.append_assoc, List.singleton_append] at hnext
  rw [hu]
  exact hnext

/-- The field takes the member, whichever others have come before it. -/
def Takes (draft : List String → σ) (field : Member σ) (m : String × Json) : Prop :=
  field.name = m.1 ∧ ∀ seen, m.1 ∉ seen → field.given (draft seen) = false ∧
    Accepts [] (field.read (draft seen)) m.2 (draft (m.1 :: seen))

/-- `draft seen` is the draft once the members `seen` have come, in whatever order: each field
takes one member of the document. -/
structure Assembles (fields : List (Member σ)) (ms : List (String × Json))
    (draft : List String → σ) : Prop where
  distinct : (ms.map (·.1)).Nodup
  takes : List.Forall₂ (Takes draft) fields ms

theorem Assembles.unknown (h : Assembles fields ms draft) {name : String}
    (hname : name ∉ ms.map (·.1)) : fields.find? (·.name = name) = none := by
  obtain ⟨-, htakes⟩ := h
  induction htakes with
  | nil => rfl
  | @cons field m fields ms hfield _ ih =>
    rw [List.map_cons, List.mem_cons, not_or] at hname
    rw [List.find?_cons_of_neg (by simpa [hfield.1] using Ne.symm hname.1)]
    exact ih hname.2

theorem Assembles.known (h : Assembles fields ms draft) {m : String × Json} (hm : m ∈ ms) :
    ∃ field, fields.find? (·.name = m.1) = some field ∧ Takes draft field m := by
  obtain ⟨hdistinct, htakes⟩ := h
  induction htakes with
  | nil => cases hm
  | @cons field m' fields ms hfield _ ih =>
    rw [List.map_cons, List.nodup_cons] at hdistinct
    rcases List.mem_cons.mp hm with rfl | hm
    · exact ⟨field, List.find?_cons_of_pos (by simpa using hfield.1), hfield⟩
    · have hne : m.1 ≠ m'.1 := fun he => hdistinct.1 (he ▸ List.mem_map_of_mem hm)
      rw [List.find?_cons_of_neg (by simpa [hfield.1] using hne.symm)]
      exact ih hm hdistinct.2

/-- One member, known or not, and the rest of its object. -/
theorem members_entry (h : Assembles fields ms draft) {e : Entry}
    (hknown : ∀ j, (e.name, j) ∈ ms → Says [] j e.value)
    (hunknown : e.name ∉ ms.map (·.1) → IsValue e.value) {isFirst : Bool} {fuel : Nat}
    {seen : List String} {s t : List UInt8} {y : σ × List UInt8}
    (hnew : (namesIn ms [e] ++ seen).Nodup)
    (hnext : nextMember isFirst s = .ok (true, e.text ++ t)) (ht : Follows t)
    (hrest : members fields fuel false (draft (namesIn ms [e] ++ seen)) t = .ok y) :
    members fields (fuel + 1) isFirst (draft seen) s = .ok y := by
  obtain ⟨u, w, hw, hname, hcolon⟩ := e.read_head (e.value ++ t)
  rw [Entry.text, List.append_assoc] at hnext
  rw [members, bind_of_ok hnext, if_pos rfl, bind_of_ok hname]
  by_cases hmem : e.name ∈ ms.map (·.1)
  · have htaken : namesIn ms [e] = [e.name] := by simp [namesIn, hmem]
    rw [htaken] at hnew hrest
    obtain ⟨m, hm, hmname⟩ := List.mem_map.mp hmem
    obtain ⟨field, hfield, _, htakes⟩ := h.known hm
    rw [hmname] at hfield htakes
    obtain ⟨hgiven, haccepts⟩ := htakes seen (List.nodup_cons.mp hnew).1
    rw [hfield]
    dsimp only
    rw [hgiven, if_neg (by decide), bind_of_ok hcolon,
      bind_of_ok (haccepts w e.value t hw (hknown m.2 (hmname ▸ hm)) ht)]
    exact hrest
  · have htaken : namesIn ms [e] = [] := by simp [namesIn, hmem]
    rw [htaken] at hrest
    rw [h.unknown hmem]
    dsimp only
    rw [bind_of_ok hcolon, bind_of_ok (Skip.any_value (hunknown hmem) hw ht)]
    exact hrest

/-- The members behind the first one. -/
theorem members_said (h : Assembles fields ms draft) {entries : List Entry} {t : List UInt8}
    (ht : Behind (entries.map Entry.text) t)
    (hknown : ∀ e ∈ entries, ∀ j, (e.name, j) ∈ ms → Says [] j e.value)
    (hunknown : ∀ e ∈ entries, e.name ∉ ms.map (·.1) → IsValue e.value) {seen : List String}
    (hnew : ((namesIn ms entries).reverse ++ seen).Nodup) (rest : List UInt8) :
    members fields (entries.length + 1) false (draft seen) (t ++ closeBrace :: rest) =
      .ok (draft ((namesIn ms entries).reverse ++ seen), closeBrace :: rest) := by
  induction entries generalizing t seen with
  | nil =>
    cases ht with
    | nil hw =>
      rw [List.length_nil, members, bind_of_ok (nextMember_close hw rest)]
      rfl
  | cons e entries ih =>
    cases ht with
    | @cons w w' _ _ t hw hw' ht =>
      rw [reverse_namesIn_cons, List.append_assoc] at hnew ⊢
      have hrest := ih ht (fun e' he => hknown e' (.tail _ he))
        (fun e' he => hunknown e' (.tail _ he)) hnew
      simp only [List.append_assoc, List.cons_append]
      exact members_entry h (hknown e (.head _)) (hunknown e (.head _))
        (List.nodup_append.mp hnew).2.1 (nextMember_behind hw hw' e _)
        (follows_behind ht (follows_closeBrace rest)) hrest

theorem members_laid (h : Assembles fields ms draft) {entries : List Entry} {t : List UInt8}
    (ht : Laid (entries.map Entry.text) t)
    (hknown : ∀ e ∈ entries, ∀ j, (e.name, j) ∈ ms → Says [] j e.value)
    (hunknown : ∀ e ∈ entries, e.name ∉ ms.map (·.1) → IsValue e.value)
    (hnew : (namesIn ms entries).Nodup) (rest : List UInt8) :
    ∃ fuel ≤ t.length + 1, members fields fuel true (draft []) (t ++ closeBrace :: rest) =
      .ok (draft (namesIn ms entries).reverse, closeBrace :: rest) := by
  cases entries with
  | nil =>
    cases ht with
    | nil hw =>
      refine ⟨1, by omega, ?_⟩
      rw [members, bind_of_ok (nextMember_close hw rest)]
      rfl
  | cons e entries =>
    cases ht with
    | @cons w _ _ t hw ht =>
      have hnew' := List.nodup_reverse.mpr hnew
      rw [← List.append_nil (List.reverse _), reverse_namesIn_cons, List.append_assoc] at hnew' ⊢
      have hrest := members_said h ht (fun e' he => hknown e' (.tail _ he))
        (fun e' he => hunknown e' (.tail _ he)) hnew' rest
      have hcount := List.length_le_behind ht
      rw [List.length_map] at hcount
      refine ⟨entries.length + 2, ?_, ?_⟩
      · obtain ⟨u, hu⟩ := e.starts
        simp only [hu, List.length_append, List.length_cons]
        omega
      · simp only [List.append_assoc]
        exact members_entry h (hknown e (.head _)) (hunknown e (.head _))
          (List.nodup_append.mp hnew').2.1 (nextMember_start hw e _)
          (follows_behind ht (follows_closeBrace rest)) hrest

/-- A record is read from every text of its document, if it can be completed from all drafts that
lack no more than members at their default. -/
theorem accepts_record {defaults : List (String × Json)} {start : σ}
    {finish : σ → Except String α} {x : α} (name : String) (h : Assembles fields ms draft)
    (hstart : draft [] = start)
    (hfinish : ∀ seen, (∀ m ∈ ms, m.1 ∈ seen ∨ m ∈ defaults) → finish (draft seen) = .ok x) :
    Accepts defaults (readRecord name fields start finish) (.object ms) x := by
  intro w text rest hw hsay _
  cases hsay with
  | scalar h => exact h.elim
  | @object _ _ entries t hknown hunknown honce hall ht =>
    obtain ⟨fuel, hle, hmembers⟩ := members_laid h ht hknown hunknown honce rest
    have hfuel : members fields ((t ++ closeBrace :: rest).length + 1) true (draft [])
        (t ++ closeBrace :: rest) =
          .ok (draft (namesIn ms entries).reverse, closeBrace :: rest) := by
      refine within_le (r := fun n => members fields n true (draft []))
        (fun n => within_members fields n true (draft [])) ?_ _ _ hmembers
      rw [List.length_append]
      omega
    have hx : finish (draft (namesIn ms entries).reverse) = .ok x := by
      refine hfinish _ fun m hm => (hall m hm).imp_left fun hwritten => ?_
      rw [List.mem_reverse, namesIn, List.mem_filter, decide_eq_true_eq]
      exact ⟨hwritten, List.mem_map_of_mem hm⟩
    rw [hstart] at hfuel
    rw [readRecord, padded_value _ _ w _ hw, List.cons_append, List.append_assoc,
      List.singleton_append, value_cons (by decide) ((if_neg (by decide)).trans (if_pos rfl)),
      bind_of_ok (advance_cons _ _)]
    refine (bind_of_ok (r := fun s => members fields (s.length + 1) true start s) hfuel).trans ?_
    rw [bind_of_ok (advance_cons _ _)]
    dsimp only
    rw [hx]
    rfl

end Member

theorem accepts_string {defaults : List (String × Json)} (s : String) :
    Accepts defaults Reader.string (.string s) s :=
  accepts_scalar trivial (padded_value _ _) (reads_string s)

theorem accepts_boolean {defaults : List (String × Json)} (b : Bool) :
    Accepts defaults Reader.boolean (.bool b) b :=
  accepts_scalar trivial (padded_value _ _) (reads_boolean b)

theorem accepts_integer {defaults : List (String × Json)} {expected : String}
    {narrow : Int → Option α} {i : Int} {x : α}
    (h : Reads (Reader.integer expected narrow) (.integer i) x) :
    Accepts defaults (Reader.integer expected narrow) (.integer i) x :=
  accepts_scalar trivial (padded_value _ _) h

theorem accepts_variant {defaults : List (String × Json)} {variants : List (String × α)}
    {name : String} {x : α} (h : variants.find? (·.1 = name) = some (name, x)) :
    Accepts defaults (Variant.read variants) (.string name) x :=
  accepts_scalar trivial (padded_onToken _) (reads_variant h)

theorem accepts_null {defaults : List (String × Json)} (r : Reader α) :
    Accepts defaults (Reader.nullable r) .null none :=
  accepts_scalar trivial (padded_onToken _) (reads_null r)

/-- An object is no `null`. -/
theorem accepts_some {defaults : List (String × Json)} {r : Reader α} {ms : List (String × Json)}
    {x : α} (h : Accepts defaults r (.object ms) x) :
    Accepts defaults (Reader.nullable r) (.object ms) (some x) := by
  intro w text rest hw hsay hrest
  have hread := h [] text rest blank_nil hsay hrest
  have hbrace : ∃ u, text = openBrace :: u := by
    cases hsay with
    | scalar h => exact h.elim
    | object => exact ⟨_, rfl⟩
  obtain ⟨u, rfl⟩ := hbrace
  rw [Reader.nullable, onToken_blank hw, List.cons_append, bind_of_ok (peekToken_cons (by decide)),
    if_neg (by decide)]
  exact map_of_ok some hread

end AdminPlane.Json
