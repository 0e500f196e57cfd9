import AdminPlane.Client.Basic
import AdminPlane.Proofs.Json.Members
import AdminPlane.Proofs.Payload.RoundTrip

namespace AdminPlane

open AdminPlane.Json AdminPlane.Text AdminPlane.Text.Ascii
open Payload (field require)

namespace ErrorBody

def errorField : Member (Option String) :=
  field "Error" id Json.Reader.string (fun _ x => some x) false

/-- There is no other field. -/
def fields : List (Member (Option String)) := [errorField]

/-- What a member makes of the error that has been found before it. -/
inductive Gets : Option String → Entry → Option String → Prop
  | error {m : String} {e : Entry} (hname : e.name = "Error") (hvalue : Spelt m e.value) :
      Gets none e (some m)
  | other {found : Option String} {e : Entry} (hname : e.name ≠ "Error")
      (hvalue : IsValue e.value) : Gets found e found

/-- What members one after another make of it. -/
inductive Collects : Option String → List Entry → Option String → Prop
  | nil (found : Option String) : Collects found [] found
  | cons {a b c : Option String} {e : Entry} {entries : List Entry} (he : Gets a e b)
      (h : Collects b entries c) : Collects a (e :: entries) c

/-- The texts of an error: an object with one member for it, among others of any value, or a list of
nothing but the error. -/
inductive Writes (m : String) : List UInt8 → Prop
  | object {t : List UInt8} {before after : List Entry} {e : Entry} (hname : e.name = "Error")
      (hvalue : Spelt m e.value)
      (hothers : ∀ o ∈ before ++ after, o.name ≠ "Error" ∧ IsValue o.value)
      (ht : Laid ((before ++ e :: after).map Entry.text) t) :
      Writes m (openBrace :: (t ++ [closeBrace]))
  | list {left right v : List UInt8} (hleft : Blank left) (hright : Blank right)
      (hv : Spelt m v) : Writes m (openBracket :: (left ++ (v ++ (right ++ [closeBracket]))))

/-- Nothing but spaces stands around the text. -/
def IsText (m : String) (body : List UInt8) : Prop :=
  ∃ w v w', Blank w ∧ Writes m v ∧ Blank w' ∧ body = w ++ (v ++ w')

theorem Collects.found {m : String} {found : Option String} {entries : List Entry}
    (h : Collects (some m) entries found) :
    found = some m ∧ ∀ o ∈ entries, o.name ≠ "Error" ∧ IsValue o.value := by
  generalize hm : some m = a at h
  induction h with
  | nil => exact ⟨rfl, nofun⟩
  | cons he _ ih =>
    cases he with
    | error => cases hm
    | other hname hvalue =>
      obtain ⟨hfound, hrest⟩ := ih hm
      exact ⟨hfound, List.forall_mem_cons.mpr ⟨⟨hname, hvalue⟩, hrest⟩⟩

theorem Collects.split {m : String} {entries : List Entry} (h : Collects none entries (some m)) :
    ∃ before e after, entries = before ++ e :: after ∧ e.name = "Error" ∧ Spelt m e.value ∧
      ∀ o ∈ before ++ after, o.name ≠ "Error" ∧ IsValue o.value := by
  generalize hnone : none = a, hm : some m = c at h
  induction h with
  | nil =>
    subst hnone
    cases hm
  | @cons a b c e entries he hrest ih =>
    cases he with
    | error hname hvalue =>
      subst hm
      obtain ⟨hsame, hothers⟩ := hrest.found
      cases hsame
      exact ⟨[], e, entries, rfl, hname, hvalue, hothers⟩
    | other hname hvalue =>
      obtain ⟨before, e', after, rfl, he', hspelt, hothers⟩ := ih hnone hm
      exact ⟨e :: before, e', after, rfl, he', hspelt,
        List.forall_mem_cons.mpr ⟨⟨hname, hvalue⟩, hothers⟩⟩

theorem collects_others {found found' : Option String} {before entries : List Entry}
    (h : ∀ o ∈ before, o.name ≠ "Error" ∧ IsValue o.value) (hrest : Collects found entries found') :
    Collects found (before ++ entries) found' := by
  induction before with
  | nil => exact hrest
  | cons o before ih =>
    obtain ⟨⟨hname, hvalue⟩, hbefore⟩ := List.forall_mem_cons.mp h
    exact .cons (.other hname hvalue) (ih hbefore)

theorem collects_split {m : String} {before after : List Entry} {e : Entry}
    (hname : e.name = "Error") (hvalue : Spelt m e.value)
    (hothers : ∀ o ∈ before ++ after, o.name ≠ "Error" ∧ IsValue o.value) :
    Collects none (before ++ e :: after) (some m) := by
  have hafter := collects_others (fun o ho => hothers o (List.mem_append_right _ ho))
    (.nil (some m))
  rw [List.append_nil] at hafter
  exact collects_others (fun o ho => hothers o (List.mem_append_left _ ho))
    (.cons (.error hname hvalue) hafter)

theorem find?_error : fields.find? (·.name = "Error") = some errorField := rfl

theorem find?_other {name : String} (h : name ≠ "Error") :
    fields.find? (·.name = name) = none :=
  List.find?_cons_of_neg fun hsame => h (of_decide_eq_true hsame).symm

section Member

variable {key s t : List UInt8} {next : Option String → Reader (Option String)}
  {found found' : Option String}

theorem error_taken (hkey : Spelt "Error" key)
    (h : (nameEnd >>= fun _ => errorField.read none >>= next) s = .ok (found', t)) :
    ∃ e u found₁, Gets none e found₁ ∧ key ++ s = e.text ++ u ∧
      next found₁ u = .ok (found', t) := by
  obtain ⟨_, v, hend, hrest⟩ := bind_eq_ok h
  obtain ⟨found₁, u, hread, hnext⟩ := bind_eq_ok hrest
  obtain ⟨m, u', hm, hfound⟩ := bind_eq_ok (f := fun m => pure (some m)) hread
  obtain ⟨rfl, rfl⟩ := Prod.mk.inj (pure_eq_ok hfound)
  obtain ⟨w, hw, rfl⟩ := nameEnd_taken hend
  obtain ⟨w', value, hw', hvalue, rfl⟩ := string_taken hm
  obtain ⟨e, hname, rfl, htext⟩ := exists_entry hkey hw hw' value
  refine ⟨e, u', some m, .error hname hvalue, ?_, hnext⟩
  rw [htext]
  simp only [List.append_assoc, List.cons_append]

theorem other_taken {name : String} (hname : name ≠ "Error") (hkey : Spelt name key)
    (h : (nameEnd >>= fun _ => Skip.any >>= fun _ => next found) s = .ok (found', t)) :
    ∃ e u found₁, Gets found e found₁ ∧ key ++ s = e.text ++ u ∧
      next found₁ u = .ok (found', t) := by
  obtain ⟨_, v, hend, hrest⟩ := bind_eq_ok h
  obtain ⟨_, u, hany, hnext⟩ := bind_eq_ok hrest
  obtain ⟨w, hw, rfl⟩ := nameEnd_taken hend
  obtain ⟨w', value, hw', hvalue, rfl⟩ := Skip.any_taken hany
  obtain ⟨e, rfl, rfl, htext⟩ := exists_entry hkey hw hw' value
  refine ⟨e, u, found, .other hname hvalue, ?_, hnext⟩
  rw [htext]
  simp only [List.append_assoc, List.cons_append]

end Member

theorem members_taken {fuel : Nat} {isFirst : Bool} {found found' : Option String}
    {s t : List UInt8} (h : Member.members fields fuel isFirst found s = .ok (found', t)) :
    ∃ entries text u, Collects found entries found' ∧ Framed isFirst entries text ∧
      t = closeBrace :: u ∧ s = text ++ t := by
  -- Each step takes one member; what the members before it gave goes into the next as `found`.
  induction fuel generalizing isFirst found s with
  | zero => cases h
  | succ fuel ih =>
    obtain ⟨another, v, hnext, hrest⟩ := bind_eq_ok h
    rcases nextMember_taken hnext with ⟨rfl, w, u, hw, rfl, rfl⟩ |
      ⟨rfl, lead, w, u, hlead, hw, rfl, rfl⟩
    · cases hrest
      exact ⟨[], w, u, .nil _, framed_nil isFirst hw, rfl, rfl⟩
    · rw [if_pos rfl] at hrest
      obtain ⟨name, v, hread, hmember⟩ := bind_eq_ok hrest
      obtain ⟨key, hkey, hu⟩ := Text.read_taken hread
      have htaken : ∃ e v' found₁, Gets found e found₁ ∧ key ++ v = e.text ++ v' ∧
          Member.members fields fuel false found₁ v' = .ok (found', t) := by
        by_cases hname : name = "Error"
        · subst hname
          rw [find?_error] at hmember
          cases found with
          | some m => exact absurd hmember (Member.fails_failDuplicate "Error" _ _)
          | none => exact error_taken hkey hmember
        · rw [find?_other hname] at hmember
          exact other_taken hname hkey hmember
      obtain ⟨e, v', found₁, hgets, htext, hlater⟩ := htaken
      obtain ⟨entries, text, u', hcollects, hframed, rfl, rfl⟩ := ih hlater
      refine ⟨e :: entries, _, u', .cons hgets hcollects, framed_cons hlead hw e hframed, rfl, ?_⟩
      rw [hu, htext]
      simp only [List.append_assoc]

def complete (found : Option String) : Except String ErrorBody := do
  return ⟨← require "Error" found⟩

theorem read_eq : (Payload.read : Reader ErrorBody) =
    Member.readRecord "ErrorBody" fields none complete := rfl

/-- One error at its start is all that a list may hold. -/
theorem inOrder_taken {expected : String} {s t : List UInt8} {found : Option String}
    (h : Member.inOrder expected fields 0 none s = .ok (found, t)) :
    ∃ left v m, Blank left ∧ Spelt m v ∧ found = some m ∧ s = left ++ (v ++ t) := by
  obtain ⟨another, u, hnext, hrest⟩ := bind_eq_ok h
  cases another with
  | false =>
    obtain ⟨_, v, _, hfail⟩ := bind_eq_ok (r := advance) hrest
    cases hfail
  | true =>
    rw [if_pos rfl] at hrest
    obtain ⟨found₁, u', hread, hend⟩ := bind_eq_ok hrest
    obtain ⟨rfl, rfl⟩ := Prod.mk.inj (pure_eq_ok hend)
    obtain ⟨m, v, hm, hfound⟩ := bind_eq_ok (f := fun m => pure (some m)) hread
    obtain ⟨rfl, rfl⟩ := Prod.mk.inj (pure_eq_ok hfound)
    obtain ⟨w, hw, rfl⟩ := nextItem_taken hnext
    obtain ⟨w', v', hw', hv', rfl⟩ := string_taken hm
    have hleft : Blank (w ++ w') := fun c hc => (List.mem_append.mp hc).elim (hw c) (hw' c)
    exact ⟨w ++ w', v', m, hleft, hv', rfl, (List.append_assoc _ _ _).symm⟩

theorem complete_eq_ok {found : Option String} {e : ErrorBody} (h : complete found = .ok e) :
    found = some e.error := by
  cases found with
  | none => cases h
  | some m =>
    cases h
    rfl

theorem read_taken {s t : List UInt8} {e : ErrorBody}
    (h : (Payload.read : Reader ErrorBody) s = .ok (e, t)) :
    ∃ w v, Blank w ∧ Writes e.error v ∧ s = w ++ (v ++ t) := by
  rw [read_eq] at h
  obtain ⟨w, u, v, found, hw, hcomplete, hlist | hobject⟩ := Member.readRecord_taken h
  · obtain ⟨expected, rfl, hitems, hend⟩ := hlist
    obtain ⟨left, text, m, hleft, htext, rfl, rfl⟩ := inOrder_taken hitems
    obtain ⟨right, hright, rfl⟩ := listEnd_taken hend
    cases complete_eq_ok hcomplete
    refine ⟨w, _, hw, .list hleft hright htext, ?_⟩
    simp only [List.append_assoc, List.cons_append, List.nil_append]
  · obtain ⟨fuel, rfl, hmembers, rfl⟩ := hobject
    obtain ⟨entries, text, u', hcollects, hframed, rfl, rfl⟩ := members_taken hmembers
    rw [complete_eq_ok hcomplete] at hcollects
    obtain ⟨before, e', after, rfl, hname, hvalue, hothers⟩ := hcollects.split
    refine ⟨w, _, hw, .object hname hvalue hothers hframed, ?_⟩
    simp only [List.append_assoc, List.cons_append, List.nil_append, List.tail_cons]

/-- One member, and the rest of its object. -/
theorem members_gets {isFirst : Bool} {fuel : Nat} {found found' : Option String} {e : Entry}
    {s t : List UInt8} {y : Option String × List UInt8} (hgets : Gets found e found')
    (hnext : nextMember isFirst s = .ok (true, e.text ++ t)) (ht : Follows t)
    (hrest : Member.members fields fuel false found' t = .ok y) :
    Member.members fields (fuel + 1) isFirst found s = .ok y := by
  obtain ⟨u, w, hw, hname, hcolon⟩ := e.read_head (e.value ++ t)
  rw [Entry.text, List.append_assoc] at hnext
  rw [Member.members, bind_of_ok hnext, if_pos rfl, bind_of_ok hname]
  cases hgets with
  | @error m e herror hvalue =>
    have hread : errorField.read none (w ++ (e.value ++ t)) = .ok (some m, t) := by
      refine map_of_ok _ ?_
      rw [Json.Reader.string, padded_value _ _ w _ hw]
      exact string_spelt hvalue t
    rw [herror, find?_error]
    dsimp only
    rw [if_neg (by decide), bind_of_ok hcolon, bind_of_ok hread]
    exact hrest
  | other hother hvalue =>
    rw [find?_other hother]
    dsimp only
    rw [bind_of_ok hcolon, bind_of_ok (Skip.any_value hvalue hw ht)]
    exact hrest

theorem members_behind {found found' : Option String} {entries : List Entry} {t : List UInt8}
    (h : Collects found entries found') (ht : Behind (entries.map Entry.text) t)
    (rest : List UInt8) :
    Member.members fields (entries.length + 1) false found (t ++ closeBrace :: rest) =
      .ok (found', closeBrace :: rest) := by
  induction h generalizing t with
  | nil =>
    cases ht with
    | nil hw =>
      rw [List.length_nil, Member.members, bind_of_ok (Member.nextMember_close hw rest)]
      rfl
  | @cons a b c e entries he h ih =>
    cases ht with
    | @cons w w' _ _ t hw hw' ht =>
      simp only [List.append_assoc, List.cons_append]
      exact members_gets he (Member.nextMember_behind hw hw' e _)
        (follows_behind ht (follows_closeBrace rest)) (ih ht)

theorem members_laid {found : Option String} {entries : List Entry} {t : List UInt8}
    (h : Collects none entries found) (ht : Laid (entries.map Entry.text) t) (rest : List UInt8) :
    Member.members fields ((t ++ closeBrace :: rest).length + 1) true none
      (t ++ closeBrace :: rest) = .ok (found, closeBrace :: rest) := by
  have hfuel : ∃ fuel ≤ t.length + 1, Member.members fields fuel true none
      (t ++ closeBrace :: rest) = .ok (found, closeBrace :: rest) := by
    cases h with
    | nil =>
      cases ht with
      | nil hw =>
        refine ⟨1, by omega, ?_⟩
        rw [Member.members, bind_of_ok (Member.nextMember_close hw rest)]
        rfl
    | @cons _ b _ e entries he h =>
      cases ht with
      | @cons w _ _ t hw ht =>
        have hcount := List.length_le_behind ht
        rw [List.length_map] at hcount
        refine ⟨entries.length + 2, ?_, ?_⟩
        · obtain ⟨u, hu⟩ := e.starts
          simp only [hu, List.length_append, List.length_cons]
          omega
        · simp only [List.append_assoc]
          exact members_gets he (Member.nextMember_start hw e _)
            (follows_behind ht (follows_closeBrace rest)) (members_behind h ht rest)
  obtain ⟨fuel, hle, hmembers⟩ := hfuel
  refine within_le (r := fun n => Member.members fields n true none)
    (fun n => Member.within_members fields n true none) ?_ _ _ hmembers
  rw [List.length_append]
  omega

theorem read_writes {m : String} {w v : List UInt8} (h : Writes m v) (hw : Blank w)
    (rest : List UInt8) :
    (Payload.read : Reader ErrorBody) (w ++ (v ++ rest)) = .ok (⟨m⟩, rest) := by
  rw [read_eq, Member.readRecord, padded_value _ _ w _ hw]
  cases h with
  | object hname hvalue hothers ht =>
    have hmembers := members_laid (collects_split hname hvalue hothers) ht rest
    rw [List.cons_append, List.append_assoc, List.singleton_append,
      value_cons (by decide) ((if_neg (by decide)).trans (if_pos rfl)),
      bind_of_ok (advance_cons _ _)]
    refine (bind_of_ok (r := fun s => Member.members fields (s.length + 1) true none s)
      hmembers).trans ?_
    rw [bind_of_ok (advance_cons _ _)]
    rfl
  | @list left right v hleft hright hv =>
    have hitem : errorField.read none (v ++ (right ++ closeBracket :: rest)) =
        .ok (some m, right ++ closeBracket :: rest) :=
      map_of_ok some (string_spelt hv _)
    have hmore : nextItem true (left ++ (v ++ (right ++ closeBracket :: rest))) =
        .ok (true, v ++ (right ++ closeBracket :: rest)) := by
      obtain ⟨pieces, _, rfl⟩ := hv
      exact Json.List.nextItem_first hleft (by decide) (by decide)
    have hitems (expected : String) : Member.inOrder expected fields 0 none
        (left ++ (v ++ (right ++ closeBracket :: rest))) =
          .ok (some m, right ++ closeBracket :: rest) := by
      rw [fields, Member.inOrder]
      refine (bind_of_ok (r := nextItem true) hmore).trans ?_
      rw [if_pos rfl, bind_of_ok hitem]
      rfl
    have hend : listEnd (right ++ closeBracket :: rest) = .ok ((), rest) := by
      rw [listEnd, onToken_blank hright]
      rfl
    simp only [List.cons_append, List.append_assoc, List.nil_append]
    rw [value_cons (by decide) (if_pos rfl), bind_of_ok (advance_cons _ _), bind_of_ok (hitems _),
      bind_of_ok hend]
    rfl

theorem decode_eq_ok_iff {m : String} {body : List UInt8} :
    Payload.decode ErrorBody body = .ok ⟨m⟩ ↔ IsText m body := by
  constructor
  · intro h
    rw [Payload.decode, Json.decode] at h
    cases hdocument : document (Payload.read : Reader ErrorBody) body with
    | error fault =>
      rw [hdocument] at h
      cases h
    | ok y =>
      obtain ⟨e, rest⟩ := y
      rw [hdocument] at h
      cases h
      obtain ⟨w', hread, hw'⟩ := document_taken hdocument
      obtain ⟨w, v, hw, hv, rfl⟩ := read_taken hread
      exact ⟨w, v, w', hw, hv, hw', rfl⟩
  · rintro ⟨w, v, w', hw, hv, hw', rfl⟩
    exact Payload.decode_blank (read_writes hv hw w')
      ((Payload.isBlank_iff w').mpr (List.dropWhile_eq_nil_iff.mpr hw'))

end ErrorBody

end AdminPlane
