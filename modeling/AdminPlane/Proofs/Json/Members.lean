import AdminPlane.Proofs.Json.Loose
import AdminPlane.Proofs.Json.Spelled

/-!
What the readers of records have taken: the members of an object with what stands between them, or
the items of a list.
-/

namespace AdminPlane.Json

open AdminPlane.Text AdminPlane.Text.Ascii

/-- Members with what stands between them, behind a member or from the start of the object on. -/
def Framed (isFirst : Bool) (entries : List Entry) (t : List UInt8) : Prop :=
  if isFirst = true then Laid (entries.map Entry.text) t else Behind (entries.map Entry.text) t

theorem framed_nil (isFirst : Bool) {w : List UInt8} (hw : Blank w) : Framed isFirst [] w := by
  unfold Framed
  split
  · exact .nil hw
  · exact .nil hw

theorem framed_cons {isFirst : Bool} {lead w t : List UInt8} {entries : List Entry}
    (hlead : Member.Leads isFirst lead) (hw : Blank w) (e : Entry)
    (ht : Framed false entries t) : Framed isFirst (e :: entries) (lead ++ (w ++ (e.text ++ t))) := by
  have ht : Behind (entries.map Entry.text) t := ht
  rcases hlead with ⟨rfl, rfl⟩ | ⟨rfl, w', hw', rfl⟩
  · exact Laid.cons hw ht
  · rw [List.append_assoc, List.singleton_append]
    exact Behind.cons hw' hw ht

/-- A key with its colon, and the value behind them. -/
theorem exists_entry {name : String} {key w w' : List UInt8} (hkey : Spelt name key)
    (hw : Blank w) (hw' : Blank w') (value : List UInt8) : ∃ e : Entry, e.name = name ∧
      e.value = value ∧ e.text = key ++ (w ++ colon :: (w' ++ value)) := by
  refine ⟨⟨name, key, key ++ (w ++ colon :: w'), value, hkey, w, w', hw, hw', rfl⟩, rfl, rfl, ?_⟩
  simp only [Entry.text, List.append_assoc, List.cons_append]

theorem nextMember_taken {isFirst another : Bool} {s t : List UInt8}
    (h : nextMember isFirst s = .ok (another, t)) :
    (another = false ∧ ∃ w u, Blank w ∧ t = closeBrace :: u ∧ s = w ++ t) ∨
      (another = true ∧ ∃ lead w u, Member.Leads isFirst lead ∧ Blank w ∧ t = Ascii.quote :: u ∧
        s = lead ++ (w ++ t)) := by
  obtain ⟨w, b, s, hw, _, rfl, hstep⟩ := onToken_taken (fails_failNext _) h
  dsimp only at hstep
  split at hstep
  · rename_i hb
    cases hstep
    exact .inl ⟨rfl, w, s, hw, by rw [hb], rfl⟩
  · refine .inr ?_
    split at hstep
    · rename_i hfirst
      split at hstep
      · rename_i hb
        cases hstep
        exact ⟨rfl, [], w, s, .inl ⟨hfirst, rfl⟩, hw, by rw [hb], rfl⟩
      · cases hstep
    · rename_i hfirst
      have hfirst : isFirst = false := by simpa using hfirst
      split at hstep
      · rename_i hb
        rw [bind_of_ok (advance_cons b s)] at hstep
        obtain ⟨w', c, u, hw', _, rfl, hnext⟩ := onToken_taken (fails_failNext _) hstep
        dsimp only at hnext
        split at hnext
        · rename_i hc
          cases hnext
          refine ⟨rfl, w ++ [comma], w', u, .inr ⟨hfirst, w, hw, rfl⟩, hw', by rw [hc], ?_⟩
          rw [hb, List.append_assoc, List.singleton_append]
        · split at hnext
          · cases hnext
          · cases hnext
      · cases hstep

theorem nameEnd_taken {s t : List UInt8} (h : nameEnd s = .ok ((), t)) :
    ∃ w, Blank w ∧ s = w ++ colon :: t := by
  obtain ⟨w, b, s, hw, _, rfl, hstep⟩ := onToken_taken (fails_failNext _) h
  dsimp only at hstep
  split at hstep
  · rename_i hb
    cases hstep
    exact ⟨w, hw, by rw [hb, List.tail_cons]⟩
  · cases hstep

theorem nextItem_taken {s t : List UInt8} (h : nextItem true s = .ok (true, t)) :
    ∃ w, Blank w ∧ s = w ++ t := by
  obtain ⟨w, b, s, hw, _, rfl, hstep⟩ := onToken_taken (fails_failNext _) h
  dsimp only at hstep
  split at hstep
  · cases hstep
  · cases hstep
    exact ⟨w, hw, rfl⟩

theorem listEnd_taken {s t : List UInt8} (h : listEnd s = .ok ((), t)) :
    ∃ w, Blank w ∧ s = w ++ closeBracket :: t := by
  obtain ⟨w, b, s, hw, _, rfl, hstep⟩ := onToken_taken (fails_failNext _) h
  dsimp only at hstep
  split at hstep
  · rename_i hb
    cases hstep
    exact ⟨w, hw, by rw [hb, List.tail_cons]⟩
  · split at hstep
    · exact absurd hstep (fails_bind (fun _ => fails_bind fun _ =>
        fails_ite (fails_failNext _) (fails_failNext _)) _ _)
    · cases hstep

theorem Member.complete_taken {finish : σ → Except String α} {draft : σ} {s t : List UInt8} {x : α}
    (h : (match finish draft with
      | .ok x => pure x
      | .error missing => fail (.missingField missing) : Reader α) s = .ok (x, t)) :
    finish draft = .ok x ∧ s = t := by
  cases hdraft : finish draft with
  | error missing =>
    rw [hdraft] at h
    cases h
  | ok y =>
    rw [hdraft] at h
    obtain ⟨rfl, rfl⟩ := Prod.mk.inj (pure_eq_ok h)
    exact ⟨rfl, rfl⟩

/-- A record is taken from a list or from an object, and what was taken completes it. -/
theorem Member.readRecord_taken {name : String} {fields : List (Member σ)} {start : σ}
    {finish : σ → Except String α} {s t : List UInt8} {x : α}
    (h : readRecord name fields start finish s = .ok (x, t)) :
    ∃ w u v draft, Blank w ∧ finish draft = .ok x ∧
      ((∃ expected, s = w ++ openBracket :: u ∧
          inOrder expected fields 0 start u = .ok (draft, v) ∧ listEnd v = .ok ((), t)) ∨
        ∃ fuel, s = w ++ openBrace :: u ∧ members fields fuel true start u = .ok (draft, v) ∧
          t = v.tail) := by
  obtain ⟨w, b, s, hw, _, rfl, hstep⟩ := onToken_taken (fails_failNext _) h
  dsimp only at hstep
  split at hstep
  · rename_i hb
    rw [Option.getD_some, bind_of_ok (advance_cons b s)] at hstep
    obtain ⟨draft, v, hlist, hrest⟩ := bind_eq_ok hstep
    obtain ⟨_, v', hend, hfinish⟩ := bind_eq_ok hrest
    obtain ⟨hdraft, rfl⟩ := complete_taken hfinish
    exact ⟨w, s, v, draft, hw, hdraft, .inl ⟨_, by rw [hb], hlist, hend⟩⟩
  · split at hstep
    · rename_i hb
      rw [Option.getD_some, bind_of_ok (advance_cons b s)] at hstep
      obtain ⟨draft, v, hmembers, hrest⟩ := bind_eq_ok hstep
      obtain ⟨_, v', hend, hfinish⟩ := bind_eq_ok hrest
      obtain ⟨hdraft, rfl⟩ := complete_taken hfinish
      cases hend
      exact ⟨w, s, v, draft, hw, hdraft, .inr ⟨_, by rw [hb], hmembers, rfl⟩⟩
    · exact absurd hstep (fails_refuse _ _ _ _)

/-- A document is what its reader takes, and spaces. -/
theorem document_taken {r : Reader α} {s t : List UInt8} {x : α}
    (h : document r s = .ok (x, t)) : ∃ u, r s = .ok (x, u) ∧ Blank u := by
  obtain ⟨y, u, hread, hrest⟩ := bind_eq_ok h
  obtain ⟨b, v, htoken, hend⟩ := bind_eq_ok hrest
  obtain ⟨hv, hb⟩ := peekToken_eq_ok htoken
  cases b with
  | some b => cases hend
  | none =>
    obtain ⟨rfl, rfl⟩ := Prod.mk.inj (pure_eq_ok hend)
    refine ⟨u, hread, fun c hc => ?_⟩
    have hnil : u.dropWhile isSpace = [] := by
      rw [← hv]
      exact List.head?_eq_none_iff.mp hb.symm
    exact List.dropWhile_eq_nil_iff.mp hnil c hc

end AdminPlane.Json
