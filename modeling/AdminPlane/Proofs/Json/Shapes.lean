import AdminPlane.Proofs.Json.Skip

namespace AdminPlane.Json

open AdminPlane.Text AdminPlane.Text.Ascii

theorem steady_nextItem (isFirst : Bool) : Steady (nextItem isFirst) := by
  refine steady_onToken (steady_failNext _) fun b => ?_
  refine steady_ite (steady_pure _) (steady_ite (steady_pure _) ?_)
  refine steady_ite (steady_bind steady_advance fun _ => ?_) (steady_failNext _)
  refine steady_onToken (steady_failNext _) fun c => ?_
  exact steady_ite (steady_failNext _) (steady_pure _)

theorem steady_nextMember (isFirst : Bool) : Steady (nextMember isFirst) := by
  refine steady_onToken (steady_failNext _) fun b => ?_
  refine steady_ite (steady_pure _) (steady_ite ?_ (steady_ite ?_ (steady_failNext _)))
  · exact steady_ite (steady_pure _) (steady_failNext _)
  · refine steady_bind steady_advance fun _ => steady_onToken (steady_failNext _) fun c => ?_
    exact steady_ite (steady_pure _) (steady_ite (steady_failNext _) (steady_failNext _))

theorem steady_nameEnd : Steady nameEnd :=
  steady_onToken (steady_failNext _) fun _ => steady_ite steady_advance (steady_failNext _)

theorem steady_listEnd : Steady listEnd := by
  refine steady_onToken (steady_failNext _) fun b => ?_
  refine steady_ite steady_advance (steady_ite ?_ (steady_failNext _))
  refine steady_bind steady_advance fun _ => steady_bind steady_peekToken fun _ => ?_
  exact steady_ite (steady_failNext _) (steady_failNext _)

namespace List

variable {item : Reader α}

theorem steady_items (hi : Steady item) (fuel : Nat) (isFirst : Bool) :
    Steady (items item fuel isFirst) := by
  induction fuel generalizing isFirst with
  | zero => exact steady_failNext _
  | succ fuel ih =>
    refine steady_bind (steady_nextItem isFirst) fun _ => steady_ite ?_ (steady_pure _)
    exact steady_bind hi fun _ => steady_bind (ih false) fun _ => steady_pure _

theorem within_items (item : Reader α) (fuel : Nat) (isFirst : Bool) :
    Within (items item fuel isFirst) (items item (fuel + 1) isFirst) := by
  induction fuel generalizing isFirst with
  | zero => exact within_of_fails (fails_failNext _)
  | succ fuel ih =>
    refine within_bind fun _ => within_ite (within_bind fun x => ?_) (within_refl _)
    intro s y hy
    obtain ⟨xs, u, hx, hf⟩ := bind_eq_ok (t := y.2) hy
    rw [bind_of_ok (ih false s _ hx)]
    exact hf

theorem steady_read (hi : Steady item) : Steady (read item) :=
  steady_value fun b r hr => by
    split at hr
    · cases hr
      have h : Steady fun s => items item (1 * s.length + 1) true s :=
        steady_fuel 1 1 (fun n => steady_items hi n true) fun n => within_items item n true
      simp only [Nat.one_mul] at h
      refine steady_bind steady_advance fun _ => steady_bind h fun xs => ?_
      exact steady_bind steady_listEnd fun _ => steady_pure _
    · cases hr

end List

namespace Member

theorem fails_failDuplicate (name : String) : Fails (failDuplicate name : Reader α) :=
  fails_bind fun _ => fails_ite (fails_bind fun _ => fails_fail _) (fails_fail _)

variable {fields : List (Member σ)}

theorem steady_members (hf : ∀ field ∈ fields, ∀ draft, Steady (field.read draft)) (fuel : Nat)
    (isFirst : Bool) (draft : σ) : Steady (members fields fuel isFirst draft) := by
  induction fuel generalizing isFirst draft with
  | zero => exact steady_failNext _
  | succ fuel ih =>
    refine steady_bind (steady_nextMember isFirst) fun _ => steady_ite ?_ (steady_pure _)
    refine steady_bind Text.steady_read fun name => ?_
    split
    · rename_i field hfind
      refine steady_ite (steady_of_fails (fails_failDuplicate name)) (steady_bind steady_nameEnd fun _ => ?_)
      exact steady_bind (hf field (List.mem_of_find?_eq_some hfind) draft) fun _ => ih _ _
    · exact steady_bind steady_nameEnd fun _ => steady_bind Skip.steady_any fun _ => ih _ _

theorem within_members (fields : List (Member σ)) (fuel : Nat) (isFirst : Bool) (draft : σ) :
    Within (members fields fuel isFirst draft) (members fields (fuel + 1) isFirst draft) := by
  induction fuel generalizing isFirst draft with
  | zero => exact within_of_fails (fails_failNext _)
  | succ fuel ih =>
    refine within_bind fun _ => within_ite (within_bind fun name => ?_) (within_refl _)
    split
    · exact within_ite (within_refl _) (within_bind fun _ => within_bind fun _ => ih _ _)
    · exact within_bind fun _ => within_bind fun _ => ih _ _

theorem steady_inOrder (hf : ∀ field ∈ fields, ∀ draft, Steady (field.read draft))
    (expected : String) (count : Nat) (draft : σ) :
    Steady (inOrder expected fields count draft) := by
  induction fields generalizing count draft with
  | nil => exact steady_pure _
  | cons field rest ih =>
    refine steady_bind (steady_nextItem _) fun _ => steady_ite ?_ ?_
    · refine steady_bind (hf field (.head _) draft) fun _ => ?_
      exact ih (fun f hm => hf f (.tail _ hm)) _ _
    · split
      · exact steady_pure _
      · exact steady_bind steady_advance fun _ => steady_fail _

end Member

namespace Variant

theorem steady_choose (variants : List (String × α)) (name : String) :
    Steady (choose variants name) := by
  unfold choose
  split
  · exact steady_pure _
  · exact steady_fail _

theorem steady_key : Steady key := by
  refine steady_onToken (steady_failNext _) fun b => ?_
  exact steady_ite Text.steady_read (steady_ite (steady_failNext _) (steady_failNext _))

theorem steady_read (variants : List (String × α)) : Steady (read variants) := by
  have hnull : Steady (value "unit" fun c => if c = 0x6E then some (word "null") else none) :=
    steady_value fun b r hr => by
      split at hr
      · cases hr
        exact steady_word _
      · cases hr
  refine steady_onToken (steady_failNext _) fun b => ?_
  refine steady_ite (steady_bind Text.steady_read fun _ => steady_choose _ _) ?_
  refine steady_ite (steady_bind steady_advance fun _ => ?_) (steady_failNext _)
  refine steady_bind steady_key fun _ => steady_bind (steady_choose _ _) fun x => ?_
  refine steady_bind steady_nameEnd fun _ => steady_bind hnull fun _ => ?_
  refine steady_onToken (steady_fail _) fun c => ?_
  exact steady_ite (steady_bind steady_advance fun _ => steady_pure _) (steady_fail _)

end Variant

end AdminPlane.Json
