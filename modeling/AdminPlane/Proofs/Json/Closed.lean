import AdminPlane.Proofs.Json.Shapes

namespace AdminPlane.Json

open AdminPlane.Text AdminPlane.Text.Ascii

/-- A reader whose last byte tells that it has come to its end: what follows the text it has read
changes nothing, even where nothing has followed. -/
def Closed (r : Reader α) : Prop :=
  ∀ s x t, s ≠ [] → r s = .ok (x, t) → ∀ more, r (s ++ more) = .ok (x, t ++ more)

theorem closed_advance : Closed advance := by
  intro s x t hs h more
  cases h
  cases s with
  | nil => contradiction
  | cons b s => rfl

theorem closed_of_fails {r : Reader α} (h : Fails r) : Closed r :=
  fun s x t _ hr => absurd hr (h s (x, t))

/-- The first part may leave nothing only where the second part asks for more. -/
theorem closed_bind {r : Reader α} {f : α → Reader β} (hr : Steady r)
    (hend : ∀ s x, r s = .ok (x, []) → ∀ y, f x [] ≠ .ok y) (hf : ∀ x, Closed (f x)) :
    Closed (r >>= f) := by
  intro s y t _ h more
  obtain ⟨x, u, hx, hy⟩ := bind_eq_ok h
  have hu : u ≠ [] := by
    rintro rfl
    exact hend s x hx _ hy
  rw [bind_of_ok ((hr s x u hx).2 hu more)]
  exact hf x u y t hu hy more

/-- What completes a draft does not look at the text. -/
theorem closed_complete {r : Reader σ} (finish : σ → Except String α) (hr : Closed r) :
    Closed (r >>= fun draft =>
      match finish draft with
      | .ok x => pure x
      | .error missing => fail (.missingField missing)) := by
  intro s y t hs h more
  obtain ⟨draft, u, hx, hy⟩ := bind_eq_ok h
  rw [bind_of_ok (hr s draft u hs hx more)]
  cases hfin : finish draft with
  | error missing =>
    rw [hfin] at hy
    cases hy
  | ok x =>
    rw [hfin] at hy
    cases hy
    rfl

theorem peekToken_eq_ok {s t : List UInt8} {b : Option UInt8} (h : peekToken s = .ok (b, t)) :
    t = s.dropWhile isSpace ∧ b = t.head? := by
  cases h
  exact ⟨rfl, rfl⟩

/-- A reader that asks for a token is not content with the end of the text. -/
theorem closed_onToken {f : Option UInt8 → Reader α} (hend : Fails (f none))
    (hbyte : ∀ b, Closed (f (some b))) : Closed (peekToken >>= f) := by
  refine closed_bind steady_peekToken (fun s b h => ?_) fun b => ?_
  · cases (peekToken_eq_ok h).2
    exact hend []
  · cases b with
    | none => exact closed_of_fails hend
    | some b => exact hbyte b

theorem closed_value {expected : String} {read : UInt8 → Option (Reader α)}
    (hr : ∀ b r, read b = some r → Closed r) : Closed (value expected read) := by
  refine closed_onToken (fails_failNext _) fun b => ?_
  dsimp only
  cases h : read b with
  | none => exact closed_of_fails (fails_refuse expected b)
  | some r => exact hr b r h

theorem value_nil (expected : String) (read : UInt8 → Option (Reader α)) (y : α × List UInt8) :
    value expected read [] ≠ .ok y := by
  intro h
  cases h

theorem closed_listEnd : Closed listEnd := by
  refine closed_onToken (fails_failNext _) fun b => ?_
  dsimp only
  split
  · exact closed_advance
  · refine closed_of_fails (fails_ite ?_ (fails_failNext _))
    exact fails_bind fun _ => fails_bind fun _ => fails_ite (fails_failNext _) (fails_failNext _)

/-- The end of an object is seen before it is passed over. -/
theorem nextMember_false {isFirst : Bool} {s t : List UInt8}
    (h : nextMember isFirst s = .ok (false, t)) : t.head? = some closeBrace := by
  obtain ⟨b, u, hb, hu⟩ := bind_eq_ok h
  have hhead := (peekToken_eq_ok hb).2
  cases b with
  | none => cases hu
  | some b =>
    dsimp only at hu
    split at hu
    · rename_i hbrace
      cases hu
      rw [← hhead, hbrace]
    · split at hu
      · split at hu
        all_goals cases hu
      · split at hu
        · obtain ⟨_, v, _, hv⟩ := bind_eq_ok hu
          obtain ⟨c, w, _, hw⟩ := bind_eq_ok hv
          cases c with
          | none => cases hw
          | some c =>
            dsimp only at hw
            repeat' split at hw
            all_goals cases hw
        · cases hu

/-- Whatever the reader reads, the byte `b` stands behind it. -/
def StopsAt (b : UInt8) (r : Reader α) : Prop := ∀ s x t, r s = .ok (x, t) → t.head? = some b

theorem stopsAt_of_fails {b : UInt8} {r : Reader α} (h : Fails r) : StopsAt b r :=
  fun s x t hr => absurd hr (h s (x, t))

theorem stopsAt_bind {b : UInt8} {r : Reader α} {f : α → Reader β} (hf : ∀ x, StopsAt b (f x)) :
    StopsAt b (r >>= f) := by
  intro s y t h
  obtain ⟨x, u, _, hy⟩ := bind_eq_ok h
  exact hf x u y t hy

namespace Member

theorem stopsAt_members (fields : List (Member σ)) (fuel : Nat) (isFirst : Bool) (draft : σ) :
    StopsAt closeBrace (members fields fuel isFirst draft) := by
  induction fuel generalizing isFirst draft with
  | zero => exact stopsAt_of_fails (fails_failNext _)
  | succ fuel ih =>
    intro s draft' t h
    obtain ⟨another, u, hnext, hu⟩ := bind_eq_ok h
    cases another with
    | false =>
      cases hu
      exact nextMember_false hnext
    | true =>
      refine stopsAt_bind (r := Text.read) (fun name => ?_) u draft' t hu
      split
      · split
        · exact stopsAt_of_fails (fails_failDuplicate name)
        · exact stopsAt_bind fun _ => stopsAt_bind fun _ => ih _ _
      · exact stopsAt_bind fun _ => stopsAt_bind fun _ => ih _ _

section Record

variable {fields : List (Member σ)} {start : σ} {finish : σ → Except String α}
  (name : String) (hf : ∀ field ∈ fields, ∀ draft, Steady (field.read draft))
include hf

theorem steady_membersFrom (start : σ) :
    Steady fun s => members fields (s.length + 1) true start s := by
  have h : Steady fun s => members fields (1 * s.length + 1) true start s :=
    steady_fuel 1 1 (fun n => steady_members hf n true start)
      fun n => within_members fields n true start
  simpa only [Nat.one_mul] using h

theorem steady_readRecord : Steady (readRecord name fields start finish) := by
  have complete : ∀ draft, Steady (match finish draft with
      | .ok x => pure x
      | .error missing => fail (.missingField missing)) := by
    intro draft
    split
    · exact steady_pure _
    · exact steady_fail _
  refine steady_value fun b r hr => ?_
  split at hr
  · cases hr
    refine steady_bind steady_advance fun _ => ?_
    refine steady_bind (steady_inOrder hf _ _ _) fun draft => ?_
    exact steady_bind steady_listEnd fun _ => complete draft
  · split at hr
    · cases hr
      refine steady_bind steady_advance fun _ => ?_
      refine steady_bind (steady_membersFrom hf start) fun draft => ?_
      exact steady_bind steady_advance fun _ => complete draft
    · cases hr

theorem closed_readRecord : Closed (readRecord name fields start finish) := by
  refine closed_value fun b r hr => ?_
  split at hr
  · cases hr
    refine closed_bind steady_advance (fun s x _ y h => ?_) fun _ => ?_
    · obtain ⟨draft, u, hd, hu⟩ := bind_eq_ok (t := y.2) h
      obtain ⟨hle, _⟩ := steady_inOrder hf _ _ _ _ _ _ hd
      cases List.length_eq_zero_iff.mp (Nat.le_zero.mp hle)
      cases hu
    · refine closed_bind (steady_inOrder hf _ _ _) (fun s draft _ y h => by cases h) fun draft => ?_
      exact closed_complete (fun _ => finish draft) closed_listEnd
  · split at hr
    · cases hr
      refine closed_bind steady_advance (fun s x _ y h => by cases h) fun _ => ?_
      refine closed_bind (steady_membersFrom hf start) (fun s draft h => ?_) fun draft => ?_
      · cases stopsAt_members fields _ _ _ s draft [] h
      · exact closed_complete (fun _ => finish draft) closed_advance
    · cases hr

end Record

end Member

end AdminPlane.Json
