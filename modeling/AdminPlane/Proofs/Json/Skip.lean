import AdminPlane.Proofs.Json.Readers

namespace AdminPlane.Json.Skip

open AdminPlane.Text AdminPlane.Text.Ascii

theorem steady_escape : Steady escape := by
  refine steady_onByte (steady_fail _) fun b => steady_bind steady_advance fun _ => ?_
  exact steady_ite (steady_map _ steady_hex4) (steady_ite (steady_pure _) (steady_fail _))

theorem steady_stringRest (fuel : Nat) : Steady (stringRest fuel) := by
  induction fuel with
  | zero => exact steady_fail _
  | succ fuel ih =>
    refine steady_onByte (steady_fail _) fun b => ?_
    refine steady_ite (steady_fail _) (steady_bind steady_advance fun _ => ?_)
    exact steady_ite (steady_pure _) (steady_ite (steady_bind steady_escape fun _ => ih) ih)

theorem within_stringRest (fuel : Nat) : Within (stringRest fuel) (stringRest (fuel + 1)) := by
  induction fuel with
  | zero => exact within_of_fails (fails_fail _)
  | succ fuel ih =>
    refine within_onByte (within_refl _) fun b => ?_
    refine within_ite (within_refl _) (within_bind fun _ => ?_)
    exact within_ite (within_refl _) (within_ite (within_bind fun _ => ih) ih)

theorem steady_string : Steady string := by
  have h : Steady fun s => stringRest (1 * s.length + 1) s :=
    steady_fuel 1 1 steady_stringRest within_stringRest
  simp only [Nat.one_mul] at h
  exact steady_bind steady_advance fun _ => h

theorem steady_requireDigit : Steady requireDigit :=
  steady_bind steady_peek fun _ => steady_bind steady_advance fun _ =>
    steady_ite (steady_pure _) (steady_fail _)

theorem steady_exponent : Steady exponent := by
  refine steady_bind steady_advance fun _ => steady_bind steady_peek fun sign => ?_
  refine steady_ite (steady_bind steady_advance fun _ => ?_) ?_
  all_goals exact steady_bind steady_requireDigit fun _ => steady_map _ steady_digits

theorem steady_decimals : Steady decimals := by
  refine steady_bind steady_advance fun _ => steady_bind steady_digits fun ds => ?_
  refine steady_ite (steady_failNext _) (steady_bind steady_peek fun _ => ?_)
  exact steady_ite steady_exponent (steady_pure _)

theorem steady_number : Steady number := by
  have behind : Steady (do
      let next ← peek
      if next = some point then decimals
      else if Number.isExponent next then exponent) :=
    steady_bind steady_peek fun _ =>
      steady_ite steady_decimals (steady_ite steady_exponent (steady_pure _))
  refine steady_bind steady_peek fun sign => ?_
  refine steady_ite (steady_bind steady_advance fun _ => ?_) ?_
  all_goals
    refine steady_bind steady_peek fun first => steady_bind steady_requireDigit fun _ => ?_
    refine steady_ite (steady_bind steady_peek fun _ => steady_ite ?_ behind) ?_
    · exact steady_bind (steady_failNext _) fun _ => behind
    · exact steady_bind (steady_map _ steady_digits) fun _ => behind

theorem steady_scalar (b : UInt8) : Steady (scalar b) := by
  refine steady_ite (steady_word _) (steady_ite (steady_word _) (steady_ite (steady_word _) ?_))
  exact steady_ite steady_string (steady_ite steady_number (steady_failNext _))

theorem steady_name : Steady name := by
  refine steady_onToken (steady_failNext _) fun b => ?_
  refine steady_ite (steady_failNext _) (steady_bind steady_string fun _ => ?_)
  refine steady_onToken (steady_failNext _) fun c => ?_
  exact steady_ite steady_advance (steady_failNext _)

/-- Both halves of the walk at once: each calls the other with less fuel. -/
theorem steady_walk (fuel : Nat) : (∀ within, Steady (value within fuel)) ∧
    ∀ within behindValue, Steady (rest within behindValue fuel) := by
  induction fuel with
  | zero => exact ⟨fun _ => steady_failNext _, fun _ _ => steady_failNext _⟩
  | succ fuel ih =>
    obtain ⟨ihValue, ihRest⟩ := ih
    refine ⟨fun within => ?_, fun within behindValue => ?_⟩
    · unfold value
      refine steady_onToken (steady_failNext _) fun b => ?_
      refine steady_ite (steady_bind steady_advance fun _ => ihRest _ _) ?_
      refine steady_ite (steady_bind steady_advance fun _ => ihRest _ _) ?_
      exact steady_bind (steady_scalar b) fun _ => ihRest _ _
    · cases within with
      | nil => exact steady_pure ()
      | cons innermost outer =>
        have behindComma : Steady (do
            if innermost = .object then name
            value (innermost :: outer) fuel) :=
          steady_ite (steady_bind steady_name fun _ => ihValue _) (ihValue _)
        unfold rest
        refine steady_onToken (steady_failNext _) fun b => ?_
        refine steady_ite (steady_bind steady_advance fun _ => ihRest _ _) ?_
        refine steady_ite (steady_failNext _) (steady_ite ?_ behindComma)
        exact steady_bind steady_advance fun _ => behindComma

theorem within_walk (fuel : Nat) :
    (∀ within, Within (value within fuel) (value within (fuel + 1))) ∧
      ∀ within behindValue,
        Within (rest within behindValue fuel) (rest within behindValue (fuel + 1)) := by
  induction fuel with
  | zero =>
    refine ⟨fun _ => within_of_fails ?_, fun _ _ => within_of_fails ?_⟩
    all_goals exact fails_failNext _
  | succ fuel ih =>
    obtain ⟨ihValue, ihRest⟩ := ih
    refine ⟨fun within => ?_, fun within behindValue => ?_⟩
    · rw [value, value]
      refine within_onToken (within_refl _) fun b => ?_
      refine within_ite (within_bind fun _ => ihRest _ _) ?_
      refine within_ite (within_bind fun _ => ihRest _ _) ?_
      exact within_bind fun _ => ihRest _ _
    · cases within with
      | nil => exact within_refl _
      | cons innermost outer =>
        have behindComma : Within
            (do
              if innermost = .object then name
              value (innermost :: outer) fuel)
            (do
              if innermost = .object then name
              value (innermost :: outer) (fuel + 1)) :=
          within_ite (within_bind fun _ => ihValue _) (ihValue _)
        rw [rest, rest]
        refine within_onToken (within_refl _) fun b => ?_
        refine within_ite (within_bind fun _ => ihRest _ _) ?_
        refine within_ite (within_refl _) (within_ite ?_ behindComma)
        exact within_bind fun _ => behindComma

theorem steady_any : Steady any :=
  steady_fuel 2 2 (fun n => (steady_walk n).1 []) fun n => (within_walk n).1 []

end AdminPlane.Json.Skip
