import AdminPlane.Proofs.Json.Steady

namespace AdminPlane.Json

open AdminPlane.Text AdminPlane.Text.Ascii

theorem steady_literalRest (bs : List UInt8) : Steady (literalRest bs) := by
  induction bs with
  | nil => exact steady_pure ()
  | cons b bs ih =>
    refine steady_onByte (steady_fail _) fun c => ?_
    exact steady_bind steady_advance fun _ => steady_ite ih (steady_fail _)

theorem steady_word (w : String) : Steady (word w) :=
  steady_bind steady_advance fun _ => steady_literalRest _

namespace Number

theorem steady_rounded (minus : Bool) (significand : Nat) (e : Int) :
    Steady (rounded minus significand e) := by
  unfold rounded
  split
  · exact steady_fail _
  · exact steady_pure _

theorem steady_exponent (minus : Bool) (significand : Nat) (start : Int) :
    Steady (exponent minus significand start) := by
  refine steady_bind steady_advance fun _ => steady_bind steady_peek fun sign => ?_
  -- The same digits follow a sign and no sign.
  refine steady_ite (steady_bind steady_advance fun _ => ?_) ?_
  all_goals
    refine steady_onByte (steady_fail _) fun d => ?_
    refine steady_ite (steady_bind steady_digits fun ds => ?_)
      (steady_bind steady_advance fun _ => steady_fail _)
    split
    · exact steady_rounded _ _ _
    · exact steady_ite (steady_failBefore _ _) (steady_pure _)

theorem steady_decimals (minus : Bool) (significand dropped : Nat) :
    Steady (decimals minus significand dropped) := by
  refine steady_bind steady_advance fun _ => steady_bind steady_digits fun ds => ?_
  refine steady_ite ?_ ?_
  · exact steady_bind steady_peek fun _ => steady_ite (steady_fail _) (steady_failNext _)
  · exact steady_bind steady_peek fun _ =>
      steady_ite (steady_exponent _ _ _) (steady_rounded _ _ _)

theorem steady_body (minus : Bool) : Steady (body minus) := by
  refine steady_onByte (steady_fail _) fun d => ?_
  refine steady_ite ?_ (steady_bind steady_advance fun _ => steady_fail _)
  refine steady_bind steady_integerDigits fun ds => steady_bind steady_peek fun next => ?_
  refine steady_ite (steady_failNext _) ?_
  refine steady_ite (steady_decimals _ _ _) (steady_ite (steady_exponent _ _ _) ?_)
  exact steady_ite (steady_pure _) (steady_rounded _ _ _)

theorem steady_read : Steady read :=
  steady_bind steady_peek fun _ =>
    steady_ite (steady_bind steady_advance fun _ => steady_body true) (steady_body false)

end Number

namespace Text

theorem steady_continueWith (b : UInt8) : Steady (continueWith b) := by
  refine steady_onByte (steady_fail _) fun c => ?_
  exact steady_bind steady_advance fun _ => steady_ite (steady_pure _) (steady_fail _)

theorem steady_unicodeEscape : Steady unicodeEscape := by
  refine steady_bind steady_hex4 fun n => steady_ite (steady_fail _) ?_
  refine steady_ite (steady_pure _) (steady_bind (steady_continueWith _) fun _ => ?_)
  refine steady_bind (steady_continueWith _) fun _ => ?_
  exact steady_bind steady_hex4 fun m => steady_ite (steady_fail _) (steady_pure _)

theorem steady_escape : Steady escape := by
  refine steady_onByte (steady_fail _) fun b => ?_
  refine steady_bind steady_advance fun _ => steady_ite steady_unicodeEscape ?_
  split
  · exact steady_pure _
  · exact steady_fail _

theorem steady_bytes (fuel : Nat) (seen : List UInt8) : Steady (bytes fuel seen) := by
  induction fuel generalizing seen with
  | zero => exact steady_fail _
  | succ fuel ih =>
    refine steady_onByte (steady_fail _) fun b => ?_
    refine steady_bind steady_advance fun _ => steady_ite (steady_pure _) (steady_ite ?_ ?_)
    · exact steady_bind steady_escape fun _ => ih _
    · exact steady_ite (steady_fail _) (ih _)

theorem within_bytes (fuel : Nat) (seen : List UInt8) :
    Within (bytes fuel seen) (bytes (fuel + 1) seen) := by
  induction fuel generalizing seen with
  | zero => exact within_of_fails (fails_fail _)
  | succ fuel ih =>
    refine within_onByte (within_refl _) fun b => ?_
    refine within_bind fun _ => within_ite (within_refl _) (within_ite ?_ ?_)
    · exact within_bind fun _ => ih _
    · exact within_ite (within_refl _) (ih _)

theorem steady_read : Steady read := by
  have hb : Steady fun s => bytes (1 * s.length + 1) [] s :=
    steady_fuel 1 1 (fun n => steady_bytes n []) fun n => within_bytes n []
  simp only [Nat.one_mul] at hb
  refine steady_bind steady_advance fun _ => steady_get hb fun found => ?_
  split
  · exact steady_pure _
  · exact steady_failBefore _ _

end Text

theorem fails_refuse (expected : String) (b : UInt8) : Fails (refuse expected b : Reader α) := by
  unfold refuse
  repeat' split
  · exact fails_bind fun _ => fails_fail _
  · exact fails_bind fun _ => fails_fail _
  · exact fails_bind fun _ => fails_fail _
  · exact fails_bind fun _ => fails_fail _
  · exact fails_fail _
  · exact fails_fail _
  · exact fails_bind fun _ => fails_fail _
  · exact fails_failNext _

theorem steady_refuse (expected : String) (b : UInt8) : Steady (refuse expected b : Reader α) :=
  steady_of_fails (fails_refuse expected b)

theorem steady_value {expected : String} {read : UInt8 → Option (Reader α)}
    (hr : ∀ b r, read b = some r → Steady r) : Steady (value expected read) := by
  refine steady_onToken (steady_failNext _) fun b => ?_
  dsimp only
  cases h : read b with
  | none => exact steady_refuse expected b
  | some r => exact hr b r h

namespace Reader

theorem steady_string : Steady string :=
  steady_value fun b r hr => by
    split at hr
    · cases hr
      exact Text.steady_read
    · cases hr

theorem steady_boolean : Steady boolean :=
  steady_value fun b r hr => by
    split at hr
    · cases hr
      exact steady_bind (steady_word _) fun _ => steady_pure _
    · split at hr
      · cases hr
        exact steady_bind (steady_word _) fun _ => steady_pure _
      · cases hr

theorem steady_integer (expected : String) (narrow : Int → Option α) :
    Steady (integer expected narrow) :=
  steady_value fun b r hr => by
    split at hr
    · cases hr
      refine steady_bind Number.steady_read fun n => ?_
      cases n with
      | fraction minus x => exact steady_fail _
      | natural k | negative k =>
        dsimp only
        split
        · exact steady_pure _
        · exact steady_fail _
    · cases hr

theorem steady_nullable {read : Reader α} (hr : Steady read) : Steady (nullable read) :=
  steady_bind steady_peekToken fun _ =>
    steady_ite (steady_bind (steady_word _) fun _ => steady_pure _) (steady_map _ hr)

end Reader

end AdminPlane.Json
