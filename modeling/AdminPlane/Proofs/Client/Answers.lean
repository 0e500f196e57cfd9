import AdminPlane.Proofs.Client.ErrorText
import AdminPlane.Proofs.Client.Verdict
import AdminPlane.Proofs.Text.Lossy

namespace AdminPlane.Client

open Channel (Frame Key Nonce)

/-- A refusal says the error that its body is a text of, and without one all of its body. -/
def Tells (body : List UInt8) (m : String) : Prop :=
  ErrorBody.IsText m body ∨ (∀ m', ¬ ErrorBody.IsText m' body) ∧ m = Text.Utf8.lossy body

def Sealed (c : Client) (frame : Frame) (body : List UInt8) : Prop :=
  ∃ nonce, body = c.key.sealFrame nonce frame

/-- Each response has one outcome, by its status first and then by its body. -/
structure Judges (c : Client) (r : Response) (o : Except ClientError Frame) : Prop where
  accepts : ∀ frame, o = .ok frame ↔
    (200 ≤ r.status ∧ r.status < 300) ∧ c.Sealed frame r.body
  short : 200 ≤ r.status → r.status < 300 → r.body.length ≤ 1 →
    o = .error (.tooShort r.body.length)
  unopened : 200 ≤ r.status → r.status < 300 → 2 ≤ r.body.length →
    (∀ frame, ¬ c.Sealed frame r.body) → o = .error (.decryption .authentication)
  refuses : ¬ (200 ≤ r.status ∧ r.status < 300) → ∃ m, Tells r.body m ∧
    ((r.status = 400 ∧ m = Channel.verifyFailure) ∧ o = .error (.unauthenticated m) ∨
      ¬ (r.status = 400 ∧ m = Channel.verifyFailure) ∧ o = .error (.rejected r.status m))

theorem tells_iff {body : List UInt8} {m : String} : Tells body m ↔ refusalText body = m := by
  rw [refusalText]
  cases hdecode : Payload.decode ErrorBody body with
  | ok e =>
    have htext := ErrorBody.decode_eq_ok_iff.mp hdecode
    constructor
    · rintro (hm | ⟨hnone, _⟩)
      · rw [ErrorBody.decode_eq_ok_iff.mpr hm] at hdecode
        cases hdecode
        rfl
      · exact absurd htext (hnone _)
    · rintro rfl
      exact .inl htext
  | error fault =>
    have hnone : ∀ m', ¬ ErrorBody.IsText m' body := by
      intro m' hm'
      rw [ErrorBody.decode_eq_ok_iff.mpr hm'] at hdecode
      cases hdecode
    constructor
    · rintro (hm | ⟨_, rfl⟩)
      · exact absurd hm (hnone m)
      · rfl
    · rintro rfl
      exact .inr ⟨hnone, rfl⟩

/-- A text that is no error is told as it is. -/
theorem tells_text {s : String} (h : ∀ m, ¬ ErrorBody.IsText m (Text.Utf8.encode s)) :
    Tells (Text.Utf8.encode s) s :=
  .inr ⟨h, (Text.Utf8.lossy_encode s).symm⟩

/-- A list with the error in it will do. -/
example : refusalText (Text.ascii " [\"no\"] ") = "no" := rfl

theorem isSuccess_iff {r : Response} : r.isSuccess = true ↔ 200 ≤ r.status ∧ r.status < 300 := by
  rw [Response.isSuccess, Bool.and_eq_true, decide_eq_true_eq, decide_eq_true_eq]

section Verdict

variable {c : Client} {r : Response} {o : Except ClientError Frame}

theorem openFrame_eq_ok_iff {frame : Frame} {body : List UInt8} :
    c.key.openFrame body = .ok frame ↔ c.Sealed frame body := by
  constructor
  · exact fun h => ⟨_, (c.key.eq_sealFrame_of_openFrame h).2⟩
  · rintro ⟨nonce, rfl⟩
    exact c.key.openFrame_sealFrame nonce frame

/-- A seal is far longer than the responses that are too short. -/
theorem Sealed.two_le {frame : Frame} {body : List UInt8} (h : c.Sealed frame body) :
    2 ≤ body.length := by
  obtain ⟨nonce, rfl⟩ := h
  have hmin : 2 ≤ Channel.minSealedFrameSize := by decide
  rw [c.key.length_sealFrame nonce frame]
  omega

theorem verdict_short (hr : r.isSuccess = true) (hbody : r.body.length ≤ 1) :
    c.verdict r = .error (.tooShort r.body.length) := by
  rw [verdict, if_neg (not_not_intro hr), if_pos hbody]

theorem verdict_sealed (hr : r.isSuccess = true) {frame : Frame} (hbody : c.Sealed frame r.body) :
    c.verdict r = .ok frame := by
  have hlong := hbody.two_le
  rw [verdict, if_neg (not_not_intro hr), if_neg (by omega), openFrame_eq_ok_iff.mpr hbody]

theorem verdict_unsealed (hr : r.isSuccess = true) (hlong : 2 ≤ r.body.length)
    (hbody : ∀ frame, ¬ c.Sealed frame r.body) :
    c.verdict r = .error (.decryption .authentication) := by
  rw [verdict, if_neg (not_not_intro hr), if_neg (by omega)]
  cases hopen : c.key.openFrame r.body with
  | ok frame => exact absurd (openFrame_eq_ok_iff.mp hopen) (hbody frame)
  | error e => rw [c.key.openFrame_error hopen]

theorem verdict_refused (hr : ¬ r.isSuccess = true) :
    c.verdict r = .error (refusal r.status r.body) := by
  rw [verdict, if_pos hr]

theorem verdict_judges : Judges c r (c.verdict r) := by
  refine ⟨fun frame => ⟨fun h => ?_, fun ⟨hr, hbody⟩ => ?_⟩, fun hlo hhi hbody => ?_,
    fun hlo hhi hlong hbody => ?_, fun hr => ⟨refusalText r.body, tells_iff.mpr rfl, ?_⟩⟩
  · by_cases hr : r.isSuccess = true
    · refine ⟨isSuccess_iff.mp hr, ?_⟩
      by_contra hbody
      have hother : ∀ other, ¬ c.Sealed other r.body := by
        intro other hsealed
        rw [verdict_sealed hr hsealed] at h
        cases h
        exact hbody hsealed
      rcases Nat.lt_or_ge 1 r.body.length with hlong | hshort
      · rw [verdict_unsealed hr hlong hother] at h
        cases h
      · rw [verdict_short hr hshort] at h
        cases h
    · rw [verdict_refused hr] at h
      cases h
  · exact verdict_sealed (isSuccess_iff.mpr hr) hbody
  · exact verdict_short (isSuccess_iff.mpr ⟨hlo, hhi⟩) hbody
  · exact verdict_unsealed (isSuccess_iff.mpr ⟨hlo, hhi⟩) hlong hbody
  · rw [verdict_refused (mt isSuccess_iff.mp hr), refusal]
    by_cases hverify : r.status = 400 ∧ refusalText r.body = Channel.verifyFailure
    · exact .inl ⟨hverify, congrArg Except.error (if_pos hverify)⟩
    · exact .inr ⟨hverify, congrArg Except.error (if_neg hverify)⟩

/-- What fails to authenticate is a success that does not open, or the answer that says so of the
request. -/
theorem Judges.isAuthentication_iff (h : Judges c r o) :
    (∃ e, o = .error e ∧ e.isAuthentication = true) ↔
      ((200 ≤ r.status ∧ r.status < 300) ∧ 2 ≤ r.body.length ∧
          ∀ frame, ¬ c.Sealed frame r.body) ∨
        r.status = 400 ∧ Tells r.body Channel.verifyFailure := by
  constructor
  · rintro ⟨e, rfl, he⟩
    by_cases hr : 200 ≤ r.status ∧ r.status < 300
    · refine .inl ⟨hr, ?_, fun frame hsealed => ?_⟩
      · by_contra hshort
        cases h.short hr.1 hr.2 (by omega)
        cases he
      · cases (h.accepts frame).mpr ⟨hr, hsealed⟩
    · obtain ⟨m, hm, ⟨⟨hstatus, rfl⟩, _⟩ | ⟨_, hrejected⟩⟩ := h.refuses hr
      · exact .inr ⟨hstatus, hm⟩
      · cases hrejected
        cases he
  · rintro (⟨hr, hlong, hbody⟩ | ⟨hstatus, htells⟩)
    · exact ⟨_, h.unopened hr.1 hr.2 hlong hbody, rfl⟩
    · obtain ⟨m, hm, ⟨_, hunauthenticated⟩ | ⟨hother, _⟩⟩ := h.refuses (by omega)
      · exact ⟨_, hunauthenticated, rfl⟩
      · have hsame : m = Channel.verifyFailure :=
          (tells_iff.mp hm).symm.trans (tells_iff.mp htells)
        exact absurd ⟨hstatus, hsame⟩ hother

end Verdict

/-- Whatever a server makes of a request, the client accepts nothing but seals of its own key, and
everything else comes out as one error that names what is wrong with it. -/
theorem request_judges (c : Client) (nonce : Nonce) (frame : Frame)
    (server : Request → Response) :
    let r := server (c.post nonce frame)
    let o := c.request (m := Id) nonce frame fun q => some (server q)
    Judges c r o ∧ ((∃ e, o = .error e ∧ e.isAuthentication = true) ↔
      ((200 ≤ r.status ∧ r.status < 300) ∧ 2 ≤ r.body.length ∧
          ∀ answer, ¬ c.Sealed answer r.body) ∨
        r.status = 400 ∧ Tells r.body Channel.verifyFailure) :=
  ⟨verdict_judges, verdict_judges.isAuthentication_iff⟩

end AdminPlane.Client
