import AdminPlane.Proofs.Json.Swapped
import AdminPlane.Proofs.Node.Secrecy
import Mathlib

namespace AdminPlane

open AdminPlane.Json AdminPlane.Text

namespace Payload

section Field

variable {r : Reader α} {given : σ → Option α} {set : σ → α → σ} {name : String} {optional : Bool}

theorem local_field (hpad : Padded r) (hsettles : ∀ v, IsValue v → Settles r v) (d : σ) :
    Padded ((field name given r set optional).read d) ∧
      ∀ v, IsValue v → Settles ((field name given r set optional).read d) v :=
  ⟨padded_map _ hpad, fun v hv => settles_map _ (hsettles v hv)⟩

theorem alike_field {R : σ → σ → Prop} {d d' : σ} {s s' : List UInt8} {S : α → α → Prop}
    (h : Alike (AndRest S) (r s) (r s')) (hset : ∀ x y, S x y → R (set d x) (set d' y)) :
    Alike (AndRest R) ((field name given r set optional).read d s)
      ((field name given r set optional).read d' s') := by
  change Alike _ ((r >>= fun x => pure (set d x)) s) ((r >>= fun y => pure (set d' y)) s')
  exact alike_bind h fun x y _ hxy => .ok ⟨hset x y hxy, rfl⟩

end Field

namespace InitialisationRequest

/-- The drafts differ in nothing but their keys. -/
def Draft.Rekeyed (k k' : String) (d d' : Draft) : Prop :=
  d.privateKey = some k ∧ d' = { d with privateKey := some k' }

/-- The requests differ in nothing but their keys. -/
def Rekeyed (k k' : String) (m m' : InitialisationRequest) : Prop :=
  m.privateKey = k ∧ m' = { m with privateKey := k' }

variable {k k' : String} {v v' p : List UInt8}

theorem alike_decode (hp : UpTo "private_key" p) (hv : Spelt k v) (hv' : Spelt k' v')
    (hlength : v.length = v'.length) (q : List UInt8) :
    Alike (Rekeyed k k') (decode InitialisationRequest (p ++ (v ++ q)))
      (decode InitialisationRequest (p ++ (v' ++ q))) := by
  refine Json.alike_decode (Member.alike_readRecord (R := Draft.Rekeyed k k')
    ⟨?confined, ?respects, hlength, ?swapped⟩ ?finish hp _ q) ?lines
  case confined =>
    intro field hfield d
    simp only [List.mem_cons, List.not_mem_nil, or_false] at hfield
    rcases hfield with rfl | rfl | rfl
    · exact local_field (padded_value _ _) (fun v => Reader.settles_string) d
    · exact local_field (padded_value _ _) (fun v => Reader.settles_string) d
    · exact local_field (r := Reader.uint32) (padded_value _ _)
        (fun v => Reader.settles_integer _ _) d
  case respects =>
    intro field hfield d d' h
    obtain ⟨hk, rfl⟩ := h
    simp only [List.mem_cons, List.not_mem_nil, or_false] at hfield
    rcases hfield with rfl | rfl | rfl
    · exact ⟨rfl, fun _ s => alike_field (alike_refl _) fun x y hxy => ⟨hk, by rw [hxy]⟩⟩
    · have hgiven : d.privateKey.isSome = true := by rw [hk]; rfl
      exact ⟨hgiven, fun hnot => absurd (hgiven.symm.trans hnot) (by decide)⟩
    · exact ⟨rfl, fun _ s => alike_field (alike_refl _) fun x y hxy => ⟨hk, by rw [hxy]⟩⟩
  case swapped =>
    refine ⟨_, rfl, fun d q => ?_⟩
    have hread : Alike (AndRest fun x y => x = k ∧ y = k') (Reader.string (v ++ q))
        (Reader.string (v' ++ q)) := by
      rw [string_spelt hv, string_spelt hv']
      exact .ok ⟨⟨rfl, rfl⟩, rfl⟩
    refine alike_field hread fun x y hxy => ?_
    obtain ⟨rfl, rfl⟩ := hxy
    exact ⟨rfl, rfl⟩
  case finish =>
    rintro ⟨nodeId, _, keyVersion⟩ d' ⟨rfl, rfl⟩
    cases nodeId with
    | none => exact .error _
    | some nodeId => exact .ok ⟨rfl, rfl⟩
  case lines =>
    simp only [List.map_append, lines_of_not_mem hv.one_line, lines_of_not_mem hv'.one_line, hlength]

end InitialisationRequest

end Payload

namespace NodeState

theorem initialise_malformed {payload : List UInt8} {e : Json.Error}
    (h : Payload.decode Payload.InitialisationRequest payload = .error e) (node : NodeState) :
    (initialise payload node).1 = malformed e := by
  rw [initialise, h]

/-- What a request is refused for once it is decoded, the checks in their order. -/
def refusal? (request : Payload.InitialisationRequest) (r : Registration) :
    Option RegistrationError :=
  if trim request.nodeId.toList = [] then some .emptyNodeId
  else if Identity.isPrivateKey request.privateKey = false then some .badPrivateKey
  else if r.phase = .awaitingInitialisation then none
  else some (.alreadyInitialised r.phase)

theorem initialise_decoded {payload : List UInt8} {request : Payload.InitialisationRequest}
    (h : Payload.decode Payload.InitialisationRequest payload = .ok request) (node : NodeState) :
    (initialise payload node).1 = (refusal? request node.registration).elim
      (acknowledgement "initialisation accepted") fun e => .refuse e.message := by
  rw [initialise, h]
  dsimp only
  rw [Identity.check, refusal?]
  by_cases hid : trim request.nodeId.toList = []
  · rw [if_pos hid, if_pos hid]
    rfl
  · rw [if_neg hid, if_neg hid]
    cases Identity.isPrivateKey request.privateKey with
    | false => rfl
    | true =>
      rw [if_pos rfl, if_neg (by decide)]
      simp only [bind, Except.bind]
      cases haccepted : node.registration.initialise
          ⟨request.nodeId, request.privateKey, request.keyVersion⟩ with
      | ok r =>
        rw [if_pos (Registration.initialise_eq_ok haccepted).1]
        rfl
      | error e =>
        obtain ⟨hphase, rfl⟩ := Registration.initialise_eq_error haccepted
        rw [if_neg hphase]
        rfl

/-- A refusal shows nothing of a key that is a string, but whether it is well-formed when the node
has a key already. -/
theorem key_concealed {p v v' q : List UInt8} {k k' m m' : String} {node : NodeState}
    (hp : UpTo "private_key" p) (hv : Spelt k v) (hv' : Spelt k' v')
    (hlength : v.length = v'.length) (h : (initialise (p ++ (v ++ q)) node).1 = .refuse m)
    (h' : (initialise (p ++ (v' ++ q)) node).1 = .refuse m') :
    m = m' ∨ (node.registration.phase ≠ .awaitingInitialisation ∧
      Identity.isPrivateKey k ≠ Identity.isPrivateKey k') := by
  have hdecode := Payload.InitialisationRequest.alike_decode hp hv hv' hlength q
  generalize ho : Payload.decode Payload.InitialisationRequest (p ++ (v ++ q)) = o,
    ho' : Payload.decode Payload.InitialisationRequest (p ++ (v' ++ q)) = o' at hdecode
  cases hdecode with
  | error e =>
    rw [initialise_malformed ho] at h
    rw [initialise_malformed ho', h] at h'
    exact .inl (Outcome.refuse.inj h')
  | @ok request _ hrekeyed =>
    obtain ⟨rfl, rfl⟩ := hrekeyed
    rw [initialise_decoded ho, refusal?] at h
    rw [initialise_decoded ho', refusal?] at h'
    dsimp only at h'
    by_cases hid : trim request.nodeId.toList = []
    · rw [if_pos hid] at h h'
      exact .inl (Outcome.refuse.inj (h.symm.trans h'))
    · rw [if_neg hid] at h h'
      by_cases hsame : Identity.isPrivateKey request.privateKey = Identity.isPrivateKey k'
      · rw [← hsame, h] at h'
        exact .inl (Outcome.refuse.inj h')
      · refine .inr ⟨fun hawaiting => ?_, hsame⟩
        rw [if_pos hawaiting] at h h'
        cases hk : Identity.isPrivateKey request.privateKey with
        | true =>
          rw [hk] at h
          cases h
        | false =>
          rw [(Bool.eq_not.mpr (Ne.symm hsame)), hk] at h'
          cases h'

/-- A request up to its key. -/
def beforeKey : List UInt8 := ascii "\x7b\"node_id\":\"n\",\"private_key\":"

theorem upTo_beforeKey : UpTo "private_key" beforeKey := by
  have hid : IsChars (ascii "node_id") := isChars_plain (by decide)
  have hn : IsValue (Ascii.quote :: (ascii "n" ++ [Ascii.quote])) :=
    .string (isChars_plain (by decide))
  have hahead : Ahead ([(ascii "\"node_id\":", ascii "\"n\"")].map fun m => m.1 ++ m.2)
      (ascii "\"node_id\":\"n\",") := .cons blank_nil blank_nil (.nil blank_nil)
  refine .intro blank_nil (fun m hm => ?_) (fun m hm => ?_) hahead (spelt_quote "private_key")
    ⟨[], [], blank_nil, blank_nil, rfl⟩
  · rw [List.mem_singleton.mp hm]
    exact ⟨ascii "node_id", hid, [], [], blank_nil, blank_nil, rfl⟩
  · rw [List.mem_singleton.mp hm]
    exact hn

theorem bad_keys_concealed : UpTo "private_key" beforeKey ∧ Spelt "yy" (ascii "\"yy\"") ∧
    Spelt "zz" (ascii "\"zz\"") ∧ (ascii "\"yy\"").length = (ascii "\"zz\"").length ∧
    ∃ m m',
      (initialise (beforeKey ++ (ascii "\"yy\"" ++ ascii "\x7d")) .start).1 = .refuse m ∧
      (initialise (beforeKey ++ (ascii "\"zz\"" ++ ascii "\x7d")) .start).1 = .refuse m' ∧
      (m = m' ∨ (start.registration.phase ≠ .awaitingInitialisation ∧
        Identity.isPrivateKey "yy" ≠ Identity.isPrivateKey "zz")) := by
  have hdecode : Payload.decode Payload.InitialisationRequest
      (beforeKey ++ (ascii "\"yy\"" ++ ascii "\x7d")) = .ok ⟨"n", "yy", 0⟩ := by cbv
  have hdecode' : Payload.decode Payload.InitialisationRequest
      (beforeKey ++ (ascii "\"zz\"" ++ ascii "\x7d")) = .ok ⟨"n", "zz", 0⟩ := by cbv
  have h := initialise_decoded hdecode .start
  have h' := initialise_decoded hdecode' .start
  rw [show refusal? ⟨"n", "yy", 0⟩ start.registration = some .badPrivateKey by decide] at h
  rw [show refusal? ⟨"n", "zz", 0⟩ start.registration = some .badPrivateKey by decide] at h'
  have hspelt : Spelt "yy" (ascii "\"yy\"") := spelt_quote "yy"
  have hspelt' : Spelt "zz" (ascii "\"zz\"") := spelt_quote "zz"
  exact ⟨upTo_beforeKey, hspelt, hspelt', rfl, _, _, h, h',
    key_concealed upTo_beforeKey hspelt hspelt' rfl h h'⟩

/-- A key that is a number is shown in the refusal. -/
theorem number_shown : UpTo "private_key" beforeKey ∧ IsValue (ascii "12345") ∧
    IsValue (ascii "54321") ∧ (ascii "12345").length = (ascii "54321").length ∧
    (initialise (beforeKey ++ (ascii "12345" ++ ascii "\x7d")) .start).1 =
      .refuse ("malformed message payload: invalid type: integer `12345`, expected a string " ++
        "at line 1 column 34") ∧
    (initialise (beforeKey ++ (ascii "54321" ++ ascii "\x7d")) .start).1 =
      .refuse ("malformed message payload: invalid type: integer `54321`, expected a string " ++
        "at line 1 column 34") := by
  have hvalue : ∀ ds : List UInt8, ds ≠ [] → ds.all Ascii.isDigit = true →
      ds.head? ≠ some Ascii.zero → IsValue ds := fun ds hds hdigits hzero =>
    List.append_nil ds ▸ .number (.intro (.inl rfl)
      (.inr ⟨⟨hds, List.all_eq_true.mp hdigits⟩, hzero⟩) (.inl rfl) (.inl rfl))
  refine ⟨upTo_beforeKey, hvalue _ (by decide) rfl (by decide),
    hvalue _ (by decide) rfl (by decide), rfl, ?_, ?_⟩
  · have hdecode : Payload.decode Payload.InitialisationRequest
        (beforeKey ++ (ascii "12345" ++ ascii "\x7d")) =
          .error ⟨.wrongType (.number (.natural 12345)) "a string", 1, 34⟩ := by cbv
    rw [initialise_malformed hdecode]
    decide
  · have hdecode : Payload.decode Payload.InitialisationRequest
        (beforeKey ++ (ascii "54321" ++ ascii "\x7d")) =
          .error ⟨.wrongType (.number (.natural 54321)) "a string", 1, 34⟩ := by cbv
    rw [initialise_malformed hdecode]
    decide

end NodeState

end AdminPlane
