import AdminPlane.Client.Basic
import AdminPlane.Proofs.Channel.Sealing
import AdminPlane.Proofs.Client.Address
import AdminPlane.Proofs.Payload.RoundTrip
import AdminPlane.Proofs.Server.Answer

namespace AdminPlane

open Channel (Frame Key Nonce)
open Json (accepts_string Reader.steady_string)
open Payload (Faithful Lenient faithful_of_lenient fieldOf fieldOf_of_mem lenient_of_takes steady_field
  takes_field)

theorem Payload.lenient_errorBody : Lenient ErrorBody [] := by
  refine lenient_of_takes (fun m seen => fieldOf seen "Error" m.error) rfl (fun _ => rfl)
    (fun _ => by simp) (fun _ => .scalar trivial) (fun _ => rfl) (fun m => ?_) fun m seen h => ?_
  · exact .cons (takes_field _ (accepts_string _) (fun _ => rfl) fun _ => by simp [fieldOf]) .nil
  · have herror : "Error" ∈ seen := by simpa using h
    rw [fieldOf_of_mem herror]
    rfl

theorem Payload.faithful_errorBody : Faithful ErrorBody :=
  faithful_of_lenient lenient_errorBody rfl (steady_field _ Reader.steady_string)

namespace Client

variable (c : Client)

/-- A reply comes to the client as it is. -/
theorem verdict_reply (nonce : Nonce) (frame : Frame) :
    c.verdict ((Outcome.reply frame).response c.key nonce) = .ok frame := by
  have hlength := c.key.length_sealFrame nonce frame
  have hmin : 1 < Channel.minSealedFrameSize := by decide
  have hsuccess : ((Outcome.reply frame).response c.key nonce).isSuccess = true := rfl
  rw [verdict, hsuccess, if_neg (by simp), Outcome.response, Outcome.result]
  dsimp only
  rw [if_neg (by omega), c.key.openFrame_sealFrame]

theorem refusalText_response (r : Rejection) : refusalText r.response.body = r.message := by
  have hdecode : Payload.decode ErrorBody r.response.body = .ok ⟨r.message⟩ :=
    Payload.faithful_errorBody.decode_encode ⟨r.message⟩
  rw [refusalText, hdecode]

/-- A rejection comes to the client with its status and its message. One message, that of a request
that does not verify, is taken as that at status 400. -/
theorem verdict_rejection (r : Rejection) : c.verdict r.response = .error
    (if r.status = 400 ∧ r.message = Channel.verifyFailure then .unauthenticated r.message
      else .rejected r.status r.message) := by
  have hfailure : r.response.isSuccess = false := by
    cases r
    all_goals rfl
  rw [verdict, hfailure, if_pos (by simp), refusal, refusalText_response]
  rfl

/-- No other sentence begins like the one that stands for a request that does not verify. -/
theorem append_ne_verifyFailure {text : String} {first : Char}
    (h : text.toList.head? = some first) (hfirst : first ≠ 'r') (rest : String) :
    text ++ rest ≠ Channel.verifyFailure := by
  intro he
  have hhead := congrArg (fun s : String => s.toList.head?) he
  have hfailure : Channel.verifyFailure.toList.head? = some 'r' := rfl
  simp only [String.toList_append, List.head?_append, h, Option.some_or, hfailure,
    Option.some.injEq] at hhead
  exact hfirst hhead

/-- What a handler says of a request comes to the client word for word, unless it is the one
sentence that stands for a request that does not authenticate. -/
theorem verdict_refuse (nonce : Nonce) {m : String} (h : m ≠ Channel.verifyFailure) :
    c.verdict ((Outcome.refuse m).response c.key nonce) = .error (.rejected 400 m) := by
  have hresponse : (Outcome.refuse m).response c.key nonce = (Rejection.handler m).response := rfl
  rw [hresponse, verdict_rejection]
  exact congrArg Except.error (if_neg fun hm => h hm.2)

/-- The requests of the client go to the root of its server. -/
def AtRoot : Prop := c.target.toList.takeWhile (· ≠ '?') = ['/']

theorem AtRoot.path {c : Client} (h : c.AtRoot) (asked : Nonce) (frame : Frame) :
    (c.post asked frame).path = "/" := by
  rw [Request.path]
  exact congrArg String.ofList h

/-- It is what the path of the address comes to that counts. -/
theorem atRoot_iff : c.AtRoot ↔ Address.segments c.url.toList = [[]] := by
  rw [AtRoot, target, String.toList_ofList]
  exact Address.target_root_iff c.url.toList

/-- A bare host and port leads to the root. -/
theorem atRoot_of_connect {c : Client} {addr key : String} (hc : connect addr key = .ok c)
    (haddr : ∀ x ∈ addr.toList, Address.endsHost x = false) : c.AtRoot := by
  have hurl : c.url = urlOf addr := by
    unfold connect at hc
    split at hc
    · cases hc
    · cases hc
      rfl
  have hscheme : ∀ scheme : List Char, '/' ∈ scheme → scheme.isPrefixOf addr.toList = false := by
    intro scheme hslash
    rw [Bool.eq_false_iff]
    intro hprefix
    have hmem := (List.isPrefixOf_iff_prefix.mp hprefix).subset hslash
    cases haddr _ hmem
  have hplain : c.url = "http://" ++ addr := by
    rw [hurl, urlOf, hscheme _ (by decide), hscheme _ (by decide)]
    rfl
  rw [atRoot_iff, hplain, String.toList_append]
  exact Address.segments_host haddr

end Client

end AdminPlane
