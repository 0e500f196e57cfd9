import AdminPlane.Channel.Key
import AdminPlane.Proofs.Text.Hex
import AdminPlane.Proofs.Text.Trim
import AdminPlane.Proofs.Text.Utf8

namespace AdminPlane.Channel

section Mark

theorem withoutMark_mark (digits : List Char) : withoutMark ("0x".toList ++ digits) = digits := rfl

theorem withoutMark_unmarked {s : List Char} (h : ¬ "0x".toList <+: s) : withoutMark s = s := by
  unfold withoutMark
  split
  · rename_i rest
    exact absurd ⟨rest, rfl⟩ h
  · rfl

/-- What begins like a mark has an `x`, which is no digit. -/
theorem digits_unmarked {digits : List Char} (h : ∀ c ∈ digits, c ∈ Text.Hex.digits) :
    ¬ "0x".toList <+: digits := by
  rintro ⟨rest, rfl⟩
  exact absurd (h 'x' (.tail _ (.head _))) (by decide)

theorem withoutMark_digits {digits : List Char} (h : ∀ c ∈ digits, c ∈ Text.Hex.digits) :
    withoutMark digits = digits :=
  withoutMark_unmarked (digits_unmarked h)

theorem withoutMark_append {mark : String} (hmark : mark ∈ ["", "0x"]) {digits : List Char}
    (h : ∀ c ∈ digits, c ∈ Text.Hex.digits) : withoutMark (mark.toList ++ digits) = digits := by
  simp only [List.mem_cons, List.not_mem_nil, or_false] at hmark
  rcases hmark with rfl | rfl
  · exact withoutMark_digits h
  · exact withoutMark_mark digits

end Mark

/-- What is left of a text less the blanks at its ends and, if it then begins with one, one mark. -/
def Bared (s : String) (body : List Char) : Prop :=
  ∃ core, Text.Trimmed s.toList core ∧
    (core = "0x".toList ++ body ∨ ¬ "0x".toList <+: core ∧ core = body)

theorem bared_iff {s : String} {body : List Char} :
    Bared s body ↔ body = withoutMark (Text.trim s.toList) := by
  simp only [Bared, Text.trimmed_iff, exists_eq_left]
  constructor
  · rintro (hmark | ⟨hnone, rfl⟩)
    · rw [hmark, withoutMark_mark]
    · exact (withoutMark_unmarked hnone).symm
  · rintro rfl
    by_cases hmark : "0x".toList <+: Text.trim s.toList
    · obtain ⟨rest, hrest⟩ := hmark
      rw [← hrest, withoutMark_mark]
      exact .inl rfl
    · exact .inr ⟨hmark, (withoutMark_unmarked hmark).symm⟩

namespace Key

/-- The halves of the bytes of a key, in their order. -/
def halves (k : Key) : List Nat := Text.Hex.halves k.bytes.toList

theorem ofBytes_eq_ok {bytes : List UInt8} {k : Key} :
    ofBytes bytes = .ok k ↔ bytes = k.bytes.toList := by
  unfold ofBytes
  split
  · rename_i h
    constructor
    · rintro ⟨⟩
      rfl
    · rintro rfl
      rfl
  · rename_i h
    constructor
    · exact nofun
    · rintro rfl
      exact absurd Vector.length_toList h

theorem ofBytes_eq_error {bytes : List UInt8} {e : KeyError} :
    ofBytes bytes = .error e ↔ bytes.length ≠ 32 ∧ e = .length bytes.length := by
  unfold ofBytes
  split
  · rename_i h
    simp [h]
  · rename_i h
    simp [h, eq_comm]

section Parse

variable {s : String} {body : List Char} (h : Bared s body)
include h

theorem parse_decoded {bytes : List UInt8} (hbytes : Text.Hex.decode? body = some bytes) :
    parse s = ofBytes bytes := by
  rw [parse, ← bared_iff.mp h, hbytes]

theorem parse_undecoded (hnone : Text.Hex.decode? body = none) : parse s = .error .encoding := by
  rw [parse, ← bared_iff.mp h, hnone]

end Parse

end Key

/-- What a text comes to as a key, by its body. -/
structure Key.Judged (s : String) (body : List Char) : Prop where
  accepted : (∃ k, Key.parse s = .ok k) ↔ body.length = 64 ∧ ∀ c ∈ body, c ∈ Text.Hex.digits
  denoted : ∀ k, Key.parse s = .ok k ↔ body.map Text.Hex.value? = k.halves.map some
  printed : ∀ k, Key.parse s = .ok k → k.hex.toList = body.map Char.toLower
  misspelt : Key.parse s = .error .encoding ↔
    (Text.Utf8.encode (String.ofList body)).length % 2 = 1 ∨ ∃ c ∈ body, c ∉ Text.Hex.digits
  misfit : ∀ n, Key.parse s = .error (.length n) ↔ (body.length ≠ 64 ∧ body.length % 2 = 0 ∧
    ∀ c ∈ body, c ∈ Text.Hex.digits) ∧ n = body.length / 2

namespace Key

theorem judged_of_decoded {s : String} {body : List Char} {bytes : List UInt8} (h : Bared s body)
    (hbytes : Text.Hex.decode? body = some bytes) : Judged s body := by
  have hparse := parse_decoded h hbytes
  have hencode := Text.Hex.encode_of_decode? hbytes
  have hlength : body.length = 2 * bytes.length := by
    rw [← Text.Hex.length_encode, hencode, List.length_map]
  obtain ⟨heven, hdigits⟩ := Text.Hex.isSome_decode?_iff.mp (Option.isSome_of_eq_some hbytes)
  have hok (k : Key) : parse s = .ok k ↔ bytes = k.bytes.toList := by
    rw [hparse, ofBytes_eq_ok]
  refine ⟨?_, fun k => ?_, fun k hk => ?_, ?_, fun n => ?_⟩
  · constructor
    · rintro ⟨k, hk⟩
      rw [hok] at hk
      rw [hlength, hk, Vector.length_toList]
      exact ⟨rfl, hdigits⟩
    · rintro ⟨h64, _⟩
      have h32 : bytes.length = 32 := by omega
      exact ⟨⟨⟨bytes.toArray, h32⟩⟩, (hok _).mpr rfl⟩
  · rw [hok, ← Option.some_inj, ← hbytes, Text.Hex.decode?_eq_some_iff]
    rfl
  · rw [hok] at hk
    rw [hex, String.toList_ofList, ← hk, hencode]
  · rw [Text.Hex.length_utf8_digits hdigits, heven, hparse, ofBytes_eq_error]
    constructor
    · rintro ⟨_, ⟨⟩⟩
    · rintro (hodd | ⟨c, hc, hnot⟩)
      · cases hodd
      · exact absurd (hdigits c hc) hnot
  · rw [hparse, ofBytes_eq_error, KeyError.length.injEq]
    constructor
    · rintro ⟨hsize, rfl⟩
      exact ⟨⟨by omega, heven, hdigits⟩, by omega⟩
    · rintro ⟨⟨hsize, _, _⟩, rfl⟩
      exact ⟨by omega, by omega⟩

theorem judged_of_undecoded {s : String} {body : List Char} (h : Bared s body)
    (hnone : Text.Hex.decode? body = none) : Judged s body := by
  have hparse := parse_undecoded h hnone
  have hnot : ¬ (body.length % 2 = 0 ∧ ∀ c ∈ body, c ∈ Text.Hex.digits) := by
    rw [← Text.Hex.isSome_decode?_iff, hnone]
    exact Bool.false_ne_true
  have herror (k : Key) : parse s ≠ .ok k := by
    rw [hparse]
    exact nofun
  refine ⟨?_, fun k => ?_, fun k hk => absurd hk (herror k), ?_, fun n => ?_⟩
  · constructor
    · rintro ⟨k, hk⟩
      exact absurd hk (herror k)
    · rintro ⟨h64, hdigits⟩
      exact absurd ⟨by omega, hdigits⟩ hnot
  · constructor
    · exact fun hk => absurd hk (herror k)
    · intro hvalues
      have hdecode : Text.Hex.decode? body = some k.bytes.toList :=
        Text.Hex.decode?_eq_some_iff.mpr hvalues
      rw [hnone] at hdecode
      cases hdecode
  · refine ⟨fun _ => ?_, fun _ => hparse⟩
    by_cases hdigits : ∀ c ∈ body, c ∈ Text.Hex.digits
    · have hodd : body.length % 2 ≠ 0 := fun heven => hnot ⟨heven, hdigits⟩
      rw [Text.Hex.length_utf8_digits hdigits]
      exact .inl (by omega)
    · simp only [not_forall] at hdigits
      obtain ⟨c, hc, hdigit⟩ := hdigits
      exact .inr ⟨c, hc, hdigit⟩
  · rw [hparse]
    constructor
    · exact nofun
    · rintro ⟨⟨_, hpairs⟩, _⟩
      exact absurd hpairs hnot

theorem judged {s : String} {body : List Char} (h : Bared s body) : Judged s body := by
  cases hdecode : Text.Hex.decode? body with
  | none => exact judged_of_undecoded h hdecode
  | some bytes => exact judged_of_decoded h hdecode

theorem decode?_hex (k : Key) : Text.Hex.decode? k.hex.toList = some k.bytes.toList := by
  rw [hex, String.toList_ofList, Text.Hex.decode?_encode]

theorem length_hex (k : Key) : k.hex.toList.length = 64 := by
  rw [hex, String.toList_ofList, Text.Hex.length_encode, Vector.length_toList]

theorem digits_hex (k : Key) : ∀ c ∈ k.hex.toList, c ∈ Text.Hex.digits :=
  (Text.Hex.isSome_decode?_iff.mp (Option.isSome_of_eq_some k.decode?_hex)).2

/-- What is written of a key, in any mix of cases and with a mark or none, between any blanks. -/
theorem parse_written (k : Key) {before after digits : List Char} {mark : String}
    (hbefore : ∀ c ∈ before, Text.isBlank c = true) (hafter : ∀ c ∈ after, Text.isBlank c = true)
    (hmark : mark ∈ ["", "0x"]) (hcase : digits.map Char.toLower = k.hex.toList) :
    parse (String.ofList (before ++ (mark.toList ++ digits) ++ after)) = .ok k := by
  have hdecode : Text.Hex.decode? digits = some k.bytes.toList := by
    rw [← Text.Hex.decode?_toLower, hcase, decode?_hex]
  have hdigits := (Text.Hex.isSome_decode?_iff.mp (Option.isSome_of_eq_some hdecode)).2
  have hcore : ∀ c ∈ mark.toList ++ digits, Text.isBlank c = false := by
    have hblank : ("0x".toList ++ Text.Hex.digits).all fun c => ¬ Text.isBlank c := by decide
    intro c hc
    have hmem : c ∈ "0x".toList ++ Text.Hex.digits := by
      rcases List.mem_append.mp hc with hc | hc
      · simp only [List.mem_cons, List.not_mem_nil, or_false] at hmark
        rcases hmark with rfl | rfl
        · cases hc
        · exact List.mem_append_left _ hc
      · exact List.mem_append_right _ (hdigits c hc)
    simpa using List.all_eq_true.mp hblank c hmem
  rw [parse, String.toList_ofList, Text.trim_between hbefore hafter, Text.trim_of_no_blank hcore,
    withoutMark_append hmark hdigits, hdecode]
  exact ofBytes_eq_ok.mpr rfl

theorem toLower_hex (k : Key) : k.hex.toList.map Char.toLower = k.hex.toList := by
  rw [← Text.Hex.encode_of_decode? k.decode?_hex, hex, String.toList_ofList]

theorem parse_hex (k : Key) : parse k.hex = .ok k := by
  have hwritten := k.parse_written (List.forall_mem_nil _) (List.forall_mem_nil _)
    (List.mem_cons_self (a := "")) k.toLower_hex
  rwa [String.toList_empty, List.nil_append, List.nil_append, List.append_nil,
    String.ofList_toList] at hwritten

/-- The texts of keys. Every text has one body, which decides what it comes to, and whatever is
written of a key comes back to it. -/
theorem parse_grammar :
    (∀ s, ∃ body, Bared s body ∧ (∀ other, Bared s other → other = body) ∧ Judged s body) ∧
    (∀ actual, (KeyError.length actual).message =
      "invalid key length: expected 32 bytes, got " ++ Decimal.natural actual) ∧
    ∀ (k : Key) (before after digits : List Char) (mark : String),
      (∀ c ∈ before, Text.isBlank c = true) → (∀ c ∈ after, Text.isBlank c = true) →
      mark ∈ ["", "0x"] → digits.map Char.toLower = k.hex.toList →
      parse (String.ofList (before ++ (mark.toList ++ digits) ++ after)) = .ok k := by
  refine ⟨fun s => ?_, fun actual => ?_, fun k before after digits mark => k.parse_written⟩
  · have hbody := bared_iff.mpr (Eq.refl (withoutMark (Text.trim s.toList)))
    refine ⟨_, hbody, fun other hother => ?_, judged hbody⟩
    rw [bared_iff.mp hother]
  · have hexpected : "invalid key length: expected " ++ Decimal.natural keySize ++ " bytes, got " =
        "invalid key length: expected 32 bytes, got " := by decide
    exact congrArg (· ++ Decimal.natural actual) hexpected

end Key

end AdminPlane.Channel
