import AdminPlane.Proofs.Json.Shapes
import AdminPlane.Proofs.Json.Strings

namespace AdminPlane.Json

open AdminPlane.Text AdminPlane.Text.Ascii

/-- A document begins with a byte that neither a space nor the end of a list begins with. -/
theorem compact_starts (j : Json) :
    ∃ b s, j.compact = b :: s ∧ isSpace b = false ∧ b ≠ closeBracket := by
  cases j with
  | null => exact ⟨_, _, by rw [compact]; rfl, by decide, by decide⟩
  | bool b =>
    cases b with
    | true => exact ⟨_, _, by rw [compact]; rfl, by decide, by decide⟩
    | false => exact ⟨_, _, by rw [compact]; rfl, by decide, by decide⟩
  | integer i =>
    rw [compact, Number.ascii_integer]
    split
    · exact ⟨_, _, rfl, by decide, by decide⟩
    · obtain ⟨d, ds, hd, hdigit⟩ := Number.written_cons i.toNat
      refine ⟨d, ds, hd, Number.isSpace_of_isDigit hdigit, ?_⟩
      rintro rfl
      cases hdigit
  | string s => exact ⟨_, _, by rw [compact, quote]; rfl, by decide, by decide⟩
  | array items => exact ⟨_, _, by rw [compact]; rfl, by decide, by decide⟩
  | object members => exact ⟨_, _, by rw [compact]; rfl, by decide, by decide⟩

/-- The items behind the first one, each with the comma before it. -/
def itemsBehind : List Json → List UInt8
  | [] => []
  | item :: rest => comma :: item.compact ++ itemsBehind rest

/-- The members behind the first one, each with the comma before it. -/
def membersBehind : List (String × Json) → List UInt8
  | [] => []
  | (name, value) :: rest => comma :: quote name ++ colon :: value.compact ++ membersBehind rest

theorem compactItems_cons (item : Json) (rest : List Json) :
    compactItems (item :: rest) = item.compact ++ itemsBehind rest := by
  induction rest generalizing item with
  | nil => rw [compactItems, itemsBehind, List.append_nil]
  | cons next rest ih =>
    rw [compactItems, itemsBehind, ih, List.cons_append]
    exact fun h => by cases h

theorem compactMembers_cons (name : String) (value : Json) (rest : List (String × Json)) :
    compactMembers ((name, value) :: rest) =
      quote name ++ colon :: value.compact ++ membersBehind rest := by
  induction rest generalizing name value with
  | nil => rw [compactMembers, membersBehind, List.append_nil]
  | cons next rest ih =>
    rw [compactMembers, membersBehind, ih]
    · simp
    · exact fun h => by cases h

theorem reads_null (r : Reader α) : Reads (Reader.nullable r) .null none := by
  intro rest _
  have hword := word_ok (w := "null") (b := 0x6E) rfl rfl rest
  have hpeek : peekToken (ascii "null" ++ rest) = .ok (some 0x6E, ascii "null" ++ rest) := rfl
  rw [compact, Reader.nullable, bind_of_ok hpeek, if_pos rfl, bind_of_ok hword]
  rfl

theorem reads_variant {variants : List (String × α)} {name : String} {x : α}
    (h : variants.find? (·.1 = name) = some (name, x)) :
    Reads (Variant.read variants) (.string name) x := by
  intro rest _
  have hpeek : peekToken (quote name ++ rest) = .ok (some Ascii.quote, quote name ++ rest) := rfl
  rw [compact, Variant.read, bind_of_ok hpeek]
  dsimp only
  rw [if_pos rfl, bind_of_ok (Text.read_quote name rest), Variant.choose, h]
  rfl

end AdminPlane.Json
