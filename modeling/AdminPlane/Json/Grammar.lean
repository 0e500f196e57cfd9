import AdminPlane.Json.Reader
import AdminPlane.Json.Value
import Mathlib.Data.List.Forall2

/-!
What a text of a document is, apart from any reader. `IsValue` is the grammar of values. `Says` gives
the texts that say what a document says to one who passes over what he does not know.
-/

namespace AdminPlane.Json

open AdminPlane.Text AdminPlane.Text.Ascii

/-- All that may stand between two tokens. -/
def Blank (w : List UInt8) : Prop := ∀ b ∈ w, isSpace b = true

/-- A byte that stands for itself inside a string. -/
def IsPlain (b : UInt8) : Prop := b ≠ Ascii.quote ∧ b ≠ backslash ∧ ¬ b < 0x20
deriving Decidable

/-- The number that four hex digits denote. -/
def hexValue? (digits : List UInt8) : Option Nat :=
  if digits.length = 4 then
    (digits.mapM fun b => Hex.value? (Char.ofNat b.toNat)).map fun ds =>
      ds.foldl (fun n d => 16 * n + d) 0
  else none

/-- What stands between the quotes of a string. Surrogates need no partner, and the bytes need not be
well-formed. -/
inductive IsChars : List UInt8 → Prop
  | nil : IsChars []
  | plain {b : UInt8} {s : List UInt8} (hb : IsPlain b) (hs : IsChars s) : IsChars (b :: s)
  | short {letter : UInt8} {s : List UInt8} (h : (Text.shortEscape? letter).isSome = true)
      (hs : IsChars s) : IsChars (backslash :: letter :: s)
  | unicode {digits s : List UInt8} (h : (hexValue? digits).isSome = true) (hs : IsChars s) :
      IsChars (backslash :: lowerU :: (digits ++ s))

/-- What stands between the quotes of a string where it denotes the character `c`. -/
inductive Denotes : List UInt8 → Char → Prop
  | plain {c : Char} (hquote : c ≠ '"') (hbackslash : c ≠ '\\') (hc : ¬ c.toNat < 0x20) :
      Denotes (String.utf8EncodeChar c) c
  | short {letter b : UInt8} (h : Text.shortEscape? letter = some b) :
      Denotes [backslash, letter] (Char.ofNat b.toNat)
  | unicode {digits : List UInt8} {n : Nat} (h : hexValue? digits = some n)
      (hn : n < 0xD800 ∨ 0xDFFF < n) : Denotes (backslash :: lowerU :: digits) (Char.ofNat n)
  | pair {digits digits' : List UInt8} {high low : Nat} (h : hexValue? digits = some high)
      (h' : hexValue? digits' = some low) (hhigh : 0xD800 ≤ high ∧ high ≤ 0xDBFF)
      (hlow : 0xDC00 ≤ low ∧ low ≤ 0xDFFF) :
      Denotes (backslash :: lowerU :: (digits ++ backslash :: lowerU :: digits'))
        (Char.ofNat (0x10000 + 0x400 * (high - 0xD800) + (low - 0xDC00)))

/-- A text of the string `s`, with its quotes. -/
def Spelt (s : String) (text : List UInt8) : Prop :=
  ∃ pieces, List.Forall₂ Denotes pieces s.toList ∧
    text = Ascii.quote :: (pieces.flatten ++ [Ascii.quote])

def IsDigits (ds : List UInt8) : Prop := ds ≠ [] ∧ ∀ d ∈ ds, isDigit d = true

/-- A zero stands alone. -/
def IsWhole (ds : List UInt8) : Prop := ds = [zero] ∨ (IsDigits ds ∧ ds.head? ≠ some zero)

def IsFraction (t : List UInt8) : Prop := t = [] ∨ ∃ ds, IsDigits ds ∧ t = point :: ds

def IsExponent (t : List UInt8) : Prop :=
  t = [] ∨ ∃ e sign ds, (e = 0x65 ∨ e = 0x45) ∧ (sign = [] ∨ sign = [plus] ∨ sign = [minus]) ∧
    IsDigits ds ∧ t = e :: (sign ++ ds)

/-- Numbers have no range. -/
inductive IsNumber : List UInt8 → Prop
  | intro {sign whole fraction exponent : List UInt8} (hsign : sign = [] ∨ sign = [minus])
      (hwhole : IsWhole whole) (hfraction : IsFraction fraction)
      (hexponent : IsExponent exponent) :
      IsNumber (sign ++ (whole ++ (fraction ++ exponent)))

/-- Pieces, each behind a comma. -/
inductive Behind : List (List UInt8) → List UInt8 → Prop
  | nil {w : List UInt8} (hw : Blank w) : Behind [] w
  | cons {w w' piece : List UInt8} {pieces : List (List UInt8)} {t : List UInt8} (hw : Blank w)
      (hw' : Blank w') (ht : Behind pieces t) :
      Behind (piece :: pieces) (w ++ comma :: (w' ++ (piece ++ t)))

/-- Pieces, each in front of a comma. -/
inductive Ahead : List (List UInt8) → List UInt8 → Prop
  | nil {w : List UInt8} (hw : Blank w) : Ahead [] w
  | cons {w w' piece : List UInt8} {pieces : List (List UInt8)} {t : List UInt8} (hw : Blank w)
      (hw' : Blank w') (ht : Ahead pieces t) :
      Ahead (piece :: pieces) (w ++ (piece ++ (w' ++ comma :: t)))

/-- What stands inside a pair of brackets. -/
inductive Laid : List (List UInt8) → List UInt8 → Prop
  | nil {w : List UInt8} (hw : Blank w) : Laid [] w
  | cons {w piece : List UInt8} {pieces : List (List UInt8)} {t : List UInt8} (hw : Blank w)
      (ht : Behind pieces t) : Laid (piece :: pieces) (w ++ (piece ++ t))

/-- A key with its colon, up to the value of the member. -/
def Heads (key head : List UInt8) : Prop :=
  ∃ w w', Blank w ∧ Blank w' ∧ head = key ++ (w ++ colon :: w')

/-- The texts of values, of any depth. -/
inductive IsValue : List UInt8 → Prop
  | null : IsValue (ascii "null")
  | bool (b : Bool) : IsValue (literal b)
  | number {t : List UInt8} (h : IsNumber t) : IsValue t
  | string {t : List UInt8} (h : IsChars t) : IsValue (Ascii.quote :: (t ++ [Ascii.quote]))
  | array {items : List (List UInt8)} {t : List UInt8} (hitems : ∀ item ∈ items, IsValue item)
      (ht : Laid items t) : IsValue (openBracket :: (t ++ [closeBracket]))
  | object {members : List (List UInt8 × List UInt8)} {t : List UInt8}
      (hheads : ∀ m ∈ members, ∃ key, IsChars key ∧
        Heads (Ascii.quote :: (key ++ [Ascii.quote])) m.1)
      (hvalues : ∀ m ∈ members, IsValue m.2) (ht : Laid (members.map fun m => m.1 ++ m.2) t) :
      IsValue (openBrace :: (t ++ [closeBrace]))

/-- An object up to the value of one of its members. -/
inductive UpTo (name : String) : List UInt8 → Prop
  | intro {w t key head : List UInt8} {members : List (List UInt8 × List UInt8)} (hw : Blank w)
      (hheads : ∀ m ∈ members, ∃ key, IsChars key ∧
        Heads (Ascii.quote :: (key ++ [Ascii.quote])) m.1)
      (hvalues : ∀ m ∈ members, IsValue m.2) (ht : Ahead (members.map fun m => m.1 ++ m.2) t)
      (hkey : Spelt name key) (hhead : Heads key head) :
      UpTo name (w ++ openBrace :: (t ++ head))

/-- A member as it is written. -/
structure Entry where
  name : String
  key : List UInt8
  head : List UInt8
  value : List UInt8
  spelt : Spelt name key
  heads : Heads key head

def Entry.text (e : Entry) : List UInt8 := e.head ++ e.value

/-- The members that are written of those the document has, in the order in which they are. -/
def namesIn (members : List (String × Json)) (entries : List Entry) : List String :=
  (entries.map (·.name)).filter (· ∈ members.map (·.1))

def IsScalar : Json → Prop
  | array _ => False
  | object _ => False
  | _ => True

/-- The text says what the document says. In an object each member is written once, in any order,
among members of other names. A member that is among the defaults need not be written. -/
inductive Says : List (String × Json) → Json → List UInt8 → Prop
  | scalar {defaults : List (String × Json)} {j : Json} (h : j.IsScalar) :
      Says defaults j j.compact
  | array {defaults : List (String × Json)} {items : List Json} {texts : List (List UInt8)}
      {t : List UInt8} (hitems : List.Forall₂ (Says []) items texts) (ht : Laid texts t) :
      Says defaults (.array items) (openBracket :: (t ++ [closeBracket]))
  | object {defaults members : List (String × Json)} {entries : List Entry} {t : List UInt8}
      (known : ∀ e ∈ entries, ∀ j, (e.name, j) ∈ members → Says [] j e.value)
      (unknown : ∀ e ∈ entries, e.name ∉ members.map (·.1) → IsValue e.value)
      (once : (namesIn members entries).Nodup)
      (all : ∀ m ∈ members, m.1 ∈ entries.map (·.name) ∨ m ∈ defaults)
      (ht : Laid (entries.map Entry.text) t) :
      Says defaults (.object members) (openBrace :: (t ++ [closeBrace]))

end AdminPlane.Json
