namespace AdminPlane.Text.Utf8

def encode (s : String) : List UInt8 := s.toList.flatMap String.utf8EncodeChar

def isTail (b : UInt8) : Bool := 0x80 ≤ b && b ≤ 0xBF

/-- Whether `b` may follow the first byte `a` of a sequence of three. -/
def secondOfThree (a b : UInt8) : Bool :=
  if a = 0xE0 then 0xA0 ≤ b && b ≤ 0xBF
  else if a = 0xED then 0x80 ≤ b && b ≤ 0x9F
  else isTail b

/-- Whether `b` may follow the first byte `a` of a sequence of four. -/
def secondOfFour (a b : UInt8) : Bool :=
  if a = 0xF0 then 0x90 ≤ b && b ≤ 0xBF
  else if a = 0xF4 then 0x80 ≤ b && b ≤ 0x8F
  else isTail b

def low6 (b : UInt8) : Nat := b.toNat % 64

/-- The scalar values in order. A `none` stands for one broken start: the longest run of bytes
that begins some scalar value without completing it, or a single byte that begins none. -/
def scan : List UInt8 → List (Option Char)
  | [] => []
  | a :: s =>
    if a < 0x80 then some (Char.ofNat a.toNat) :: scan s
    else if 0xC2 ≤ a && a ≤ 0xDF then
      match s with
      | [] => [none]
      | b :: s' =>
        if isTail b then some (Char.ofNat (a.toNat % 32 * 64 + low6 b)) :: scan s'
        else none :: scan (b :: s')
    else if 0xE0 ≤ a && a ≤ 0xEF then
      match s with
      | [] => [none]
      | b :: s' =>
        if secondOfThree a b then
          match s' with
          | [] => [none]
          | c :: s'' =>
            if isTail c then
              some (Char.ofNat (a.toNat % 16 * 4096 + low6 b * 64 + low6 c)) :: scan s''
            else none :: scan (c :: s'')
        else none :: scan (b :: s')
    else if 0xF0 ≤ a && a ≤ 0xF4 then
      match s with
      | [] => [none]
      | b :: s' =>
        if secondOfFour a b then
          match s' with
          | [] => [none]
          | c :: s'' =>
            if isTail c then
              match s'' with
              | [] => [none]
              | d :: s''' =>
                if isTail d then
                  some (Char.ofNat
                    (a.toNat % 8 * 262144 + low6 b * 4096 + low6 c * 64 + low6 d)) :: scan s'''
                else none :: scan (d :: s''')
            else none :: scan (c :: s'')
        else none :: scan (b :: s')
    else none :: scan s

/-- `none` unless the bytes are well-formed throughout. -/
def decode? (bytes : List UInt8) : Option String :=
  ((scan bytes).mapM id).map String.ofList

/-- How many bytes a text has. -/
def size (s : List Char) : Nat := s.foldr (fun c n => c.utf8Size + n) 0

/-- How many bytes stand before the first broken start. -/
def wellFormedLength (bytes : List UInt8) : Nat :=
  size (((scan bytes).takeWhile Option.isSome).filterMap id)

/-- A text cut behind its first `n` bytes, unless that is inside a character or behind the end. -/
def cut? (n : Nat) : List Char → Option (List Char × List Char)
  | [] => if n = 0 then some ([], []) else none
  | c :: s =>
    if n = 0 then some ([], c :: s)
    else if n < c.utf8Size then none
    else (cut? (n - c.utf8Size) s).map fun (head, tail) => (c :: head, tail)

/-- Each broken start becomes one replacement character. -/
def lossy (bytes : List UInt8) : String :=
  String.ofList ((scan bytes).map (·.getD (Char.ofNat 0xFFFD)))

end AdminPlane.Text.Utf8
