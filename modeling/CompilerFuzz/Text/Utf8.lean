/-
  CompilerFuzz.Text.Utf8

  UTF-8 in both directions. A byte stream is cut into units: a well-formed character,
  or a maximal ill-formed piece (the longest start of some character, or one byte
  that starts none). The lossy reading shows each ill-formed piece as one U+FFFD; the
  strict reading accepts a stream only if it has no such piece.
-/

namespace CompilerFuzz.Text

/-- Raw bytes: the content of a file, the output of a tool. -/
abbrev Bytes := List UInt8

namespace Utf8

/-! ## Writing -/

/-- The bytes of one character. -/
def encodeChar (c : Char) : Bytes :=
  String.utf8EncodeChar c

/-- The bytes of a text. -/
def encode (cs : List Char) : Bytes :=
  cs.flatMap encodeChar

/-! ## Reading -/

/-- What a first byte announces: the bits it contributes, how many bytes follow,
    and the range of the next one (narrower after some first bytes, so that no
    character has two spellings and no surrogate has any). -/
structure Lead where
  bits : Nat
  more : Nat
  low : UInt8
  high : UInt8
  deriving DecidableEq, Repr

/-- What `b` announces as a first byte; `none` if it starts no character. -/
def lead? (b : UInt8) : Option Lead :=
  if b < 0x80 then some ⟨b.toNat, 0, 0x80, 0xBF⟩
  -- following bytes, and first bytes of spellings that are longer than they need be
  else if b < 0xC2 then none
  else if b < 0xE0 then some ⟨b.toNat - 0xC0, 1, 0x80, 0xBF⟩
  else if b < 0xF0 then
    some ⟨b.toNat - 0xE0, 2, if b = 0xE0 then 0xA0 else 0x80, if b = 0xED then 0x9F else 0xBF⟩
  else if b < 0xF5 then
    some ⟨b.toNat - 0xF0, 3, if b = 0xF0 then 0x90 else 0x80, if b = 0xF4 then 0x8F else 0xBF⟩
  else none

/-- Reads `more` following bytes, the next one between `low` and `high`. The answer
    holds the scalar value, or `none` if a byte does not fit; the rest starts at the
    byte that does not fit. -/
def follow : (more : Nat) → (low high : UInt8) → (bits : Nat) → Bytes → Option Nat × Bytes
  | 0, _, _, bits, rest => (some bits, rest)
  | _ + 1, _, _, _, [] => (none, [])
  | more + 1, low, high, bits, b :: rest =>
    if low ≤ b ∧ b ≤ high then
      follow more 0x80 0xBF (bits * 64 + (b.toNat - 0x80)) rest
    -- the byte that does not fit may start a character
    else (none, b :: rest)

theorem length_follow_le (more : Nat) (low high : UInt8) (bits : Nat) (bs : Bytes) :
    (follow more low high bits bs).2.length ≤ bs.length := by
  induction more generalizing low high bits bs with
  | zero => simp [follow]
  | succ more ih =>
    cases bs with
    | nil => simp [follow]
    | cons b rest =>
      simp only [follow]
      split
      · exact Nat.le_succ_of_le (ih ..)
      · exact Nat.le_refl _

/-- The units of a stream: `some c` for a character, `none` for an ill-formed piece. -/
def units : Bytes → List (Option Char)
  | [] => []
  | b :: rest =>
    match lead? b with
    | none => none :: units rest
    | some l =>
      let step := follow l.more l.low l.high l.bits rest
      step.1.map Char.ofNat :: units step.2
termination_by bs => bs.length
decreasing_by
  · simp
  · exact Nat.lt_succ_of_le (length_follow_le ..)

/-- What stands for an ill-formed piece. -/
def replacement : Char := '\uFFFD'

/-- The text of a stream, with U+FFFD for each ill-formed piece. -/
def decodeLossy (bs : Bytes) : List Char :=
  (units bs).map fun u => u.getD replacement

/-- The text of a stream that has no ill-formed piece. -/
def decode? (bs : Bytes) : Option (List Char) :=
  (units bs).mapM id

end Utf8

/-- The bytes of a text. -/
def bytesOf (s : String) : Bytes :=
  Utf8.encode s.toList

/-- The text of a stream, with U+FFFD for each ill-formed piece. -/
def textOfLossy (bs : Bytes) : String :=
  String.ofList (Utf8.decodeLossy bs)

/-- The text of a well-formed stream. -/
def textOf? (bs : Bytes) : Option String :=
  (Utf8.decode? bs).map String.ofList

end CompilerFuzz.Text
