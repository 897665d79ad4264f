/-
  CompilerFuzz.Proofs.Text.Decoding

  Reading UTF-8 undoes writing it, and finds its way back into a text after a cut. A written
  character is one unit, whatever stands behind it (`units_encodeChar_append`), so a text is read
  back (`decode?_encode`). All bytes of a character but the first are `Following`: none of them
  starts a character, and each is an ill-formed piece of its own (`units_following_append`).
  What is cut within a character is therefore read as one replacement for each byte that is
  left of it, and then as the text behind it (`decodeLossy_following_append`).
-/
import CompilerFuzz.Text.Utf8

namespace CompilerFuzz.Text

namespace Utf8

variable {b : UInt8} {bs rest : Bytes} {l : Lead} {x : Nat}

/-- A byte that stands within a character and starts none. -/
def Following (b : UInt8) : Prop := 0x80 ≤ b.toNat ∧ b.toNat < 0xC0

/-- The byte that carries six bits of a character behind its first byte. -/
def followingByte (x : Nat) : UInt8 := UInt8.ofNat (x + 0x80)

theorem toNat_followingByte (hx : x < 64) : (followingByte x).toNat = x + 0x80 :=
  UInt8.toNat_ofNat_of_lt' (by omega : x + 0x80 < 2 ^ 8)

theorem following_followingByte (hx : x < 64) : Following (followingByte x) := by
  unfold Following
  rw [toNat_followingByte hx]
  omega

/-! ## One unit -/

theorem units_cons_of_lead (h : lead? b = some l) :
    units (b :: rest) = (follow l.more l.low l.high l.bits rest).1.map Char.ofNat ::
      units (follow l.more l.low l.high l.bits rest).2 := by
  rw [units, h]

theorem units_cons_of_no_lead (h : lead? b = none) : units (b :: rest) = none :: units rest := by
  rw [units, h]

/-- The following byte is in the range that is asked for, and adds its six bits. -/
theorem follow_followingByte {more bits : Nat} {low high : UInt8} (hx : x < 64)
    (hlow : low.toNat ≤ x + 0x80) (hhigh : x + 0x80 ≤ high.toNat) :
    follow (more + 1) low high bits (followingByte x :: rest) =
      follow more 0x80 0xBF (bits * 64 + x) rest := by
  have hbyte := toNat_followingByte hx
  have hrange : low ≤ followingByte x ∧ followingByte x ≤ high := by
    rw [UInt8.le_iff_toNat_le, UInt8.le_iff_toNat_le, hbyte]
    exact ⟨hlow, hhigh⟩
  rw [follow, if_pos hrange, hbyte, Nat.add_sub_cancel]

theorem follow_followingByte_plain {more bits : Nat} (hx : x < 64) :
    follow (more + 1) 0x80 0xBF bits (followingByte x :: rest) =
      follow more 0x80 0xBF (bits * 64 + x) rest := by
  apply follow_followingByte hx
  · show 0x80 ≤ x + 0x80
    omega
  · show x + 0x80 ≤ 0xBF
    omega

/-- Behind some first bytes the range is narrower. -/
theorem follow_followingByte_narrow {more bits : Nat} {low high : UInt8} {p q : Prop}
    [Decidable p] [Decidable q] (hx : x < 64) (hlow : p → low.toNat ≤ x + 0x80)
    (hhigh : q → x + 0x80 ≤ high.toNat) :
    follow (more + 1) (if p then low else 0x80) (if q then high else 0xBF) bits
        (followingByte x :: rest) =
      follow more 0x80 0xBF (bits * 64 + x) rest := by
  apply follow_followingByte hx
  · split
    · next hp => exact hlow hp
    · show 0x80 ≤ x + 0x80
      omega
  · split
    · next hq => exact hhigh hq
    · show x + 0x80 ≤ 0xBF
      omega

theorem lead?_of_following (h : Following b) : lead? b = none := by
  have hlow : ¬ b < 0x80 := by
    rw [UInt8.lt_iff_toNat_lt]
    exact Nat.not_lt.2 h.1
  have hhigh : b < 0xC2 := by
    rw [UInt8.lt_iff_toNat_lt]
    exact Nat.lt_trans h.2 (by decide)
  rw [lead?, if_neg hlow, if_pos hhigh]

theorem lead?_one : ∀ n < 0x80, lead? (UInt8.ofNat n) = some ⟨n, 0, 0x80, 0xBF⟩ := by
  decide

theorem lead?_two : ∀ n < 32, 2 ≤ n →
    lead? (UInt8.ofNat (n + 0xC0)) = some ⟨n, 1, 0x80, 0xBF⟩ := by
  decide

theorem lead?_three : ∀ n < 16, lead? (UInt8.ofNat (n + 0xE0)) =
    some ⟨n, 2, if n = 0 then 0xA0 else 0x80, if n = 13 then 0x9F else 0xBF⟩ := by
  decide

theorem lead?_four : ∀ n < 5, lead? (UInt8.ofNat (n + 0xF0)) =
    some ⟨n, 3, if n = 0 then 0x90 else 0x80, if n = 4 then 0x8F else 0xBF⟩ := by
  decide

/-! ## One character -/

/-- A character by the bits of its bytes: one byte, or a first byte and up to three following
    ones. Shorter spellings and surrogates are ruled out. -/
inductive Spelled (n : Nat) : Bytes → Prop
  | one (h : n < 0x80) : Spelled n [UInt8.ofNat n]
  | two {x y : Nat} (hx : x < 32) (hx' : 2 ≤ x) (hy : y < 64) (hn : n = x * 64 + y) :
      Spelled n [UInt8.ofNat (x + 0xC0), followingByte y]
  | three {x y z : Nat} (hx : x < 16) (hy : y < 64) (hz : z < 64) (hlong : x = 0 → 32 ≤ y)
      (hsurrogate : x = 13 → y < 32) (hn : n = (x * 64 + y) * 64 + z) :
      Spelled n [UInt8.ofNat (x + 0xE0), followingByte y, followingByte z]
  | four {w x y z : Nat} (hw : w < 5) (hx : x < 64) (hy : y < 64) (hz : z < 64)
      (hlong : w = 0 → 16 ≤ x) (hlast : w = 4 → x < 16) (hn : n = ((w * 64 + x) * 64 + y) * 64 + z) :
      Spelled n [UInt8.ofNat (w + 0xF0), followingByte x, followingByte y, followingByte z]

theorem spelled_encodeChar (c : Char) : Spelled c.toNat (encodeChar c) := by
  have hvalid : c.val.toNat < 0xD800 ∨ 0xDFFF < c.val.toNat ∧ c.val.toNat < 0x110000 := c.valid
  show Spelled c.val.toNat _
  unfold encodeChar String.utf8EncodeChar
  dsimp only
  generalize c.val.toNat = n at *
  -- of one to four bytes, by the number; the leading byte holds what six bits each leave over
  split
  · exact .one (by omega)
  · split
    · have hx : n / 64 % 32 = n / 64 := by omega
      rw [hx]
      exact .two (by omega) (by omega) (by omega) (by omega)
    · split
      · have hx : n / 4096 % 16 = n / 4096 := by omega
        rw [hx]
        exact .three (by omega) (by omega) (by omega) (by omega) (by omega) (by omega)
      · have hx : n / 262144 % 8 = n / 262144 := by omega
        rw [hx]
        exact .four (by omega) (by omega) (by omega) (by omega) (by omega) (by omega) (by omega)

namespace Spelled

variable {n : Nat}

/-- The bits of the bytes are put together again. -/
theorem units_append (h : Spelled n bs) (rest : Bytes) :
    units (bs ++ rest) = some (Char.ofNat n) :: units rest := by
  cases h with
  | one h =>
    rw [List.singleton_append, units_cons_of_lead (lead?_one n h)]
    rfl
  | two hx hx' hy hn =>
    rw [List.cons_append, units_cons_of_lead (lead?_two _ hx hx'), List.singleton_append]
    dsimp only
    rw [follow_followingByte_plain hy, ← hn]
    rfl
  | @three x y z hx hy hz hlong hsurrogate hn =>
    -- the first of the following bytes is bounded further: no number has two spellings, and no
    -- half of a surrogate pair has one
    have hlow : x = 0 → 0xA0 ≤ y + 0x80 := fun h => by
      have := hlong h
      omega
    have hhigh : x = 13 → y + 0x80 ≤ 0x9F := fun h => by
      have := hsurrogate h
      omega
    rw [List.cons_append, units_cons_of_lead (lead?_three x hx), List.cons_append,
      List.singleton_append]
    dsimp only
    rw [follow_followingByte_narrow hy hlow hhigh, follow_followingByte_plain hz, ← hn]
    rfl
  | @four w x y z hw hx hy hz hlong hlast hn =>
    -- here the bounds leave out shorter spellings and numbers beyond the last character
    have hlow : w = 0 → 0x90 ≤ x + 0x80 := fun h => by
      have := hlong h
      omega
    have hhigh : w = 4 → x + 0x80 ≤ 0x8F := fun h => by
      have := hlast h
      omega
    rw [List.cons_append, units_cons_of_lead (lead?_four w hw), List.cons_append, List.cons_append,
      List.singleton_append]
    dsimp only
    rw [follow_followingByte_narrow hx hlow hhigh, follow_followingByte_plain hy,
      follow_followingByte_plain hz, ← hn]
    rfl

theorem length_le (h : Spelled n bs) : bs.length ≤ 4 := by
  cases h <;> simp

theorem following_of_mem_tail (h : Spelled n bs) : ∀ b ∈ bs.tail, Following b := by
  cases h with
  | one h => exact List.forall_mem_nil _
  | two _ _ hy _ => simp [following_followingByte hy]
  | three _ hy hz _ _ _ => simp [following_followingByte hy, following_followingByte hz]
  | four _ hx hy hz _ _ _ =>
    simp [following_followingByte hx, following_followingByte hy, following_followingByte hz]

end Spelled

theorem length_encodeChar_le (c : Char) : (encodeChar c).length ≤ 4 :=
  (spelled_encodeChar c).length_le

/-- Behind its first byte a character has following bytes only. -/
theorem following_of_mem_drop {c : Char} {k : Nat} (hk : 0 < k) :
    ∀ b ∈ (encodeChar c).drop k, Following b := by
  intro b hb
  refine (spelled_encodeChar c).following_of_mem_tail b ?_
  obtain ⟨m, rfl⟩ := Nat.exists_eq_succ_of_ne_zero (Nat.ne_of_gt hk)
  rw [← List.drop_one]
  rw [Nat.succ_eq_one_add, ← List.drop_drop] at hb
  exact List.mem_of_mem_drop hb

theorem units_encodeChar_append (c : Char) (rest : Bytes) :
    units (encodeChar c ++ rest) = some c :: units rest := by
  rw [(spelled_encodeChar c).units_append, Char.ofNat_toNat]

/-! ## Texts -/

theorem encode_cons (c : Char) (cs : List Char) : encode (c :: cs) = encodeChar c ++ encode cs :=
  List.flatMap_cons

theorem units_nil : units [] = [] := by
  rw [units]

theorem units_encode (cs : List Char) : units (encode cs) = cs.map some := by
  induction cs with
  | nil => exact units_nil
  | cons c cs ih => rw [encode_cons, units_encodeChar_append, ih, List.map_cons]

/-- Following bytes in front of a stream are ill-formed, each by itself. -/
theorem units_following_append (h : ∀ b ∈ bs, Following b) (rest : Bytes) :
    units (bs ++ rest) = List.replicate bs.length none ++ units rest := by
  induction bs with
  | nil => rfl
  | cons b bs ih =>
    obtain ⟨hb, hbs⟩ := List.forall_mem_cons.1 h
    rw [List.cons_append, units_cons_of_no_lead (lead?_of_following hb), ih hbs]
    rfl

theorem decodeLossy_following_append (h : ∀ b ∈ bs, Following b) (cs : List Char) :
    decodeLossy (bs ++ encode cs) = List.replicate bs.length replacement ++ cs := by
  unfold decodeLossy
  rw [units_following_append h, units_encode, List.map_append, List.map_replicate, List.map_map]
  congr 1
  exact List.map_id cs

theorem decodeLossy_encode (cs : List Char) : decodeLossy (encode cs) = cs :=
  decodeLossy_following_append (List.forall_mem_nil _) cs

theorem decode?_encode (cs : List Char) : decode? (encode cs) = some cs := by
  unfold decode?
  rw [units_encode]
  induction cs with
  | nil => rfl
  | cons c cs ih => simp [ih]

end Utf8

/-- The bytes of a text are well-formed, and are read as that text. -/
theorem textOf?_bytesOf (s : String) : textOf? (bytesOf s) = some s := by
  unfold textOf? bytesOf
  rw [Utf8.decode?_encode, Option.map_some, String.ofList_toList]

example : Utf8.decodeLossy ((bytesOf "é!").drop 1) = ['\uFFFD', '!'] := by decide +kernel

end CompilerFuzz.Text
