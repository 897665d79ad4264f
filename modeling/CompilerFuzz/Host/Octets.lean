/-
  CompilerFuzz.Host.Octets

  Texts as programs of the host pass them on. They are made of bytes; here each byte is held as
  the character of the same number, so that scripts and output can be read and written as text.
-/
import CompilerFuzz.Text.Utf8

namespace CompilerFuzz.Host

open CompilerFuzz.Text

/-- Bytes, each as the character of its number. -/
abbrev Octets := List Char

namespace Octets

/-- Bytes as characters. -/
def ofBytes (bs : Bytes) : Octets :=
  bs.map fun b => Char.ofNat b.toNat

/-- Characters as bytes. -/
def toBytes (cs : Octets) : Bytes :=
  cs.map fun c => UInt8.ofNat c.toNat

/-- The bytes of a text. -/
def ofText (s : String) : Octets := ofBytes (bytesOf s)

/-- The text of bytes, with a sign of its own for what is none. -/
def toText (cs : Octets) : String := textOfLossy cs.toBytes

/-- Texts in their order. -/
def sorted (ls : List Octets) : List Octets :=
  ls.mergeSort fun (a b : Octets) => (compare a b).isLE

end Octets

end CompilerFuzz.Host
