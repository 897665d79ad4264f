/-
  CompilerFuzz.Text.ByteOrder

  Texts in the order of their UTF-8 bytes. The order is total, and only equal texts
  compare as equal.
-/
import CompilerFuzz.Text.Utf8

namespace CompilerFuzz.Text

/-- Compares two texts byte by byte; a proper start of a text comes before it. -/
def byteOrder (a b : String) : Ordering :=
  compare (bytesOf a) (bytesOf b)

/-- The bytes written here are the ones that the core library stores. -/
theorem toByteArray_bytesOf (s : String) : (bytesOf s).toByteArray = s.toByteArray := by
  have h : (String.ofList s.toList).toByteArray = s.toByteArray := by simp
  rw [← h, String.toByteArray_ofList]
  rfl

theorem bytesOf_inj {a b : String} (h : bytesOf a = bytesOf b) : a = b := by
  rw [← String.toByteArray_inj, ← toByteArray_bytesOf a, ← toByteArray_bytesOf b, h]

/-- Bytes compare by a total order in which only equal lists are equal. -/
theorem transCmp_bytes : Std.TransCmp (compare : Bytes → Bytes → Ordering) := inferInstance

theorem lawfulEqCmp_bytes : Std.LawfulEqCmp (compare : Bytes → Bytes → Ordering) := inferInstance

instance transCmp_byteOrder : Std.TransCmp byteOrder where
  eq_swap := transCmp_bytes.eq_swap
  isLE_trans := transCmp_bytes.isLE_trans

instance lawfulEqCmp_byteOrder : Std.LawfulEqCmp byteOrder where
  compare_self := lawfulEqCmp_bytes.compare_self
  eq_of_compare h := bytesOf_inj (lawfulEqCmp_bytes.eq_of_compare h)

end CompilerFuzz.Text
