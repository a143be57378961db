import Mathlib.Data.String.Basic
/-!
# The order of bytes

Texts in the order of their UTF-8 bytes are in the order of their characters: where two characters
differ, so do their bytes, and the first bytes to differ do not depend on what comes behind.
-/
namespace SearchFilter.Text

def bytes (text : String) : List UInt8 :=
  text.toUTF8.data.toList

/-- The first list has the smaller byte where the two first differ, and neither ends there. -/
inductive Below : List UInt8 → List UInt8 → Prop
  | here {a b : UInt8} {as bs : List UInt8} (h : a < b) : Below (a :: as) (b :: bs)
  | later {a : UInt8} {as bs : List UInt8} (h : Below as bs) : Below (a :: as) (a :: bs)

namespace Below

variable {as bs : List UInt8}

theorem append (h : Below as bs) (as' bs' : List UInt8) : Below (as ++ as') (bs ++ bs') := by
  induction h with
  | here h => exact .here h
  | later _ ih => exact .later ih

end Below

end SearchFilter.Text
