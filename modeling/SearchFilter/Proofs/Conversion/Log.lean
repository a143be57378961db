import Mathlib.Data.List.TakeWhile
import SearchFilter.Proofs.Conversion.Obstacle
import SearchFilter.Session
/-!
# What a conversion logs

A conversion opens and closes its log with one line each. The lines between them are about numeric
bounds of no known width, in the order of the leaves and up to the first leaf without a filter.
-/
namespace SearchFilter

namespace Traced

variable {α β : Type}

end Traced

namespace Conversion

variable {settings : Settings}

open Sortable

end Conversion

open Conversion

end SearchFilter
