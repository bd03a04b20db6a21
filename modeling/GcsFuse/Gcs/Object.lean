import Mathlib.Order.Basic
/-!
# gcs — objects

`internal/storage/gcs`: the metadata of an object the caches and readers
are keyed and sized by.
-/

namespace GcsFuse

namespace Gcs

/-- `MiB`. -/
def miB : UInt64 := 1024 * 1024

/-- `gcs.MinObject`: the fields the modelled paths read. -/
structure MinObject where
  name : String
  generation : Int
  size : UInt64

end Gcs

end GcsFuse
