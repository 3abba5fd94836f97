/-
  SearchGateway.Query.Limits

  The bounds of a search.  A hard cap rejects what exceeds it, a soft cap lowers it.
-/
import SearchGateway.Json.Value

namespace SearchGateway.Query

/-- A cap that rejects a count above it. -/
structure HardCap where
  name : String
  max : Nat
  deriving DecidableEq, Repr

namespace HardCap

/-- Whether a count stays within the cap. -/
def allows (cap : HardCap) (count : Nat) : Bool :=
  count ≤ cap.max

theorem allows_iff {cap : HardCap} {count : Nat} : cap.allows count = true ↔ count ≤ cap.max := by
  simp [allows]

end HardCap

/-- A cap that lowers a value above it. -/
structure SoftCap where
  name : String
  max : Int
  deriving DecidableEq, Repr

namespace SoftCap

/-- The value itself, or the cap where the value is above it. -/
def apply (cap : SoftCap) (value : Int) : Int :=
  min value cap.max

theorem apply_le (cap : SoftCap) (value : Int) : cap.apply value ≤ cap.max :=
  Int.min_le_right value cap.max

theorem apply_eq_self {cap : SoftCap} {value : Int} (h : value ≤ cap.max) :
    cap.apply value = value :=
  Int.min_eq_left h

end SoftCap

namespace Limits

/-- How many filter groups a request may have. -/
def filterGroups : HardCap := ⟨"max_filter_groups", 5⟩

/-- How many filters a group may have. -/
def filtersPerGroup : HardCap := ⟨"max_filters_per_group", 6⟩

/-- How many filters a request may have. -/
def totalFilters : HardCap := ⟨"max_total_filters", 18⟩

/-- How many items a page may have. -/
def pageSize : SoftCap := ⟨"max_limit", 200⟩

/-- The page size when the caller asks for none. -/
def defaultPageSize : Int := 10

/-- The limits, as they are told to callers. -/
def toJson : Json.Value :=
  .object [
    (filterGroups.name, .ofNat filterGroups.max),
    (filtersPerGroup.name, .ofNat filtersPerGroup.max),
    (totalFilters.name, .ofNat totalFilters.max),
    (pageSize.name, .ofInt pageSize.max)]

end Limits

end SearchGateway.Query
