import DashboardScript.Proofs.Conversion.Entries

namespace DashboardScript.Conversion

open Script

-- The types of panels that have a constructor, as an exported dashboard spells them.
def discriminants : List String := ["row", "piechart", "timeseries", "stat", "bargauge", "gauge"]

theorem ofName?_eq_none_iff_not_mem (type : String) :
    PanelKind.ofName? type = none ↔ type ∉ discriminants :=
  PanelKind.ofName?_eq_none_iff type

section Classes

variable (panels : List (Option Panel)) (index : Nat)

end Classes

end DashboardScript.Conversion
