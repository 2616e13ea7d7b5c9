namespace DashboardScript

-- The types of panels that have a constructor in a script.
inductive PanelKind where
  | row
  | pieChart
  | timeseries
  | stat
  | barGauge
  | gauge
  deriving DecidableEq

namespace PanelKind

-- The name of a kind in the type of a panel.
def name : PanelKind → String
  | .row => "row"
  | .pieChart => "piechart"
  | .timeseries => "timeseries"
  | .stat => "stat"
  | .barGauge => "bargauge"
  | .gauge => "gauge"

def all : List PanelKind := [.row, .pieChart, .timeseries, .stat, .barGauge, .gauge]

-- The kind with exactly this name.
def ofName? (name : String) : Option PanelKind := all.find? (·.name == name)

-- What is said of a type that names no kind.
def unsupportedMessage (type : String) : String := "unsupported panel type '" ++ type ++ "'"

end PanelKind

end DashboardScript
