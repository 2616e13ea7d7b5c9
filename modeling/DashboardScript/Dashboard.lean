import DashboardScript.Json.Value

namespace DashboardScript

-- Where a panel lies on the grid of its dashboard.
structure GridPos where
  h : UInt32
  w : UInt32
  x : UInt32
  y : UInt32
  deriving DecidableEq

structure Thresholds where
  mode : Option String
  deriving DecidableEq

-- Of these only the unit and the thresholds reach a script.
structure FieldDefaults where
  custom : Option Json.Value := none
  color : Option Json.Value := none
  unit : Option String := none
  thresholds : Option Thresholds := none

structure FieldConfig where
  defaults : FieldDefaults := {}

structure PanelOptions where
  pieType : Option String := none
  colorMode : Option String := none
  justifyMode : Option String := none
  orientation : Option String := none
  deriving DecidableEq

-- A query of a panel.
structure Target where
  expr : String
  format : Option String := none
  legendFormat : Option String := none
  intervalFactor : Option Json.Number := none
  hide : Option Bool := none
  instant : Option Bool := none
  interval : Option String := none
  deriving DecidableEq

structure Panel where
  type : String
  title : Option String := none
  description : Option String := none
  gridPos : GridPos
  pluginVersion : Option String := none
  collapsed : Option Bool := none
  fieldConfig : FieldConfig := {}
  options : PanelOptions := {}
  targets : Option (List Target) := none

-- An exported dashboard. A null in its list of panels keeps its place.
structure Dashboard where
  title : Option String := none
  schemaVersion : Option UInt32 := none
  tags : List String := []
  panels : List (Option Panel) := []

namespace Panel

def targetList (panel : Panel) : List Target := panel.targets.getD []

def unit (panel : Panel) : Option String := panel.fieldConfig.defaults.unit

def thresholdsMode (panel : Panel) : Option String :=
  panel.fieldConfig.defaults.thresholds.bind Thresholds.mode

end Panel

end DashboardScript
