import DashboardScript.Script.Call

namespace DashboardScript

namespace Script

-- What varies in the head of a script.
structure Preamble where
  title : String
  uid : String
  tags : List String
  deriving DecidableEq

def schemaVersion : Nat := 26

def refreshIntervals : List String :=
  ["30s", "1m", "5m", "15m", "30m", "1h", "2h", "1d", "2d", "7d"]

def quotedList (items : List String) : String :=
  "[" ++ ", ".intercalate (items.map quoted) ++ "]"

def Preamble.render (preamble : Preamble) : String :=
  "local grafana = import 'grafonnet/grafana.libsonnet';\n\n" ++
    "local prometheus = grafana.prometheus;\n\n" ++
    "grafana.dashboard.new(\n" ++
    "  " ++ quoted preamble.title ++ ",\n" ++
    "  schemaVersion=" ++ toString schemaVersion ++ ",\n" ++
    "  editable=true,\n" ++
    "  refresh='5s',\n" ++
    "  time_from='now-1h',\n" ++
    "  time_to='now',\n" ++
    "  timepicker=grafana.timepicker.new(\n" ++
    "    refresh_intervals=" ++ quotedList refreshIntervals ++ ",\n" ++
    "  ),\n" ++
    "  uid=" ++ quoted preamble.uid ++ ",\n" ++
    "  tags=" ++ quotedList preamble.tags ++ ",\n" ++
    ")\n"

-- The chained call that adds a panel with its queries.
def block (style : LiteralStyle) (panel : Panel) (kind : PanelKind) : String :=
  ".addPanel(\n" ++
    "  gridPos=" ++ panel.gridPos.literal ++ ",\n" ++
    "  panel=" ++ panel.call style kind ++ ",\n" ++
    "  datasource=prometheus\n" ++
    String.join (panel.targetList.map (Target.fragment style)) ++
    ")\n"

end Script

-- A script that grows panel by panel.
structure Script where
  style : Script.LiteralStyle
  text : String
  panels : Nat
  deriving DecidableEq

namespace Script

def start (preamble : Preamble) (style : LiteralStyle) : Script := ⟨style, preamble.render, 0⟩

def addPanel (script : Script) (panel : Panel) (kind : PanelKind) : Script :=
  { script with
    text := script.text ++ block script.style panel kind
    panels := script.panels + 1 }

end Script

end DashboardScript
