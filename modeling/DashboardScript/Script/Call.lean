import DashboardScript.Dashboard
import DashboardScript.PanelKind
import DashboardScript.Script.Arguments

namespace DashboardScript

open Script

-- The position as an object literal.
def GridPos.literal (pos : GridPos) : String :=
  "\x7bh: " ++ toString pos.h ++ ", w: " ++ toString pos.w ++ ", x: " ++ toString pos.x ++
    ", y: " ++ toString pos.y ++ "\x7d"

def PanelKind.constructor : PanelKind → String
  | .row => "row"
  | .pieChart => "pieChartPanel"
  | .timeseries => "graphPanel"
  | .stat => "statPanel"
  | .barGauge => "barGaugePanel"
  | .gauge => "gaugePanel"

-- The arguments that a kind adds to the title and the description.
def Panel.ownArguments (panel : Panel) (kind : PanelKind) (args : Arguments) : Arguments :=
  match kind with
  | .row => args.flag "collapse" (some (panel.collapsed.getD false))
  | .timeseries => args
  | .gauge =>
    args.text "pluginVersion" panel.pluginVersion
      |>.keyword "unit" panel.unit
      |>.keyword "thresholdsMode" panel.thresholdsMode
  | .barGauge => args.keyword "unit" panel.unit
  | .pieChart => args.keyword "pieType" panel.options.pieType
  | .stat =>
    args.keyword "colorMode" panel.options.colorMode
      |>.keyword "justifyMode" panel.options.justifyMode
      |>.keyword "orientation" panel.options.orientation
      |>.text "pluginVersion" panel.pluginVersion
      |>.keyword "unit" panel.unit
      |>.keyword "thresholdsMode" panel.thresholdsMode

def Panel.arguments (style : LiteralStyle) (kind : PanelKind) (panel : Panel) : Arguments :=
  panel.ownArguments kind
    ((Arguments.empty style).text "title" panel.title |>.text "description" panel.description)

-- The call that makes the panel as one of the given kind, whatever its own type says.
def Panel.call (style : LiteralStyle) (kind : PanelKind) (panel : Panel) : String :=
  "grafana." ++ kind.constructor ++ ".new(" ++ (panel.arguments style kind).written ++ ")"

def Target.arguments (style : LiteralStyle) (target : Target) : Arguments :=
  (Arguments.empty style).text "format" target.format
    |>.text "legendFormat" target.legendFormat
    |>.number "intervalFactor" target.intervalFactor
    |>.flag "hide" target.hide
    |>.flag "instant" target.instant
    |>.text "interval" target.interval

-- The chained call that adds the query to its panel. The expression has a line of its own, and the
-- arguments have another if there are any.
def Target.fragment (style : LiteralStyle) (target : Target) : String :=
  let args := target.arguments style
  "  .addTarget(\n    prometheus.target(\n" ++
    "      expr=" ++ quoted target.expr ++ ",\n" ++
    (if args.isEmpty then "" else "      " ++ args.written ++ "\n") ++
    "    )\n  )\n"

end DashboardScript
