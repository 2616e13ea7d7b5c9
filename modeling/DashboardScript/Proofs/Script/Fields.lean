import DashboardScript.Script.Call

namespace DashboardScript

namespace Script

-- An argument as it is asked for: its name, and its value if there is one.
abbrev Field := String × Option Literal

-- What is written for a value. Nothing is where the value does not count as present.
def shown (style : LiteralStyle) (value : Option Literal) : Option String :=
  (value.filter Literal.isPresent).map (Literal.render style)

-- The arguments that are written, each with the text of its value.
def present (style : LiteralStyle) (fields : List Field) : List (String × String) :=
  fields.filterMap fun field => (shown style field.2).map (field.1, ·)

def argumentText (argument : String × String) : String := argument.1 ++ "=" ++ argument.2 ++ ","

theorem present_cons (style : LiteralStyle) (name : String) (value : Option Literal)
    (rest : List Field) :
    present style ((name, value) :: rest) =
      ((shown style value).map (name, ·)).toList ++ present style rest := by
  unfold present
  rw [List.filterMap_cons]
  cases shown style value <;> rfl

theorem argumentText_ne_empty (argument : String × String) : argumentText argument ≠ "" := by
  intro h
  have hlist := congrArg String.toList h
  simp [argumentText] at hlist

theorem join_argumentText_eq_empty_iff (arguments : List (String × String)) :
    String.join (arguments.map argumentText) = "" ↔ arguments = [] := by
  cases arguments with
  | nil => simp
  | cons argument rest => simp [argumentText_ne_empty]

namespace Arguments

def addAll (args : Arguments) (fields : List Field) : Arguments :=
  fields.foldl (fun args field => args.add field.1 field.2) args

@[simp] theorem add_style (args : Arguments) (name : String) (value : Option Literal) :
    (args.add name value).style = args.style := by
  unfold add
  split <;> rfl

theorem add_written (args : Arguments) (name : String) (value : Option Literal) :
    (args.add name value).written =
      args.written ++ String.join (((shown args.style value).map (name, ·)).toList.map
        argumentText) := by
  unfold add shown
  cases value.filter Literal.isPresent with
  | none => simp
  | some literal => simp [argumentText, String.append_assoc]

-- The arguments stand in the order in which they were added, without those that have no value.
theorem addAll_written (args : Arguments) (fields : List Field) :
    (args.addAll fields).written =
      args.written ++ String.join ((present args.style fields).map argumentText) := by
  induction fields generalizing args with
  | nil => simp [addAll, present]
  | cons field rest ih =>
      have hrest := ih (args.add field.1 field.2)
      rw [add_style, add_written] at hrest
      rw [show args.addAll (field :: rest) = (args.add field.1 field.2).addAll rest from rfl,
        hrest, present_cons, List.map_append, String.join_append, String.append_assoc]

end Arguments

end Script

open Script

-- The arguments of a panel call that are the kind's own, in order.
def Panel.ownFields (panel : Panel) : PanelKind → List Field
  | .row => [("collapse", (some (panel.collapsed.getD false)).map .flag)]
  | .timeseries => []
  | .gauge =>
    [("pluginVersion", panel.pluginVersion.map .text), ("unit", panel.unit.map .keyword),
      ("thresholdsMode", panel.thresholdsMode.map .keyword)]
  | .barGauge => [("unit", panel.unit.map .keyword)]
  | .pieChart => [("pieType", panel.options.pieType.map .keyword)]
  | .stat =>
    [("colorMode", panel.options.colorMode.map .keyword),
      ("justifyMode", panel.options.justifyMode.map .keyword),
      ("orientation", panel.options.orientation.map .keyword),
      ("pluginVersion", panel.pluginVersion.map .text), ("unit", panel.unit.map .keyword),
      ("thresholdsMode", panel.thresholdsMode.map .keyword)]

def Panel.fields (panel : Panel) (kind : PanelKind) : List Field :=
  ("title", panel.title.map .text) :: ("description", panel.description.map .text) ::
    panel.ownFields kind

def Target.fields (target : Target) : List Field :=
  [("format", target.format.map .text), ("legendFormat", target.legendFormat.map .text),
    ("intervalFactor", target.intervalFactor.map .number), ("hide", target.hide.map .flag),
    ("instant", target.instant.map .flag), ("interval", target.interval.map .text)]

theorem Panel.arguments_eq_addAll (style : LiteralStyle) (kind : PanelKind) (panel : Panel) :
    panel.arguments style kind = (Arguments.empty style).addAll (panel.fields kind) := by
  cases kind <;> rfl

theorem Panel.arguments_written (style : LiteralStyle) (kind : PanelKind) (panel : Panel) :
    (panel.arguments style kind).written =
      String.join ((present style (panel.fields kind)).map argumentText) := by
  rw [arguments_eq_addAll, Arguments.addAll_written]
  exact String.empty_append

theorem Target.arguments_eq_addAll (style : LiteralStyle) (target : Target) :
    target.arguments style = (Arguments.empty style).addAll target.fields := rfl

theorem Target.arguments_written (style : LiteralStyle) (target : Target) :
    (target.arguments style).written =
      String.join ((present style target.fields).map argumentText) := by
  rw [arguments_eq_addAll, Arguments.addAll_written]
  exact String.empty_append

theorem Target.arguments_isEmpty_iff (style : LiteralStyle) (target : Target) :
    (target.arguments style).isEmpty ↔ present style target.fields = [] := by
  rw [Arguments.isEmpty, beq_iff_eq, arguments_written, join_argumentText_eq_empty_iff]

-- The line of arguments is there if there is an argument to stand on it.
theorem Target.fragment_eq (style : LiteralStyle) (target : Target) :
    target.fragment style =
      "  .addTarget(\n    prometheus.target(\n" ++ "      expr=" ++ quoted target.expr ++ ",\n" ++
        (if present style target.fields = [] then ""
          else "      " ++ String.join ((present style target.fields).map argumentText) ++ "\n") ++
        "    )\n  )\n" := by
  unfold fragment
  simp only [arguments_isEmpty_iff, arguments_written]

end DashboardScript
