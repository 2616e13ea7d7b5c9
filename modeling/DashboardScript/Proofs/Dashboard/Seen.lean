import DashboardScript.Proofs.Dashboard.Acceptance
import DashboardScript.Proofs.Script.View

namespace DashboardScript

open Json Json.Decoder

-- What a conversion sees of a panel. The type decides on the kind that the panel is viewed as.
def Panel.seen (panel : Panel) : String × (PanelKind → PanelView) := (panel.type, panel.view)

-- The unit and the mode of the thresholds.
def FieldDefaults.seen (defaults : FieldDefaults) : Option String × Option String :=
  (visible defaults.unit, visible (defaults.thresholds.bind Thresholds.mode))

def PanelOptions.seen (options : PanelOptions) : PanelOptions where
  pieType := visible options.pieType
  colorMode := visible options.colorMode
  justifyMode := visible options.justifyMode
  orientation := visible options.orientation

def Dashboard.seen (dashboard : Dashboard) :
    Option String × List String × List (Option (String × (PanelKind → PanelView))) :=
  (visible dashboard.title, dashboard.tags, dashboard.panels.map (Option.map Panel.seen))

namespace RecordType

def Seen : RecordType → Type
  | dashboard => Option String × List String × List (Option (String × (PanelKind → PanelView)))
  | panel => String × (PanelKind → PanelView)
  | gridPos => GridPos
  | fieldConfig => Option String × Option String
  | fieldDefaults => Option String × Option String
  | thresholds => Option String
  | panelOptions => PanelOptions
  | target => TargetView

def see : (r : RecordType) → r.Carrier → r.Seen
  | dashboard => Dashboard.seen
  | panel => Panel.seen
  | gridPos => id
  | fieldConfig => fun c => c.defaults.seen
  | fieldDefaults => FieldDefaults.seen
  | thresholds => fun t => visible t.mode
  | panelOptions => PanelOptions.seen
  | target => Target.view

end RecordType

-- A field of a record with what is seen of the part that it gives.
structure Aspect (α : Type) extends Slot α where
  Seen : Type
  see : type → Seen

namespace RecordType

def aspects : (r : RecordType) → List (Aspect r.Carrier)
  | dashboard => [⟨nullable "title" text Dashboard.title, _, visible⟩,
      ⟨nullable "schemaVersion" word Dashboard.schemaVersion, Unit, fun _ => ()⟩,
      ⟨defaulted "tags" (list text) [] Dashboard.tags, _, id⟩,
      ⟨defaulted "panels" (list (optional Panel.shape.decoder)) [] Dashboard.panels, _,
        List.map (Option.map Panel.seen)⟩]
  | panel => [⟨required "type" text Panel.type, _, id⟩,
      ⟨nullable "title" text Panel.title, _, visible⟩,
      ⟨nullable "description" text Panel.description, _, visible⟩,
      ⟨required "gridPos" GridPos.shape.decoder Panel.gridPos, _, id⟩,
      ⟨nullable "pluginVersion" text Panel.pluginVersion, _, visible⟩,
      ⟨nullable "collapsed" flag Panel.collapsed, _, (·.getD false)⟩,
      ⟨defaulted "fieldConfig" FieldConfig.shape.decoder {} Panel.fieldConfig, _,
        fieldConfig.see⟩,
      ⟨defaulted "options" PanelOptions.shape.decoder {} Panel.options, _, PanelOptions.seen⟩,
      ⟨nullable "targets" (list Target.shape.decoder) Panel.targets, _,
        fun targets => (targets.getD []).map Target.view⟩]
  | gridPos => [⟨required "h" word GridPos.h, _, id⟩, ⟨required "w" word GridPos.w, _, id⟩,
      ⟨required "x" word GridPos.x, _, id⟩, ⟨required "y" word GridPos.y, _, id⟩]
  | fieldConfig => [⟨defaulted "defaults" FieldDefaults.shape.decoder {} FieldConfig.defaults, _,
      FieldDefaults.seen⟩]
  | fieldDefaults => [⟨nullable "custom" any FieldDefaults.custom, Unit, fun _ => ()⟩,
      ⟨nullable "color" any FieldDefaults.color, Unit, fun _ => ()⟩,
      ⟨nullable "unit" text FieldDefaults.unit, _, visible⟩,
      ⟨nullable "thresholds" Thresholds.shape.decoder FieldDefaults.thresholds, _,
        fun thresholds => visible (thresholds.bind Thresholds.mode)⟩]
  | thresholds => [⟨nullable "mode" text Thresholds.mode, _, visible⟩]
  | panelOptions => [⟨nullable "pieType" text PanelOptions.pieType, _, visible⟩,
      ⟨nullable "colorMode" text PanelOptions.colorMode, _, visible⟩,
      ⟨nullable "justifyMode" text PanelOptions.justifyMode, _, visible⟩,
      ⟨nullable "orientation" text PanelOptions.orientation, _, visible⟩]
  | target => [⟨required "expr" text Target.expr, _, id⟩,
      ⟨nullable "format" text Target.format, _, visible⟩,
      ⟨nullable "legendFormat" text Target.legendFormat, _, visible⟩,
      ⟨nullable "intervalFactor" number Target.intervalFactor, _, id⟩,
      ⟨nullable "hide" flag Target.hide, _, id⟩, ⟨nullable "instant" flag Target.instant, _, id⟩,
      ⟨nullable "interval" text Target.interval, _, visible⟩]

theorem map_aspects (r : RecordType) : r.aspects.map Aspect.toSlot = r.slots := by
  cases r <;> rfl

-- What is seen of a panel is what is seen of its fields, whatever its kind.
theorem panel_view_eq {a b : Panel} (kind : PanelKind) (htitle : visible a.title = visible b.title)
    (hdescription : visible a.description = visible b.description) (hpos : a.gridPos = b.gridPos)
    (hversion : visible a.pluginVersion = visible b.pluginVersion)
    (hcollapsed : a.collapsed.getD false = b.collapsed.getD false)
    (hconfig : a.fieldConfig.defaults.seen = b.fieldConfig.defaults.seen)
    (hoptions : a.options.seen = b.options.seen)
    (htargets : a.targetList.map Target.view = b.targetList.map Target.view) :
    a.view kind = b.view kind := by
  obtain ⟨hunit, hmode⟩ := Prod.mk.inj hconfig
  simp only [PanelOptions.seen, PanelOptions.mk.injEq] at hoptions
  obtain ⟨hpie, hcolor, hjustify, horientation⟩ := hoptions
  have hown : a.ownView kind = b.ownView kind := by
    cases kind <;>
      simp only [Panel.ownView, Panel.unit, Panel.thresholdsMode, hversion, hcollapsed, hunit, hmode,
        hpie, hcolor, hjustify, horientation]
  simp only [Panel.view, htitle, hdescription, hpos, hown, htargets]

theorem see_eq_of_aspects (r : RecordType) {a b : r.Carrier}
    (h : ∀ aspect ∈ r.aspects, aspect.see (aspect.part a) = aspect.see (aspect.part b)) :
    r.see a = r.see b := by
  cases r with
  | dashboard =>
      simp only [aspects, nullable, defaulted, List.forall_mem_cons] at h
      obtain ⟨htitle, -, htags, hpanels, -⟩ := h
      exact Prod.ext htitle (Prod.ext htags hpanels)
  | panel =>
      simp only [aspects, nullable, defaulted, required, List.forall_mem_cons] at h
      obtain ⟨htype, htitle, hdescription, hpos, hversion, hcollapsed, hconfig, hoptions, htargets,
        -⟩ := h
      refine Prod.ext htype (funext fun kind => ?_)
      exact panel_view_eq kind htitle hdescription hpos hversion hcollapsed hconfig hoptions htargets
  | gridPos =>
      simp only [aspects, required, List.forall_mem_cons] at h
      obtain ⟨hh, hw, hx, hy, -⟩ := h
      cases a
      cases b
      exact (GridPos.mk.injEq ..).mpr ⟨hh, hw, hx, hy⟩
  | fieldConfig => exact (List.forall_mem_cons.mp h).1
  | fieldDefaults =>
      simp only [aspects, nullable, List.forall_mem_cons] at h
      obtain ⟨-, -, hunit, hthresholds, -⟩ := h
      exact Prod.ext hunit hthresholds
  | thresholds => exact (List.forall_mem_cons.mp h).1
  | panelOptions =>
      simp only [aspects, nullable, List.forall_mem_cons] at h
      obtain ⟨hpie, hcolor, hjustify, horientation, -⟩ := h
      exact (PanelOptions.mk.injEq ..).mpr ⟨hpie, hcolor, hjustify, horientation⟩
  | target =>
      simp only [aspects, nullable, required, List.forall_mem_cons] at h
      obtain ⟨hexpr, hformat, hlegend, hfactor, hhide, hinstant, hinterval, -⟩ := h
      have htext := congrArg (Option.map Json.Number.text) hfactor
      exact (TargetView.mk.injEq ..).mpr
        ⟨hexpr, hformat, hlegend, htext, hhide, hinstant, hinterval⟩

end RecordType

end DashboardScript
