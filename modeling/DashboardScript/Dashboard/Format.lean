import DashboardScript.Dashboard
import DashboardScript.Json.Record

-- How the records of a dashboard are written in JSON.
namespace DashboardScript

open Json

def GridPos.shape : Shape GridPos where
  name := "GridPos"
  types := [UInt32, UInt32, UInt32, UInt32]
  fields := (⟨"h", Decoder.word, none⟩, ⟨"w", Decoder.word, none⟩, ⟨"x", Decoder.word, none⟩,
    ⟨"y", Decoder.word, none⟩, ())
  make := fun (h, w, x, y, ()) => ⟨h, w, x, y⟩

def Thresholds.shape : Shape Thresholds where
  name := "Thresholds"
  types := [Option String]
  fields := (⟨"mode", Decoder.optional Decoder.text, some none⟩, ())
  make := fun (mode, ()) => ⟨mode⟩

def FieldDefaults.shape : Shape FieldDefaults where
  name := "FieldDefaults"
  types := [Option Value, Option Value, Option String, Option Thresholds]
  fields := (⟨"custom", Decoder.optional Decoder.any, some none⟩,
    ⟨"color", Decoder.optional Decoder.any, some none⟩,
    ⟨"unit", Decoder.optional Decoder.text, some none⟩,
    ⟨"thresholds", Decoder.optional Thresholds.shape.decoder, some none⟩, ())
  make := fun (custom, color, unit, thresholds, ()) => ⟨custom, color, unit, thresholds⟩

def FieldConfig.shape : Shape FieldConfig where
  name := "FieldConfig"
  types := [FieldDefaults]
  fields := (⟨"defaults", FieldDefaults.shape.decoder, some {}⟩, ())
  make := fun (defaults, ()) => ⟨defaults⟩

def PanelOptions.shape : Shape PanelOptions where
  name := "PanelOptions"
  types := [Option String, Option String, Option String, Option String]
  fields := (⟨"pieType", Decoder.optional Decoder.text, some none⟩,
    ⟨"colorMode", Decoder.optional Decoder.text, some none⟩,
    ⟨"justifyMode", Decoder.optional Decoder.text, some none⟩,
    ⟨"orientation", Decoder.optional Decoder.text, some none⟩, ())
  make := fun (pieType, colorMode, justifyMode, orientation, ()) =>
    ⟨pieType, colorMode, justifyMode, orientation⟩

def Target.shape : Shape Target where
  name := "Target"
  types := [String, Option String, Option String, Option Number, Option Bool, Option Bool,
    Option String]
  fields := (⟨"expr", Decoder.text, none⟩,
    ⟨"format", Decoder.optional Decoder.text, some none⟩,
    ⟨"legendFormat", Decoder.optional Decoder.text, some none⟩,
    ⟨"intervalFactor", Decoder.optional Decoder.number, some none⟩,
    ⟨"hide", Decoder.optional Decoder.flag, some none⟩,
    ⟨"instant", Decoder.optional Decoder.flag, some none⟩,
    ⟨"interval", Decoder.optional Decoder.text, some none⟩, ())
  make := fun (expr, format, legendFormat, intervalFactor, hide, instant, interval, ()) =>
    ⟨expr, format, legendFormat, intervalFactor, hide, instant, interval⟩

def Panel.shape : Shape Panel where
  name := "Panel"
  types := [String, Option String, Option String, GridPos, Option String, Option Bool, FieldConfig,
    PanelOptions, Option (List Target)]
  fields := (⟨"type", Decoder.text, none⟩,
    ⟨"title", Decoder.optional Decoder.text, some none⟩,
    ⟨"description", Decoder.optional Decoder.text, some none⟩,
    ⟨"gridPos", GridPos.shape.decoder, none⟩,
    ⟨"pluginVersion", Decoder.optional Decoder.text, some none⟩,
    ⟨"collapsed", Decoder.optional Decoder.flag, some none⟩,
    ⟨"fieldConfig", FieldConfig.shape.decoder, some {}⟩,
    ⟨"options", PanelOptions.shape.decoder, some {}⟩,
    ⟨"targets", Decoder.optional (Decoder.list Target.shape.decoder), some none⟩, ())
  make := fun (type, title, description, gridPos, pluginVersion, collapsed, fieldConfig, options,
      targets, ()) =>
    ⟨type, title, description, gridPos, pluginVersion, collapsed, fieldConfig, options, targets⟩

def Dashboard.shape : Shape Dashboard where
  name := "Dashboard"
  types := [Option String, Option UInt32, List String, List (Option Panel)]
  fields := (⟨"title", Decoder.optional Decoder.text, some none⟩,
    ⟨"schemaVersion", Decoder.optional Decoder.word, some none⟩,
    ⟨"tags", Decoder.list Decoder.text, some []⟩,
    ⟨"panels", Decoder.list (Decoder.optional Panel.shape.decoder), some []⟩, ())
  make := fun (title, schemaVersion, tags, panels, ()) => ⟨title, schemaVersion, tags, panels⟩

def Dashboard.ofJson (text : String) : Except Json.Error Dashboard :=
  Dashboard.shape.decoder.decode text

def Panel.ofJson (text : String) : Except Json.Error Panel :=
  Panel.shape.decoder.decode text

def Target.ofJson (text : String) : Except Json.Error Target :=
  Target.shape.decoder.decode text

def GridPos.ofJson (text : String) : Except Json.Error GridPos :=
  GridPos.shape.decoder.decode text

end DashboardScript
