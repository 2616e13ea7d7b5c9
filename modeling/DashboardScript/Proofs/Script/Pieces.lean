import DashboardScript.Proofs.Script.View
import DashboardScript.Script

namespace DashboardScript

namespace Script

-- A piece of a script. The style of literals decides on the quotes of the values in it.
inductive Piece where
  -- stands as it is
  | fixed (text : String)
  -- a flag or a number
  | value (text : String)
  deriving DecidableEq

namespace Piece

def write (style : LiteralStyle) : Piece → String
  | .fixed text => text
  | .value text => styled style text

def value? : Piece → Option String
  | .fixed _ => none
  | .value text => some text

@[simp] theorem write_fixed (style : LiteralStyle) (text : String) :
    (fixed text).write style = text := rfl

end Piece

def writePieces (style : LiteralStyle) (pieces : List Piece) : String :=
  String.join (pieces.map (Piece.write style))

def values (pieces : List Piece) : List String := pieces.filterMap Piece.value?

@[simp] theorem writePieces_nil (style : LiteralStyle) : writePieces style [] = "" := rfl

@[simp] theorem writePieces_cons (style : LiteralStyle) (piece : Piece) (pieces : List Piece) :
    writePieces style (piece :: pieces) = piece.write style ++ writePieces style pieces := by
  rw [writePieces, List.map_cons, String.join_cons, writePieces]

@[simp] theorem writePieces_append (style : LiteralStyle) (first second : List Piece) :
    writePieces style (first ++ second) = writePieces style first ++ writePieces style second := by
  rw [writePieces, List.map_append, String.join_append, writePieces, writePieces]

theorem writePieces_flatMap {α : Type} (style : LiteralStyle) (items : List α)
    (pieces : α → List Piece) :
    writePieces style (items.flatMap pieces) =
      String.join (items.map fun item => writePieces style (pieces item)) := by
  induction items with
  | nil => rfl
  | cons item items ih =>
      rw [List.flatMap_cons, writePieces_append, ih, List.map_cons, String.join_cons]

@[simp] theorem values_append (first second : List Piece) :
    values (first ++ second) = values first ++ values second :=
  List.filterMap_append

@[simp] theorem values_fixed (text : String) (pieces : List Piece) :
    values (.fixed text :: pieces) = values pieces := rfl

@[simp] theorem values_nil : values [] = [] := rfl

theorem values_flatMap {α : Type} (items : List α) (pieces : α → List Piece) :
    values (items.flatMap pieces) = items.flatMap fun item => values (pieces item) := by
  induction items with
  | nil => rfl
  | cons item items ih => rw [List.flatMap_cons, values_append, ih, List.flatMap_cons]

-- Each value has two characters more where the style quotes it.
theorem length_writePieces (pieces : List Piece) :
    (writePieces .quoted pieces).length =
      (writePieces .bare pieces).length + 2 * (values pieces).length := by
  induction pieces with
  | nil => rfl
  | cons piece pieces ih =>
      rw [writePieces_cons, writePieces_cons, String.length_append, String.length_append, ih]
      cases piece with
      | fixed text =>
          rw [values_fixed]
          simp only [Piece.write]
          omega
      | value text =>
          have hquoted : (quoted text).length = text.length + 2 := by
            simp only [quoted, String.length_append]
            have hquote : "'".length = 1 := rfl
            omega
          have hvalues : values (.value text :: pieces) = text :: values pieces := rfl
          rw [hvalues, List.length_cons]
          simp only [Piece.write, styled, hquoted]
          omega

theorem writePieces_eq_iff (pieces : List Piece) :
    writePieces .quoted pieces = writePieces .bare pieces ↔ values pieces = [] := by
  constructor
  · intro h
    have hlength := length_writePieces pieces
    rw [h] at hlength
    exact List.eq_nil_of_length_eq_zero (by omega)
  · intro h
    unfold writePieces
    congr 1
    apply List.map_congr_left
    intro piece hpiece
    cases piece with
    | fixed text => rfl
    | value text =>
        have hmem : text ∈ values pieces := List.mem_filterMap.mpr ⟨_, hpiece, rfl⟩
        rw [h] at hmem
        cases hmem

def Literal.piece (literal : Literal) : Piece :=
  if literal.isStyled then .value literal.plain else .fixed (quoted literal.plain)

theorem Literal.write_piece (style : LiteralStyle) (literal : Literal) :
    literal.piece.write style = literal.render style := by
  cases literal <;> cases style <;> rfl

-- The pieces of an argument, none where it has no value.
def fieldPieces (field : Field) : List Piece :=
  match field.2.filter Literal.isPresent with
  | none => []
  | some literal => [.fixed (field.1 ++ "="), literal.piece, .fixed ","]

theorem writePieces_fieldPieces (style : LiteralStyle) (field : Field) :
    writePieces style (fieldPieces field) =
      String.join (((shown style field.2).map (field.1, ·)).toList.map argumentText) := by
  unfold fieldPieces shown
  cases field.2.filter Literal.isPresent with
  | none => rfl
  | some literal =>
      simp [Literal.write_piece, argumentText, String.append_assoc]

theorem writePieces_fields (style : LiteralStyle) (fields : List Field) :
    writePieces style (fields.flatMap fieldPieces) =
      String.join ((present style fields).map argumentText) := by
  induction fields with
  | nil => rfl
  | cons field fields ih =>
      rw [List.flatMap_cons, writePieces_append, writePieces_fieldPieces, ih, present_cons,
        List.map_append, String.join_append]

theorem fields_flatMap_eq_nil_iff (style : LiteralStyle) (fields : List Field) :
    fields.flatMap fieldPieces = [] ↔ present style fields = [] := by
  rw [List.flatMap_eq_nil_iff, present, List.filterMap_eq_nil_iff]
  refine forall₂_congr fun field _ => ?_
  unfold fieldPieces shown
  cases field.2.filter Literal.isPresent <;> simp

section Values

variable (name : String)

theorem values_text (text : Option String) : values (fieldPieces (name, text.map .text)) = [] := by
  cases text with
  | none => rfl
  | some s => by_cases h : s = "" <;> simp [fieldPieces, Option.filter, Literal.isPresent, h,
      Literal.piece, Literal.isStyled]

theorem values_keyword (text : Option String) :
    values (fieldPieces (name, text.map .keyword)) = [] := by
  cases text with
  | none => rfl
  | some s => by_cases h : s = "" <;> simp [fieldPieces, Option.filter, Literal.isPresent, h,
      Literal.piece, Literal.isStyled]

theorem values_flag (flag : Option Bool) :
    values (fieldPieces (name, flag.map .flag)) =
      (flag.map fun b => (Literal.flag b).plain).toList := by
  cases flag <;> rfl

theorem values_number (number : Option Json.Number) :
    values (fieldPieces (name, number.map .number)) = (number.map Json.Number.text).toList := by
  cases number <;> rfl

end Values

end Script

open Script

namespace Target

def pieces (target : Target) : List Piece :=
  let arguments := target.fields.flatMap fieldPieces
  .fixed ("  .addTarget(\n    prometheus.target(\n" ++ "      expr=" ++ quoted target.expr ++ ",\n") ::
    (if arguments = [] then [] else .fixed "      " :: arguments ++ [.fixed "\n"]) ++
    [.fixed "    )\n  )\n"]

theorem writePieces_pieces (style : LiteralStyle) (target : Target) :
    writePieces style target.pieces = target.fragment style := by
  rw [fragment_eq]
  by_cases h : present style target.fields = []
  · have hpieces := (fields_flatMap_eq_nil_iff style target.fields).mpr h
    simp [pieces, hpieces, h]
  · have hpieces := mt (fields_flatMap_eq_nil_iff style target.fields).mp h
    simp [pieces, hpieces, h, writePieces_fields, String.append_assoc]

-- The numbers and flags among the arguments of a query.
def styledValues (target : Target) : List String :=
  (target.intervalFactor.map Json.Number.text).toList ++
    (target.hide.map fun b => (Literal.flag b).plain).toList ++
    (target.instant.map fun b => (Literal.flag b).plain).toList

theorem values_pieces (target : Target) : values target.pieces = target.styledValues := by
  have harguments : values (target.fields.flatMap fieldPieces) = target.styledValues := by
    simp only [fields, List.flatMap_cons, List.flatMap_nil, values_append, values_text,
      values_number, values_flag, List.nil_append, List.append_nil, styledValues,
      List.append_assoc]
  by_cases h : target.fields.flatMap fieldPieces = []
  · rw [← harguments]
    simp [pieces, h]
  · simp [pieces, h, harguments]

end Target

namespace Panel

def pieces (panel : Panel) (kind : PanelKind) : List Piece :=
  .fixed ("grafana." ++ kind.constructor ++ ".new(") ::
    (panel.fields kind).flatMap fieldPieces ++ [.fixed ")"]

theorem writePieces_pieces (style : LiteralStyle) (panel : Panel) (kind : PanelKind) :
    writePieces style (panel.pieces kind) = panel.call style kind := by
  simp [pieces, call, arguments_written, writePieces_fields, String.append_assoc]

-- Of the arguments of a panel only the flag of a row is styled, and a row always has it.
def styledValues (panel : Panel) : PanelKind → List String
  | .row => [(Literal.flag (panel.collapsed.getD false)).plain]
  | _ => []

theorem values_ownFields (panel : Panel) (kind : PanelKind) :
    values ((panel.ownFields kind).flatMap fieldPieces) = panel.styledValues kind := by
  cases kind with
  | row =>
      rw [ownFields, List.flatMap_cons, List.flatMap_nil, List.append_nil, values_flag]
      rfl
  | pieChart | timeseries | stat | barGauge | gauge =>
      simp only [ownFields, List.flatMap_cons, List.flatMap_nil, values_append, values_text,
        values_keyword, values_nil, List.append_nil, styledValues]

theorem values_pieces (panel : Panel) (kind : PanelKind) :
    values (panel.pieces kind) = panel.styledValues kind := by
  simp only [pieces, fields, List.flatMap_cons, values_append, values_fixed, values_text,
    values_ownFields, values_nil, List.nil_append, List.append_nil, List.cons_append]

end Panel

namespace Script

def blockPieces (panel : Panel) (kind : PanelKind) : List Piece :=
  .fixed (".addPanel(\n" ++ "  gridPos=" ++ panel.gridPos.literal ++ ",\n" ++ "  panel=") ::
    panel.pieces kind ++ .fixed (",\n" ++ "  datasource=prometheus\n") ::
    panel.targetList.flatMap Target.pieces ++ [.fixed ")\n"]

theorem writePieces_blockPieces (style : LiteralStyle) (panel : Panel) (kind : PanelKind) :
    writePieces style (blockPieces panel kind) = block style panel kind := by
  have htargets : writePieces style (panel.targetList.flatMap Target.pieces) =
      String.join (panel.targetList.map (Target.fragment style)) := by
    simp only [writePieces_flatMap, Target.writePieces_pieces]
  unfold blockPieces block
  simp only [writePieces_append, writePieces_cons, writePieces_nil, Piece.write_fixed,
    Panel.writePieces_pieces, htargets, String.append_empty, List.cons_append]
  simp only [String.append_assoc]

theorem values_blockPieces (panel : Panel) (kind : PanelKind) :
    values (blockPieces panel kind) =
      panel.styledValues kind ++ panel.targetList.flatMap Target.styledValues := by
  simp only [blockPieces, values_append, values_fixed, values_nil, values_flatMap,
    Panel.values_pieces, Target.values_pieces, List.append_nil, List.cons_append]

end Script

end DashboardScript
