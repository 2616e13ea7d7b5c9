import DashboardScript.Proofs.Script.Table

namespace DashboardScript

open Script

-- What a query can be given beside its expression.
inductive QueryParameter where
  | format
  | legendFormat
  | intervalFactor
  | hide
  | instant
  | interval
  deriving DecidableEq

namespace QueryParameter

-- In the order in which they stand in a call.
def all : List QueryParameter := [format, legendFormat, intervalFactor, hide, instant, interval]

theorem mem_all (parameter : QueryParameter) : parameter ∈ all := by
  cases parameter <;> decide

def name : QueryParameter → String
  | format => "format"
  | legendFormat => "legendFormat"
  | intervalFactor => "intervalFactor"
  | hide => "hide"
  | instant => "instant"
  | interval => "interval"

def wording? (target : Target) : QueryParameter → Option String
  | format => target.format
  | legendFormat => target.legendFormat
  | interval => target.interval
  | intervalFactor | hide | instant => none

def flag? (target : Target) : QueryParameter → Option Bool
  | hide => target.hide
  | instant => target.instant
  | format | legendFormat | intervalFactor | interval => none

-- What stands behind the name of the parameter in a call. A text is between quotes in either style,
-- and is left out if it is empty; a number or a flag is there if the query has one, be it false.
inductive Supplies (style : LiteralStyle) (target : Target) : QueryParameter → String → Prop where
  | wording {parameter : QueryParameter} {text : String}
      (held : parameter.wording? target = some text) (notEmpty : text ≠ "") :
      Supplies style target parameter ("'" ++ text ++ "'")
  | number {n : Json.Number} (held : target.intervalFactor = some n) :
      Supplies style target intervalFactor (styled style n.text)
  | flag {parameter : QueryParameter} {b : Bool} (held : parameter.flag? target = some b) :
      Supplies style target parameter (styled style (if b then "true" else "false"))

-- The value as the arguments of a call are asked for.
def literal? (target : Target) : QueryParameter → Option Literal
  | format => target.format.map .text
  | legendFormat => target.legendFormat.map .text
  | intervalFactor => target.intervalFactor.map .number
  | hide => target.hide.map .flag
  | instant => target.instant.map .flag
  | interval => target.interval.map .text

section Supplied

variable {style : LiteralStyle} {target : Target} {parameter : QueryParameter} {value : String}

theorem exists_wording_of_shown {text : Option String}
    (h : shown style (text.map .text) = some value) :
    ∃ s, text = some s ∧ s ≠ "" ∧ "'" ++ s ++ "'" = value := by
  rw [shown_text, Option.map_eq_some_iff] at h
  obtain ⟨s, hvisible, hquoted⟩ := h
  obtain ⟨held, notEmpty⟩ := Option.filter_eq_some_iff.mp hvisible
  exact ⟨s, held, by simpa using notEmpty, hquoted⟩

theorem shown_of_wording {text : String} (notEmpty : text ≠ "") :
    shown style ((some text).map .text) = some ("'" ++ text ++ "'") := by
  have hvisible : visible (some text) = some text :=
    Option.filter_eq_some_iff.mpr ⟨rfl, by simpa using notEmpty⟩
  rw [shown_text, hvisible]
  rfl

theorem exists_flag_of_shown {flag : Option Bool} (h : shown style (flag.map .flag) = some value) :
    ∃ b, flag = some b ∧ styled style (if b then "true" else "false") = value := by
  rwa [shown_flag, Option.map_eq_some_iff] at h

theorem supplies_of_shown (h : shown style (parameter.literal? target) = some value) :
    parameter.Supplies style target value := by
  cases parameter with
  | format | legendFormat | interval =>
      obtain ⟨text, held, notEmpty, rfl⟩ := exists_wording_of_shown h
      exact .wording held notEmpty
  | hide | instant =>
      obtain ⟨b, held, rfl⟩ := exists_flag_of_shown h
      exact .flag held
  | intervalFactor =>
      rw [literal?, shown_number, Option.map_map, Option.map_eq_some_iff] at h
      obtain ⟨n, held, rfl⟩ := h
      exact .number held

theorem shown_of_supplies (h : parameter.Supplies style target value) :
    shown style (parameter.literal? target) = some value := by
  cases h with
  | wording held notEmpty =>
      cases parameter with
      | format | legendFormat | interval =>
          rw [wording?] at held
          rw [literal?, held, shown_of_wording notEmpty]
      | intervalFactor | hide | instant => cases held
  | number held => rw [literal?, held, shown_number, Option.map_some, Option.map_some]
  | flag held =>
      cases parameter with
      | hide | instant =>
          rw [flag?] at held
          rw [literal?, held, shown_flag, Option.map_some]
          rfl
      | format | legendFormat | intervalFactor | interval => cases held

end Supplied

def argumentOf (argument : QueryParameter × String) : String :=
  argument.1.name ++ "=" ++ argument.2 ++ ","

-- The line of the arguments, which is there if there is an argument to stand on it.
def line : List (QueryParameter × String) → String
  | [] => ""
  | arguments => "      " ++ String.join (arguments.map argumentOf) ++ "\n"

theorem line_eq (arguments : List (QueryParameter × String)) :
    line arguments =
      if arguments.map (fun argument => (argument.1.name, argument.2)) = [] then ""
      else "      " ++ String.join ((arguments.map fun argument =>
        (argument.1.name, argument.2)).map argumentText) ++ "\n" := by
  cases arguments with
  | nil => rfl
  | cons argument arguments =>
      rw [if_neg (by simp), List.map_map]
      rfl

-- The call that adds a query with such an expression and such arguments.
def call (expr : String) (arguments : List (QueryParameter × String)) : String :=
  "  .addTarget(\n    prometheus.target(\n" ++ "      expr='" ++ expr ++ "',\n" ++ line arguments ++
    "    )\n  )\n"

section Injective

variable {expr first second : String}

-- With the same arguments, calls differ in their expression alone.
theorem call_expr_inj {arguments : List (QueryParameter × String)}
    (h : call first arguments = call second arguments) : first = second := by
  unfold call at h
  rwa [String.append_left_inj, String.append_left_inj, String.append_left_inj,
    String.append_right_inj] at h

theorem line_middle (before behind : List (QueryParameter × String)) (parameter : QueryParameter)
    (value : String) :
    line (before ++ (parameter, value) :: behind) =
      ("      " ++ String.join (before.map argumentOf) ++ parameter.name ++ "=") ++ value ++
        ("," ++ String.join (behind.map argumentOf) ++ "\n") := by
  have hline : line (before ++ (parameter, value) :: behind) = "      " ++
      String.join ((before ++ (parameter, value) :: behind).map argumentOf) ++ "\n" := by
    cases before <;> rfl
  rw [hline, List.map_append, List.map_cons, String.join_append, String.join_cons]
  simp only [argumentOf, String.append_assoc]

-- With the same expression and the same other arguments, calls differ in the value of one.
theorem call_argument_inj {before behind : List (QueryParameter × String)}
    {parameter : QueryParameter}
    (h : call expr (before ++ (parameter, first) :: behind) =
      call expr (before ++ (parameter, second) :: behind)) : first = second := by
  unfold call at h
  rw [String.append_left_inj, String.append_right_inj, line_middle, line_middle] at h
  rwa [String.append_left_inj, String.append_right_inj] at h

end Injective

end QueryParameter

open QueryParameter (line call)

namespace Target

-- The query without what it says for one parameter.
def without (target : Target) : QueryParameter → Target
  | .format => { target with format := none }
  | .legendFormat => { target with legendFormat := none }
  | .intervalFactor => { target with intervalFactor := none }
  | .hide => { target with hide := none }
  | .instant => { target with instant := none }
  | .interval => { target with interval := none }

-- Whether the query says anything beside its expression.
def HasArguments (target : Target) : Prop :=
  (∃ text, text ≠ "" ∧
    (target.format = some text ∨ target.legendFormat = some text ∨ target.interval = some text)) ∨
  (∃ n, target.intervalFactor = some n) ∨
  ∃ b, target.hide = some b ∨ target.instant = some b

-- The arguments for some parameters, each with its parameter.
def argumentsFor (style : LiteralStyle) (target : Target) (parameters : List QueryParameter) :
    List (QueryParameter × String) :=
  labelled (fun parameter => shown style (parameter.literal? target)) parameters

-- The arguments of the call.
def supplied (style : LiteralStyle) (target : Target) : List (QueryParameter × String) :=
  target.argumentsFor style QueryParameter.all

-- What the call of a query is made of.
structure WrittenWith (style : LiteralStyle) (target : Target)
    (arguments : List (QueryParameter × String)) : Prop where
  text : target.fragment style = call target.expr arguments
  -- No argument comes twice or out of order.
  order : (arguments.map Prod.fst).Sublist QueryParameter.all
  complete : ∀ parameter value,
    (parameter, value) ∈ arguments ↔ parameter.Supplies style target value
  line : arguments ≠ [] ↔ target.HasArguments
  -- What the query no longer says is missing from the call, and nothing else is.
  without : ∀ before parameter value after, arguments = before ++ (parameter, value) :: after →
    (target.without parameter).fragment style = call target.expr (before ++ after)

section Supplied

variable (style : LiteralStyle) (target : Target)

theorem present_fields :
    present style target.fields =
      (target.supplied style).map fun argument => (argument.1.name, argument.2) := by
  have hfields : target.fields = QueryParameter.all.map fun parameter =>
      (parameter.name, parameter.literal? target) := rfl
  rw [hfields, present, List.filterMap_map, supplied, argumentsFor, labelled, List.map_filterMap]
  simp only [Option.map_map, Function.comp_def]

theorem fragment_eq_call : target.fragment style = call target.expr (target.supplied style) := by
  have hopen : "      expr='" = "      expr=" ++ "'" := rfl
  have hclose : "',\n" = "'" ++ ",\n" := rfl
  rw [fragment_eq, present_fields, ← QueryParameter.line_eq]
  unfold call quoted
  simp only [hopen, hclose, String.append_assoc]

theorem mem_supplied_iff (parameter : QueryParameter) (value : String) :
    (parameter, value) ∈ target.supplied style ↔ parameter.Supplies style target value := by
  rw [supplied, argumentsFor, mem_labelled_iff, and_iff_right parameter.mem_all]
  exact ⟨QueryParameter.supplies_of_shown, QueryParameter.shown_of_supplies⟩

theorem argumentsFor_middle {parameter : QueryParameter} {value : String}
    (h : parameter.Supplies style target value) (before behind : List QueryParameter) :
    target.argumentsFor style (before ++ parameter :: behind) =
      target.argumentsFor style before ++
        (parameter, value) :: target.argumentsFor style behind := by
  refine labelled_middle ?_ before behind
  exact QueryParameter.shown_of_supplies h

theorem hasArguments_iff :
    target.HasArguments ↔
      ∃ (parameter : QueryParameter) (value : String), parameter.Supplies style target value := by
  constructor
  · rintro (⟨text, notEmpty, held | held | held⟩ | ⟨n, held⟩ | ⟨b, held | held⟩)
    · exact ⟨.format, _, .wording held notEmpty⟩
    · exact ⟨.legendFormat, _, .wording held notEmpty⟩
    · exact ⟨.interval, _, .wording held notEmpty⟩
    · exact ⟨.intervalFactor, _, .number held⟩
    · exact ⟨.hide, _, .flag held⟩
    · exact ⟨.instant, _, .flag held⟩
  · rintro ⟨parameter, value, h⟩
    cases h with
    | wording held notEmpty =>
        cases parameter with
        | format => exact .inl ⟨_, notEmpty, .inl held⟩
        | legendFormat => exact .inl ⟨_, notEmpty, .inr (.inl held)⟩
        | interval => exact .inl ⟨_, notEmpty, .inr (.inr held)⟩
        | intervalFactor | hide | instant => cases held
    | number held => exact .inr (.inl ⟨_, held⟩)
    | flag held =>
        cases parameter with
        | hide => exact .inr (.inr ⟨_, .inl held⟩)
        | instant => exact .inr (.inr ⟨_, .inr held⟩)
        | format | legendFormat | intervalFactor | interval => cases held

theorem supplied_ne_nil_iff : target.supplied style ≠ [] ↔ target.HasArguments := by
  rw [hasArguments_iff style, ne_eq, List.eq_nil_iff_forall_not_mem, not_forall_not, Prod.exists]
  simp only [mem_supplied_iff]

theorem without_expr (parameter : QueryParameter) :
    (target.without parameter).expr = target.expr := by
  cases parameter <;> rfl

theorem literal?_without (parameter : QueryParameter) :
    parameter.literal? (target.without parameter) = none := by
  cases parameter <;> rfl

theorem literal?_without_other {parameter other : QueryParameter} (h : other ≠ parameter) :
    other.literal? (target.without parameter) = other.literal? target := by
  cases parameter <;> cases other <;> first | rfl | exact absurd rfl h

theorem supplied_without {before after : List (QueryParameter × String)}
    {parameter : QueryParameter} {value : String}
    (h : target.supplied style = before ++ (parameter, value) :: after) :
    (target.without parameter).supplied style = before ++ after := by
  unfold supplied argumentsFor at h ⊢
  refine labelled_without (by decide) ?_ (fun other hother => ?_) h
  · rw [literal?_without]
    rfl
  · rw [literal?_without_other target hother]

-- A query is written as its expression, and as all that it says beside it on one further line.
theorem fragment_writtenWith : target.WrittenWith style (target.supplied style) where
  text := target.fragment_eq_call style
  order := labelled_sublist _ _
  complete := target.mem_supplied_iff style
  line := target.supplied_ne_nil_iff style
  without before parameter value after h := by
    rw [fragment_eq_call, supplied_without style target h, without_expr]

-- A text that looks like an argument is none, and a false flag is one.
theorem fragment_writtenWith_at_flag :
    let target : Target :=
      { expr := "", format := some "", legendFormat := some "a',instant='true", hide := some false }
    let legend : QueryParameter × String := (.legendFormat, "'a',instant='true'")
    target.supplied .bare = [legend] ++ (.hide, "false") :: [] ∧
      (target.without .hide).fragment .bare = call target.expr ([legend] ++ []) := by
  intro target legend
  have hsupplied : target.supplied .bare = [legend] ++ (.hide, "false") :: [] := by decide
  exact ⟨hsupplied, (target.fragment_writtenWith .bare).without [legend] .hide "false" [] hsupplied⟩

end Supplied

end Target

end DashboardScript
