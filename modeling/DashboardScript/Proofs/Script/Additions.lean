import DashboardScript.Proofs.Script.View

namespace DashboardScript.Script

-- One step that asks for an argument. Nothing is added where there is no value to show.
inductive Addition where
  | text (name : String) (value : Option String)
  | keyword (name : String) (value : Option String)
  | flag (name : String) (value : Option Bool)
  | number (name : String) (value : Option Json.Number)
  deriving DecidableEq

namespace Addition

def apply (args : Arguments) : Addition → Arguments
  | text name value => args.text name value
  | keyword name value => args.keyword name value
  | flag name value => args.flag name value
  | number name value => args.number name value

def name : Addition → String
  | text name _ | keyword name _ | flag name _ | number name _ => name

-- Texts and keywords have to be given and must not be empty. Flags and numbers have to be given.
def IsPresent : Addition → Prop
  | text _ value | keyword _ value => value ≠ none ∧ value ≠ some ""
  | flag _ value => value ≠ none
  | number _ value => value ≠ none

instance : DecidablePred IsPresent := fun addition =>
  match addition with
  | text _ value | keyword _ value => inferInstanceAs (Decidable (value ≠ none ∧ value ≠ some ""))
  | flag _ value => inferInstanceAs (Decidable (value ≠ none))
  | number _ value => inferInstanceAs (Decidable (value ≠ none))

-- How the value is written. Only the quotes around flags and numbers are up to the style.
def literal? (style : LiteralStyle) : Addition → Option String
  | text _ value | keyword _ value => (value.filter (· != "")).map fun s => "'" ++ s ++ "'"
  | flag _ value => value.map fun b => styled style (if b then "true" else "false")
  | number _ value => value.map fun n => styled style n.text

def argument? (style : LiteralStyle) (addition : Addition) : Option String :=
  (addition.literal? style).map fun literal => addition.name ++ "=" ++ literal ++ ","

-- The step as it is handed to the arguments.
def field : Addition → Field
  | text name value => (name, value.map .text)
  | keyword name value => (name, value.map .keyword)
  | flag name value => (name, value.map .flag)
  | number name value => (name, value.map .number)

section Step

variable (style : LiteralStyle) (args : Arguments) (addition : Addition)

theorem apply_eq_add : addition.apply args = args.add addition.field.1 addition.field.2 := by
  cases addition <;> rfl

theorem field_fst : addition.field.1 = addition.name := by
  cases addition <;> rfl

theorem shown_field : shown style addition.field.2 = addition.literal? style := by
  cases addition with
  | text name value => exact shown_text style value
  | keyword name value => exact shown_keyword style value
  | flag name value => exact shown_flag style value
  | number name value =>
      refine (shown_number style value).trans ?_
      rw [Option.map_map]
      rfl

theorem isSome_argument?_iff : (addition.argument? style).isSome ↔ addition.IsPresent := by
  rw [argument?, Option.isSome_map]
  cases addition with
  | text name value | keyword name value =>
      cases value with
      | none => simp [literal?, IsPresent]
      | some s => by_cases h : s = "" <;> simp [literal?, IsPresent, Option.filter, h]
  | flag name value => cases value <;> simp [literal?, IsPresent]
  | number name value => cases value <;> simp [literal?, IsPresent]

theorem argument?_eq_none_iff : addition.argument? style = none ↔ ¬addition.IsPresent := by
  rw [← isSome_argument?_iff style, Option.not_isSome_iff_eq_none]

theorem toList_argument? :
    ((shown style addition.field.2).map (addition.field.1, ·)).toList.map argumentText =
      (addition.argument? style).toList := by
  rw [shown_field, field_fst, argument?]
  cases addition.literal? style <;> rfl

-- A step adds its argument behind the others, or nothing at all.
theorem apply_eq :
    addition.apply args =
      { args with written := args.written ++ (addition.argument? args.style).getD "" } := by
  have hstyle := Arguments.add_style args addition.field.1 addition.field.2
  have hwritten := Arguments.add_written args addition.field.1 addition.field.2
  rw [toList_argument?] at hwritten
  rw [apply_eq_add]
  cases hadd : args.add addition.field.1 addition.field.2 with
  | mk style written =>
      rw [hadd] at hstyle hwritten
      simp only at hstyle hwritten
      subst hstyle hwritten
      cases addition.argument? args.style <;> simp

theorem apply_of_not_isPresent (h : ¬addition.IsPresent) : addition.apply args = args := by
  rw [apply_eq, (argument?_eq_none_iff args.style addition).mpr h, Option.getD_none,
    String.append_empty]

end Step

end Addition

namespace Arguments

-- The arguments after some more steps.
def extend (args : Arguments) (additions : List Addition) : Arguments :=
  additions.foldl Addition.apply args

section Extend

variable (style : LiteralStyle) (args : Arguments) (additions : List Addition)

theorem extend_eq :
    args.extend additions =
      { args with
        written := args.written ++ String.join (additions.filterMap (·.argument? args.style)) } := by
  induction additions generalizing args with
  | nil => simp [extend]
  | cons addition rest ih =>
      have hstep := addition.apply_eq args
      rw [show args.extend (addition :: rest) = (addition.apply args).extend rest from rfl, ih,
        hstep, List.filterMap_cons]
      cases addition.argument? args.style <;> simp [String.append_assoc]

theorem extend_filter :
    args.extend (additions.filter fun addition => addition.IsPresent) = args.extend additions := by
  induction additions generalizing args with
  | nil => rfl
  | cons addition rest ih =>
      by_cases h : addition.IsPresent
      · rw [List.filter_cons_of_pos (by simpa using h)]
        exact ih (addition.apply args)
      · rw [List.filter_cons_of_neg (by simpa using h), ih]
        exact congrArg (extend · rest) (addition.apply_of_not_isPresent args h).symm

theorem argument?_ne_empty {addition : Addition} {argument : String}
    (h : addition.argument? style = some argument) : argument ≠ "" := by
  obtain ⟨literal, -, rfl⟩ := Option.map_eq_some_iff.mp h
  exact argumentText_ne_empty (addition.name, literal)

-- An argument has at least its equals sign, so no text of arguments is empty, whatever the names and
-- the values are.
theorem join_eq_empty_iff :
    String.join (additions.filterMap (·.argument? style)) = "" ↔
      ¬∃ addition ∈ additions, addition.IsPresent := by
  induction additions with
  | nil => simp
  | cons addition rest ih =>
      by_cases h : addition.IsPresent
      · obtain ⟨argument, hargument⟩ :=
          Option.isSome_iff_exists.mp ((addition.isSome_argument?_iff style).mpr h)
        have hne := argument?_ne_empty style hargument
        simp [hargument, hne, h]
      · rw [List.filterMap_cons_none ((addition.argument?_eq_none_iff style).mpr h), ih]
        simp [h]

-- The arguments are those that have a value, in the order of the steps, and each step only adds to
-- what is there.
theorem extend_lists_present :
    ((Arguments.empty style).extend additions).written =
        String.join (additions.filterMap (·.argument? style)) ∧
      (∀ addition : Addition, (addition.argument? style).isSome ↔ addition.IsPresent) ∧
      (∀ (args : Arguments) (addition : Addition),
        addition.apply args =
          { args with written := args.written ++ (addition.argument? args.style).getD "" }) ∧
      (Arguments.empty style).extend (additions.filter fun addition => addition.IsPresent) =
        (Arguments.empty style).extend additions ∧
      (((Arguments.empty style).extend additions).isEmpty ↔
        ¬∃ addition ∈ additions, addition.IsPresent) := by
  have hwritten : ((Arguments.empty style).extend additions).written =
      String.join (additions.filterMap (·.argument? style)) := by
    rw [extend_eq]
    exact String.empty_append
  refine ⟨hwritten, fun addition => addition.isSome_argument?_iff style,
    fun args addition => addition.apply_eq args, extend_filter (Arguments.empty style) additions, ?_⟩
  rw [isEmpty, beq_iff_eq, hwritten]
  exact join_eq_empty_iff style additions

-- An empty name and a value that looks like the end of an argument count as any other.
example :
    ((Arguments.empty .bare).extend
      [.text "title" (some ""), .keyword "" (some "a',b="), .flag "hide" none,
        .flag "hide" (some false), .number "n" (some (.integer 2))]).written =
      "='a',b=',hide=false,n=2," := by
  decide

end Extend

end Arguments

end DashboardScript.Script
