import DashboardScript.Proofs.Settings.Nested
import DashboardScript.Settings
import DashboardScript.Settings.Path

-- What a configuration file can say, whatever its format is.
namespace DashboardScript.Settings

inductive Key where
  | inputPath
  | literalStyle
  | unsupportedPolicy
  | title
  | uid
  | titleSource
  deriving DecidableEq

namespace Key

-- The names that lead to a setting.
def path : Key → List String
  | .inputPath => ["input_path"]
  | .literalStyle => ["literal_style"]
  | .unsupportedPolicy => ["unsupported_panel_policy"]
  | .title => ["preamble", "title"]
  | .uid => ["preamble", "uid"]
  | .titleSource => ["preamble", "title_source"]

-- The text that stands for a setting that is not given.
def default : Key → String
  | .inputPath => "./test.json"
  | .literalStyle => "quoted"
  | .unsupportedPolicy => "abort"
  | .title => "World Server New"
  | .uid => "arkadia-worldservers-new"
  | .titleSource => "fixed"

-- What a setting is called that is a choice, and the names to choose from.
def choice? : Key → Option (String × List String)
  | .literalStyle => some ("LiteralStyle", ["quoted", "bare"])
  | .unsupportedPolicy => some ("UnsupportedPanelPolicy", ["abort", "skip"])
  | .titleSource => some ("TitleSource", ["fixed", "dashboard"])
  | .inputPath | .title | .uid => none

-- A choice has to be given by one of its names, and any other setting can be given by any text.
def Accepts (key : Key) (text : String) : Prop := ∀ choice ∈ key.choice?, text ∈ choice.2

instance (key : Key) (text : String) : Decidable (key.Accepts text) :=
  inferInstanceAs (Decidable (∀ choice ∈ key.choice?, text ∈ choice.2))

def styleName : Script.LiteralStyle → String
  | .quoted => "quoted"
  | .bare => "bare"

def policyName : UnsupportedPolicy → String
  | .abort => "abort"
  | .skip => "skip"

def sourceName : TitleSource → String
  | .fixed => "fixed"
  | .dashboard => "dashboard"

-- The text that a setting has been given by.
def shown (settings : Settings) : Key → String
  | .inputPath => settings.inputPath
  | .literalStyle => styleName settings.literalStyle
  | .unsupportedPolicy => policyName settings.unsupportedPolicy
  | .title => settings.preamble.title
  | .uid => settings.preamble.uid
  | .titleSource => sourceName settings.preamble.titleSource

-- Why a choice cannot be made by a text.
def complaint (key : Key) (text : String) : String :=
  "enum " ++ (key.choice?.map Prod.fst).getD "" ++ " does not have variant constructor " ++ text ++
    " for key `" ++ ".".intercalate key.path ++ "`"

theorem path_injective {first second : Key} (h : first.path = second.path) : first = second := by
  cases first <;> cases second <;> first | rfl | exact absurd h (by decide)

theorem shown_default (key : Key) : key.shown {} = key.default := by cases key <;> rfl

theorem styleName_injective {first second : Script.LiteralStyle}
    (h : styleName first = styleName second) : first = second := by
  cases first <;> cases second <;> first | rfl | exact absurd h (by decide)

theorem policyName_injective {first second : UnsupportedPolicy}
    (h : policyName first = policyName second) : first = second := by
  cases first <;> cases second <;> first | rfl | exact absurd h (by decide)

theorem sourceName_injective {first second : TitleSource}
    (h : sourceName first = sourceName second) : first = second := by
  cases first <;> cases second <;> first | rfl | exact absurd h (by decide)

-- No setting is left that the texts do not tell.
theorem eq_of_shown {first second : Settings} (h : ∀ key : Key, key.shown first = key.shown second) :
    first = second := by
  obtain ⟨input, style, policy, title, uid, source⟩ := first
  obtain ⟨input', style', policy', title', uid', source'⟩ := second
  obtain rfl : input = input' := h .inputPath
  obtain rfl : style = style' := styleName_injective (h .literalStyle)
  obtain rfl : policy = policy' := policyName_injective (h .unsupportedPolicy)
  obtain rfl : title = title' := h .title
  obtain rfl : uid = uid' := h .uid
  obtain rfl : source = source' := sourceName_injective (h .titleSource)
  rfl

end Key

-- A name that can stand as it is in a key, without a dot or a bracket in it.
def IsBare (name : String) : Prop := name ≠ "" ∧ ∀ c ∈ name.toList, Tree.isKeyCharacter c

instance (name : String) : Decidable (IsBare name) :=
  decidable_of_iff (name ≠ "" ∧ name.toList.all Tree.isKeyCharacter)
    (and_congr_right' List.all_eq_true)

-- A name that no setting and no group of settings goes by.
def IsForeign (name : String) : Prop :=
  IsBare name ∧ name ∉ ["input_path", "literal_style", "unsupported_panel_policy", "preamble"]

instance (name : String) : Decidable (IsForeign name) :=
  inferInstanceAs (Decidable (IsBare name ∧ name ∉ _))

-- What a file can give a text for.
inductive Subject where
  | setting (key : Key)
  | foreign (name : String) (h : IsForeign name)
  deriving DecidableEq

namespace Subject

def path : Subject → List String
  | setting key => key.path
  | foreign name _ => [name]

theorem foreign_path_ne {name : String} (h : IsForeign name) (key : Key) : key.path ≠ [name] := by
  intro heq
  cases key with
  | inputPath | literalStyle | unsupportedPolicy =>
      obtain rfl := (List.cons.inj heq).1
      exact absurd h.2 (by decide)
  | title | uid | titleSource => cases heq

theorem path_injective {first second : Subject} (h : first.path = second.path) : first = second := by
  cases first with
  | setting key =>
      cases second with
      | setting other => rw [Key.path_injective h]
      | foreign name hname => exact absurd h (foreign_path_ne hname key)
  | foreign name hname =>
      cases second with
      | setting key => exact absurd h.symm (foreign_path_ne hname key)
      | foreign other hother =>
          obtain rfl := (List.cons.inj h).1
          rfl

-- A setting stands by itself or in the group, and what is none stands by itself.
theorem path_cases (subject : Subject) :
    (∃ name, subject.path = [name] ∧ name ≠ group ∧ IsBare name) ∨
      ∃ name, subject.path = [group, name] ∧ IsBare name := by
  cases subject with
  | setting key =>
      cases key with
      | inputPath | literalStyle | unsupportedPolicy =>
          exact .inl ⟨_, rfl, by decide, by decide⟩
      | title | uid | titleSource => exact .inr ⟨_, rfl, by decide⟩
  | foreign name h =>
      refine .inl ⟨name, rfl, fun heq => ?_, h.1⟩
      subst heq
      exact absurd h.2 (by decide)

end Subject

-- A text without quotes, backslashes and control characters.
def IsPlain (text : String) : Prop :=
  ∀ c ∈ text.toList, ' ' ≤ c ∧ c ≠ '\x7f' ∧ c ≠ '"' ∧ c ≠ '\\'

instance (text : String) : Decidable (IsPlain text) := List.decidableBAll _ text.toList

-- What a file says, in some order. Nothing is said twice.
structure Assignment where
  entries : List (Subject × String)
  once : (entries.map Prod.fst).Nodup
  plain : ∀ entry ∈ entries, IsPlain entry.2

namespace Assignment

variable (assignment : Assignment)

def value? (key : Key) : Option String := assignment.entries.lookup (.setting key)

-- The same by the names that lead to what is said.
def given : List (List String × String) :=
  assignment.entries.map fun entry => (entry.1.path, entry.2)

-- Every choice is given by one of its names.
def Chooses : Prop := ∀ key text, assignment.value? key = some text → key.Accepts text

theorem nodup_given : (assignment.given.map Prod.fst).Nodup := by
  have hpaths := assignment.once.map fun _ _ => Subject.path_injective
  rw [List.map_map] at hpaths
  rw [given, List.map_map]
  exact hpaths

theorem mem_given_iff (subject : Subject) (text : String) :
    (subject.path, text) ∈ assignment.given ↔ (subject, text) ∈ assignment.entries := by
  rw [given, List.mem_map]
  constructor
  · rintro ⟨⟨other, held⟩, hmem, heq⟩
    obtain ⟨hpath, rfl⟩ := Prod.mk.inj heq
    rwa [← Subject.path_injective hpath]
  · exact fun hmem => ⟨(subject, text), hmem, rfl⟩

theorem lookup_given (key : Key) : assignment.given.lookup key.path = assignment.value? key := by
  refine Option.ext fun text => ?_
  rw [lookup_eq_some_iff assignment.nodup_given, value?, lookup_eq_some_iff assignment.once]
  exact assignment.mem_given_iff (.setting key) text

-- Each text is plain, and what it is given for has a path of one of two forms.
theorem cases_of_mem_given {path : List String} {text : String}
    (h : (path, text) ∈ assignment.given) :
    IsPlain text ∧ ((∃ name, path = [name] ∧ name ≠ group ∧ IsBare name) ∨
      ∃ name, path = [group, name] ∧ IsBare name) := by
  obtain ⟨⟨subject, held⟩, hmem, heq⟩ := List.mem_map.mp h
  obtain ⟨rfl, rfl⟩ := Prod.mk.inj heq
  exact ⟨assignment.plain _ hmem, subject.path_cases⟩

end Assignment

end DashboardScript.Settings
