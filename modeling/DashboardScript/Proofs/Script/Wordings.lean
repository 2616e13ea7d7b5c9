import DashboardScript.Proofs.Script.View

namespace DashboardScript

namespace Script

-- A value that is given as a text or as a keyword.
def IsWording (literal : Literal) (text : String) : Prop :=
  literal = .text text ∨ literal = .keyword text

-- The argument shows no wording but such as is good.
def WordingHas (good : String → Prop) (field : Field) : Prop :=
  ∀ literal text, field.2 = some literal → IsWording literal text → text ≠ "" → good text

theorem isPresent_wording {literal : Literal} {text : String} (h : IsWording literal text)
    (hpresent : literal.isPresent) : text ≠ "" := by
  rcases h with rfl | rfl <;> simpa [Literal.isPresent] using hpresent

section WordingHas

variable {good : String → Prop} {name : String}

-- What is written for an argument is a value with good wordings alone.
theorem WordingHas.exists_of_shown {field : Field} (h : WordingHas good field)
    {style : LiteralStyle} {written : String} (hshown : shown style field.2 = some written) :
    ∃ literal : Literal, literal.render style = written ∧
      ∀ text, IsWording literal text → good text := by
  obtain ⟨literal, hfilter, rfl⟩ := Option.map_eq_some_iff.mp hshown
  obtain ⟨hvalue, hpresent⟩ := Option.filter_eq_some_iff.mp hfilter
  exact ⟨literal, rfl, fun text hwording =>
    h literal text hvalue hwording (isPresent_wording hwording hpresent)⟩

theorem mem_visible {text : Option String} {s : String} (h : text = some s) (hne : s ≠ "") :
    s ∈ visible text := by
  simp [visible, h, Option.filter, hne]

theorem wordingHas_map {α : Type} {value : Option α} {wrap : α → Literal}
    (h : ∀ a ∈ value, ∀ text, IsWording (wrap a) text → text ≠ "" → good text) :
    WordingHas good (name, value.map wrap) := by
  intro literal text hvalue hwording hne
  obtain ⟨a, ha, rfl⟩ := Option.map_eq_some_iff.mp hvalue
  exact h a ha text hwording hne

theorem wordingHas_text {text : Option String} (h : ∀ s ∈ visible text, good s) :
    WordingHas good (name, text.map .text) := by
  refine wordingHas_map ?_
  rintro s hs _ (heq | heq) hne <;> cases heq
  exact h s (mem_visible hs hne)

theorem wordingHas_keyword {text : Option String} (h : ∀ s ∈ visible text, good s) :
    WordingHas good (name, text.map .keyword) := by
  refine wordingHas_map ?_
  rintro s hs _ (heq | heq) hne <;> cases heq
  exact h s (mem_visible hs hne)

theorem wordingHas_flag (flag : Option Bool) : WordingHas good (name, flag.map .flag) := by
  refine wordingHas_map ?_
  rintro b _ _ (heq | heq) <;> cases heq

theorem wordingHas_number (number : Option Json.Number) :
    WordingHas good (name, number.map .number) := by
  refine wordingHas_map ?_
  rintro n _ _ (heq | heq) <;> cases heq

end WordingHas

end Script

open Script

-- Every wording among the arguments of a query or of a panel is a text of its view.
theorem Target.wordingHas {good : String → Prop} {target : Target}
    (h : ∀ text ∈ target.view.texts, good text) : ∀ field ∈ target.fields, WordingHas good field := by
  simp only [TargetView.texts, view, List.forall_mem_cons, List.forall_mem_append,
    Option.mem_toList] at h
  obtain ⟨_, ⟨hformat, hlegend⟩, hinterval⟩ := h
  simp only [fields, List.forall_mem_cons, List.not_mem_nil, false_implies, implies_true, and_true]
  exact ⟨wordingHas_text hformat, wordingHas_text hlegend, wordingHas_number _, wordingHas_flag _,
    wordingHas_flag _, wordingHas_text hinterval⟩

theorem Panel.ownWordingHas {good : String → Prop} {panel : Panel} {kind : PanelKind}
    (h : ∀ text ∈ (panel.ownView kind).texts, good text) :
    ∀ field ∈ panel.ownFields kind, WordingHas good field := by
  cases kind <;>
    simp only [KindView.texts, ownView, List.forall_mem_append, Option.mem_toList] at h <;>
    simp only [ownFields, List.forall_mem_cons, List.not_mem_nil, false_implies, implies_true,
      and_true]
  case row => exact wordingHas_flag _
  case pieChart => exact wordingHas_keyword h
  case barGauge => exact wordingHas_keyword h
  case gauge =>
    obtain ⟨⟨hversion, hunit⟩, hmode⟩ := h
    exact ⟨wordingHas_text hversion, wordingHas_keyword hunit, wordingHas_keyword hmode⟩
  case stat =>
    obtain ⟨⟨⟨⟨⟨hcolor, hjustify⟩, horientation⟩, hversion⟩, hunit⟩, hmode⟩ := h
    exact ⟨wordingHas_keyword hcolor, wordingHas_keyword hjustify, wordingHas_keyword horientation,
      wordingHas_text hversion, wordingHas_keyword hunit, wordingHas_keyword hmode⟩

theorem Panel.wordingHas {good : String → Prop} {panel : Panel} {kind : PanelKind}
    (h : ∀ text ∈ (panel.view kind).texts, good text) :
    ∀ field ∈ panel.fields kind, WordingHas good field := by
  simp only [PanelView.texts, view, List.forall_mem_append, Option.mem_toList] at h
  obtain ⟨⟨⟨htitle, hdescription⟩, hown⟩, _⟩ := h
  rw [fields, List.forall_mem_cons, List.forall_mem_cons]
  exact ⟨wordingHas_text htitle, wordingHas_text hdescription, ownWordingHas hown⟩

end DashboardScript
