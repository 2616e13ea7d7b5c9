import DashboardScript.Proofs.Json.NumberText
import DashboardScript.Proofs.Script.Pieces
import DashboardScript.Proofs.Script.Wordings

namespace DashboardScript

namespace Script

-- Where a scan of a script is: in code, in a string literal, or there behind a backslash.
inductive Mode where
  | code
  | text
  | escape
  deriving DecidableEq

-- A scan with the closing brackets that are due, the next one first.
structure Scan where
  mode : Mode
  due : List Char
  deriving DecidableEq

def closing? : Char → Option Char
  | '(' => some ')'
  | '[' => some ']'
  | '{' => some '}'
  | _ => none

def isClosing (c : Char) : Bool := c == ')' || c == ']' || c == '}'

-- Brackets count in code alone. The scan ends at a closing bracket that is not due.
def Scan.step (scan : Scan) (c : Char) : Option Scan :=
  match scan.mode, scan.due with
  | .text, due =>
    if c = '\'' then some ⟨.code, due⟩ else if c = '\\' then some ⟨.escape, due⟩ else some scan
  | .escape, due => some ⟨.text, due⟩
  | .code, due =>
    if c = '\'' then some ⟨.text, due⟩
    else
      match closing? c with
      | some closing => some ⟨.code, closing :: due⟩
      | none =>
        if isClosing c then
          match due with
          | [] => none
          | closing :: outer => if c = closing then some ⟨.code, outer⟩ else none
        else some scan

def scanFrom (start : Scan) (text : List Char) : Option Scan := text.foldlM Scan.step start

-- Every literal in the text is closed, and so is every bracket, by one of its kind and in order.
def Balanced (text : String) : Prop := scanFrom ⟨.code, []⟩ text.toList = some ⟨.code, []⟩

instance (text : String) : Decidable (Balanced text) := inferInstanceAs (Decidable (_ = _))

-- From code to code, the text closes the first brackets and leaves the last ones open, whatever is
-- open around it.
def Leads (text : String) (first last : List Char) : Prop :=
  ∀ outer, scanFrom ⟨.code, first ++ outer⟩ text.toList = some ⟨.code, last ++ outer⟩

theorem Leads.balanced {text : String} (h : Leads text [] []) : Balanced text := h []

theorem Leads.append {a b : String} {first m last : List Char} (ha : Leads a first m)
    (hb : Leads b m last) : Leads (a ++ b) first last := by
  intro outer
  have hfirst := ha outer
  unfold scanFrom at hfirst ⊢
  rw [String.toList_append, List.foldlM_append, hfirst]
  exact hb outer

-- A text that is even in itself is even inside of any brackets.
theorem Leads.inside {text : String} (h : Leads text [] []) (due : List Char) :
    Leads text due due := fun outer => h (due ++ outer)

theorem leads_empty (due : List Char) : Leads "" due due := fun _ => rfl

theorem leads_join {texts : List String} (h : ∀ text ∈ texts, Leads text [] []) :
    Leads (String.join texts) [] [] := by
  induction texts with
  | nil => exact leads_empty []
  | cons text texts ih =>
      rw [List.forall_mem_cons] at h
      rw [String.join_cons]
      exact h.1.append (ih h.2)

-- Neither a quote nor a bracket.
def IsPlain (c : Char) : Prop := c ≠ '\'' ∧ closing? c = none ∧ isClosing c = false

instance (c : Char) : Decidable (IsPlain c) := inferInstanceAs (Decidable (_ ∧ _))

def IsPlainText (text : String) : Prop := ∀ c ∈ text.toList, IsPlain c

-- By its characters, as there are too many others.
instance (text : String) : Decidable (IsPlainText text) := List.decidableBAll IsPlain text.toList

theorem step_plain {c : Char} (h : IsPlain c) (due : List Char) :
    Scan.step ⟨.code, due⟩ c = some ⟨.code, due⟩ := by
  obtain ⟨hquote, hopening, hclosing⟩ := h
  simp [Scan.step, hquote, hopening, hclosing]

theorem scanFrom_plain {text : List Char} (h : ∀ c ∈ text, IsPlain c) (due : List Char) :
    scanFrom ⟨.code, due⟩ text = some ⟨.code, due⟩ := by
  unfold scanFrom
  induction text with
  | nil => rfl
  | cons c text ih =>
      rw [List.forall_mem_cons] at h
      rw [List.foldlM_cons, step_plain h.1]
      exact ih h.2

theorem leads_plain {text : String} (h : IsPlainText text) : Leads text [] [] :=
  fun outer => scanFrom_plain h outer

-- A text that needs no escapes between single quotes.
def Unescaped (text : String) : Prop := ∀ c ∈ text.toList, c ≠ '\'' ∧ c ≠ '\\'

instance (text : String) : Decidable (Unescaped text) :=
  List.decidableBAll (fun c => c ≠ '\'' ∧ c ≠ '\\') text.toList

theorem scanFrom_text {text : List Char} (h : ∀ c ∈ text, c ≠ '\'' ∧ c ≠ '\\') (due : List Char) :
    scanFrom ⟨.text, due⟩ text = some ⟨.text, due⟩ := by
  unfold scanFrom
  induction text with
  | nil => rfl
  | cons c text ih =>
      rw [List.forall_mem_cons] at h
      have hstep : Scan.step ⟨.text, due⟩ c = some ⟨.text, due⟩ := by simp [Scan.step, h.1]
      rw [List.foldlM_cons, hstep]
      exact ih h.2

theorem leads_quoted {text : String} (h : Unescaped text) : Leads (quoted text) [] [] := by
  intro outer
  have hinner := scanFrom_text h outer
  have htext : (quoted text).toList = '\'' :: (text.toList ++ ['\'']) := by simp [quoted]
  unfold scanFrom at hinner ⊢
  rw [htext, List.foldlM_cons]
  refine (List.foldlM_append).trans ?_
  rw [show ([] : List Char) ++ outer = outer from rfl, hinner]
  rfl

-- A quote in a text ends the literal before its end, and then another one stays open.
example : ¬Balanced (quoted "it's") := by decide

theorem isPlain_of_isNumeric {c : Char} (h : IsNumeric c) : IsPlain c := by
  rcases h with hdigit | hsign
  · have hne : ∀ d : Char, d.isDigit = false → c ≠ d := fun d hd h => by simp [h, hd] at hdigit
    refine ⟨hne '\'' rfl, ?_, ?_⟩
    · unfold closing?
      split <;> first | rfl | exact absurd hdigit (by decide)
    · simp [isClosing, hne ')' rfl, hne ']' rfl, hne '}' rfl]
  · simp only [List.mem_cons, List.not_mem_nil, or_false] at hsign
    rcases hsign with rfl | rfl | rfl | rfl <;> decide

theorem leads_word (word : UInt32) : Leads (toString word) [] [] := by
  apply leads_plain
  intro c hc
  have hdigits : (toString word).toList = Nat.toDigits 10 word.toNat := Nat.toList_repr
  rw [hdigits] at hc
  exact isPlain_of_isNumeric (isNumeric_of_mem_toDigits hc)

theorem leads_styled (style : LiteralStyle) {text : String}
    (hplain : IsPlainText text) (hslash : '\\' ∉ text.toList) :
    Leads (styled style text) [] [] := by
  cases style with
  | quoted => exact leads_quoted fun c hc => ⟨(hplain c hc).1, fun h => hslash (h ▸ hc)⟩
  | bare => exact leads_plain hplain

theorem leads_render (style : LiteralStyle) {literal : Literal}
    (h : ∀ text, IsWording literal text → Unescaped text) : Leads (literal.render style) [] [] := by
  rw [← Literal.write_piece]
  cases literal with
  | text text => exact leads_quoted (h text (.inl rfl))
  | keyword text => exact leads_quoted (h text (.inr rfl))
  | flag b => apply leads_styled <;> cases b <;> decide
  | number n =>
      apply leads_styled
      · exact fun c hc => isPlain_of_isNumeric (n.isNumeric_of_mem_text c hc)
      · intro hslash
        rcases n.isNumeric_of_mem_text _ hslash with hdigit | hsign
        · exact absurd hdigit (by decide)
        · exact absurd hsign (by decide)

theorem leads_arguments (style : LiteralStyle) {fields : List Field}
    (hnames : ∀ field ∈ fields, IsPlainText field.1)
    (hwordings : ∀ field ∈ fields, WordingHas Unescaped field) :
    Leads (String.join ((present style fields).map argumentText)) [] [] := by
  refine leads_join ?_
  intro text htext
  obtain ⟨argument, hargument, rfl⟩ := List.mem_map.mp htext
  obtain ⟨field, hfield, hshown⟩ := List.mem_filterMap.mp hargument
  obtain ⟨written, hwritten, rfl⟩ := Option.map_eq_some_iff.mp hshown
  obtain ⟨literal, rfl, hgood⟩ := (hwordings field hfield).exists_of_shown hwritten
  exact (((leads_plain (hnames field hfield)).append fun _ => rfl).append
    (leads_render style hgood)).append fun _ => rfl

end Script

open Script

theorem GridPos.leads_literal (pos : GridPos) : Leads pos.literal [] [] := by
  unfold literal
  have hopen : Leads "\x7bh: " [] ['}'] := fun _ => rfl
  have hnext : Leads ", w: " ['}'] ['}'] ∧ Leads ", x: " ['}'] ['}'] ∧ Leads ", y: " ['}'] ['}'] :=
    ⟨fun _ => rfl, fun _ => rfl, fun _ => rfl⟩
  have hclose : Leads "\x7d" ['}'] [] := fun _ => rfl
  have hword : ∀ word : UInt32, Leads (toString word) ['}'] ['}'] :=
    fun word => (leads_word word).inside ['}']
  exact (((((((hopen.append (hword pos.h)).append hnext.1).append (hword pos.w)).append
    hnext.2.1).append (hword pos.x)).append hnext.2.2).append (hword pos.y)).append hclose

theorem Target.leads_fragment (style : LiteralStyle) {target : Target}
    (h : ∀ text ∈ target.view.texts, Unescaped text) : Leads (target.fragment style) [] [] := by
  have hexpr : Unescaped target.expr := h target.expr List.mem_cons_self
  have hnames : ∀ field ∈ target.fields, IsPlainText field.1 := by
    simp only [fields, List.forall_mem_cons, List.not_mem_nil, false_implies, implies_true, and_true]
    decide
  have harguments := leads_arguments style hnames (Target.wordingHas h)
  have hopen : Leads "  .addTarget(\n    prometheus.target(\n" [] [')', ')'] := fun _ => rfl
  have hclose : Leads "    )\n  )\n" [')', ')'] [] := fun _ => rfl
  have hline : Leads (if present style target.fields = [] then ""
      else "      " ++ String.join ((present style target.fields).map argumentText) ++ "\n") [] [] := by
    split
    · exact leads_empty []
    · exact ((leads_plain (by decide)).append harguments).append (leads_plain (by decide))
  have hlabel : Leads "      expr=" [')', ')'] [')', ')'] := fun _ => rfl
  have hcomma : Leads ",\n" [')', ')'] [')', ')'] := fun _ => rfl
  rw [fragment_eq]
  exact ((((hopen.append hlabel).append ((leads_quoted hexpr).inside _)).append hcomma).append
    (hline.inside _)).append hclose

theorem Panel.leads_call (style : LiteralStyle) {kind : PanelKind} {panel : Panel}
    (h : ∀ text ∈ (panel.view kind).texts, Unescaped text) : Leads (panel.call style kind) [] [] := by
  have hnames : ∀ field ∈ panel.fields kind, IsPlainText field.1 := by
    cases kind <;>
    · simp only [fields, ownFields, List.forall_mem_cons, List.not_mem_nil, false_implies,
        implies_true, and_true]
      decide
  have harguments := leads_arguments style hnames (Panel.wordingHas h)
  have hconstructor : Leads kind.constructor [] [] := by
    cases kind <;> exact leads_plain (by decide)
  have hopen : Leads ".new(" [] [')'] := fun _ => rfl
  have hclose : Leads ")" [')'] [] := fun _ => rfl
  rw [call, arguments_written]
  exact ((((leads_plain (by decide)).append hconstructor).append hopen).append
    (harguments.inside _)).append hclose

namespace Script

theorem leads_block (style : LiteralStyle) {panel : Panel} {kind : PanelKind}
    (h : ∀ text ∈ (panel.view kind).texts, Unescaped text) :
    Leads (block style panel kind) [] [] := by
  have htargets : Leads (String.join (panel.targetList.map (Target.fragment style))) [] [] := by
    refine leads_join ?_
    intro text htext
    obtain ⟨target, htarget, rfl⟩ := List.mem_map.mp htext
    refine Target.leads_fragment style fun text htext => h text ?_
    rw [PanelView.texts]
    exact List.mem_append_right _
      (List.mem_flatMap.mpr ⟨target.view, List.mem_map_of_mem htarget, htext⟩)
  have hopen : Leads ".addPanel(\n" [] [')'] := fun _ => rfl
  have hpos : Leads "  gridPos=" [')'] [')'] := fun _ => rfl
  have hcomma : Leads ",\n" [')'] [')'] := fun _ => rfl
  have hpanel : Leads "  panel=" [')'] [')'] := fun _ => rfl
  have hsource : Leads "  datasource=prometheus\n" [')'] [')'] := fun _ => rfl
  have hclose : Leads ")\n" [')'] [] := fun _ => rfl
  unfold block
  exact (((((((((hopen.append hpos).append (panel.gridPos.leads_literal.inside _)).append
    hcomma).append hpanel).append ((Panel.leads_call style h).inside _)).append hcomma).append
    hsource).append (htargets.inside _))).append hclose

theorem leads_intercalate {texts : List String} (h : ∀ text ∈ texts, Leads text [] []) :
    Leads (", ".intercalate texts) [] [] := by
  induction texts with
  | nil => exact leads_empty []
  | cons text texts ih =>
      rw [List.forall_mem_cons] at h
      cases texts with
      | nil => simpa using h.1
      | cons next texts =>
          rw [String.intercalate_cons_cons]
          exact (h.1.append (leads_plain (by decide))).append (ih h.2)

theorem leads_quotedList {items : List String} (h : ∀ item ∈ items, Unescaped item) :
    Leads (quotedList items) [] [] := by
  have hopen : Leads "[" [] [']'] := fun _ => rfl
  have hclose : Leads "]" [']'] [] := fun _ => rfl
  have hitems : Leads (", ".intercalate (items.map quoted)) [] [] := by
    refine leads_intercalate ?_
    intro text htext
    obtain ⟨item, hitem, rfl⟩ := List.mem_map.mp htext
    exact leads_quoted (h item hitem)
  exact (hopen.append (hitems.inside _)).append hclose

theorem Preamble.leads_render {preamble : Preamble}
    (h : ∀ text ∈ preamble.title :: preamble.uid :: preamble.tags, Unescaped text) :
    Leads preamble.render [] [] := by
  rw [List.forall_mem_cons, List.forall_mem_cons] at h
  obtain ⟨htitle, huid, htags⟩ := h
  unfold render
  simp only [String.append_assoc]
  iterate 2 refine Leads.append (m := []) (fun _ => rfl) ?_
  -- the call for the dashboard is open from here on, and the one for its time picker for a while
  iterate 2 refine Leads.append (m := [')']) (fun _ => rfl) ?_
  refine ((leads_quoted htitle).inside _).append ?_
  iterate 8 refine Leads.append (m := [')']) (fun _ => rfl) ?_
  iterate 4 refine Leads.append (m := [')', ')']) (fun _ => rfl) ?_
  iterate 2 refine Leads.append (m := [')']) (fun _ => rfl) ?_
  refine ((leads_quoted huid).inside _).append ?_
  iterate 2 refine Leads.append (m := [')']) (fun _ => rfl) ?_
  refine ((leads_quotedList htags).inside _).append ?_
  refine Leads.append (m := [')']) (fun _ => rfl) ?_
  exact fun _ => rfl

end Script

end DashboardScript
