import DashboardScript.Proofs.Script.Unambiguous

namespace DashboardScript

open Script
open Text (append_cons_inj flatMap_append_inj map_eq_map_of_view toList_intercalate_cons)

theorem map_quoted_injective {first second : Option String}
    (h : first.map quoted = second.map quoted) : first = second :=
  Option.map_injective (fun _ _ => quoted_injective) h

theorem map_styled_injective {style : LiteralStyle} {first second : Option String}
    (h : first.map (styled style) = second.map (styled style)) : first = second :=
  Option.map_injective (fun _ _ => styled_injective style) h

theorem map_flag_injective {style : LiteralStyle} {first second : Option Bool}
    (h : (first.map fun b => styled style (Literal.flag b).plain) =
      second.map fun b => styled style (Literal.flag b).plain) : first = second :=
  Option.map_injective (fun _ _ hb => plain_flag_injective (styled_injective style hb)) h

namespace Target

theorem fieldClosed (style : LiteralStyle) (target : Target)
    (hfree : ∀ text ∈ target.view.texts, QuoteFree text) :
    ∀ field ∈ target.fields, FieldClosed '\n' style field := by
  have hnames : ∀ field ∈ target.fields, IsName '\n' field.1 := by
    simp only [fields, List.forall_mem_cons, List.not_mem_nil, false_implies, implies_true, and_true]
    decide
  exact fun field hfield =>
    fieldClosed_of_wordingHas (hnames field hfield) (wordingHas hfree field hfield)

theorem view_eq_of_shown_eq (style : LiteralStyle) {first second : Target}
    (hexpr : first.expr = second.expr)
    (h : first.fields.map (fun field => shown style field.2) =
      second.fields.map fun field => shown style field.2) :
    first.view = second.view := by
  simp only [fields, List.map_cons, List.map_nil, shown_text, shown_flag, shown_number,
    List.cons.injEq, and_true] at h
  obtain ⟨hformat, hlegend, hfactor, hhide, hinstant, hinterval⟩ := h
  simp only [view, hexpr, map_quoted_injective hformat, map_quoted_injective hlegend,
    map_styled_injective hfactor, map_flag_injective hhide, map_flag_injective hinstant,
    map_quoted_injective hinterval]

theorem fields_nodup (target : Target) : (target.fields.map Prod.fst).Nodup := by
  simp only [fields, List.map_cons, List.map_nil]
  decide

-- Behind the expression of a query comes a line of arguments or the end of its call.
theorem line_append_inj {first second : List (String × String)}
    (hfirst : ∀ argument ∈ first, IsName '\n' argument.1 ∧ Closed argument.2)
    (hsecond : ∀ argument ∈ second, IsName '\n' argument.1 ∧ Closed argument.2)
    {r s : List Char}
    (h : (if first = [] then "" else "      " ++ String.join (first.map argumentText) ++
        "\n").toList ++ ("    )\n  )\n".toList ++ r) =
      (if second = [] then "" else "      " ++ String.join (second.map argumentText) ++
        "\n").toList ++ ("    )\n  )\n".toList ++ s)) : first = second ∧ r = s := by
  have hline : "      ".toList = [' ', ' ', ' ', ' ', ' ', ' '] := rfl
  have hend : "    )\n  )\n".toList = [' ', ' ', ' ', ' ', ')', '\n', ' ', ' ', ')', '\n'] := rfl
  by_cases hf : first = [] <;> by_cases hs : second = []
  · simp only [hf, hs, if_true, List.append_right_inj] at h
    exact ⟨hf.trans hs.symm, h⟩
  · simp [hf, hs, hline, hend] at h
  · simp [hf, hs, hline, hend] at h
  · simp only [hf, hs, if_false, String.toList_append, List.append_assoc,
      List.append_right_inj] at h
    obtain ⟨heq, h⟩ := arguments_append_inj '\n' (by decide) hfirst hsecond h
    exact ⟨heq, List.append_cancel_left h⟩

theorem fragment_append_inj (style : LiteralStyle) {first second : Target}
    (hfirst : ∀ text ∈ first.view.texts, QuoteFree text)
    (hsecond : ∀ text ∈ second.view.texts, QuoteFree text) {r s : List Char}
    (h : (first.fragment style).toList ++ r = (second.fragment style).toList ++ s) :
    first.view = second.view ∧ r = s := by
  have hexpr : ∀ target : Target, target.expr ∈ target.view.texts := fun _ => List.mem_cons_self
  rw [fragment_eq, fragment_eq] at h
  simp only [String.toList_append, List.append_assoc, List.append_right_inj] at h
  obtain ⟨he, h⟩ := quoted_append_inj (hfirst _ (hexpr first)) (hsecond _ (hexpr second)) h
  simp only [List.append_right_inj] at h
  obtain ⟨hpresent, hrs⟩ := line_append_inj (closed_of_mem_present (fieldClosed style first hfirst))
    (closed_of_mem_present (fieldClosed style second hsecond)) h
  exact ⟨view_eq_of_shown_eq style he (shown_eq_of_present_eq rfl first.fields_nodup hpresent), hrs⟩

theorem fragment_eq_of_view_eq (style : LiteralStyle) {first second : Target}
    (h : first.view = second.view) : first.fragment style = second.fragment style := by
  simp only [view, TargetView.mk.injEq] at h
  obtain ⟨hexpr, hformat, hlegend, hfactor, hhide, hinstant, hinterval⟩ := h
  have hpresent : present style first.fields = present style second.fields := by
    simp only [fields, present_cons, shown_text, shown_number, shown_flag, hformat, hlegend,
      hfactor, hhide, hinstant, hinterval]
  rw [fragment_eq, fragment_eq, hexpr, hpresent]

end Target

theorem PanelKind.constructor_injective {first second : PanelKind}
    (h : first.constructor = second.constructor) : first = second := by
  cases first <;> cases second <;> first | rfl | exact absurd h (by decide)

namespace Panel

theorem fields_nodup (panel : Panel) (kind : PanelKind) :
    ((panel.fields kind).map Prod.fst).Nodup := by
  cases kind <;>
  · simp only [fields, ownFields, List.map_cons, List.map_nil]
    decide

theorem names_eq (first second : Panel) (kind : PanelKind) :
    (first.fields kind).map Prod.fst = (second.fields kind).map Prod.fst := by
  cases kind <;> rfl

theorem fieldClosed (style : LiteralStyle) (panel : Panel) (kind : PanelKind)
    (hfree : ∀ text ∈ (panel.view kind).texts, QuoteFree text) :
    ∀ field ∈ panel.fields kind, FieldClosed ')' style field := by
  have hnames : ∀ field ∈ panel.fields kind, IsName ')' field.1 := by
    cases kind <;>
    · simp only [fields, ownFields, List.forall_mem_cons, List.not_mem_nil, false_implies,
        implies_true, and_true]
      decide
  exact fun field hfield =>
    fieldClosed_of_wordingHas (hnames field hfield) (wordingHas hfree field hfield)

theorem ownView_eq_of_shown_eq (style : LiteralStyle) {first second : Panel} (kind : PanelKind)
    (h : (first.ownFields kind).map (fun field => shown style field.2) =
      (second.ownFields kind).map fun field => shown style field.2) :
    first.ownView kind = second.ownView kind := by
  cases kind <;>
    simp only [ownFields, List.map_cons, List.map_nil, shown_text, shown_keyword, shown_flag,
      List.cons.injEq, and_true] at h
  case timeseries => rfl
  case row => simp only [ownView, Option.some.inj (map_flag_injective h)]
  case pieChart => simp only [ownView, map_quoted_injective h]
  case barGauge => simp only [ownView, map_quoted_injective h]
  case gauge =>
    obtain ⟨hversion, hunit, hmode⟩ := h
    simp only [ownView, map_quoted_injective hversion, map_quoted_injective hunit,
      map_quoted_injective hmode]
  case stat =>
    obtain ⟨hcolor, hjustify, horientation, hversion, hunit, hmode⟩ := h
    simp only [ownView, map_quoted_injective hcolor, map_quoted_injective hjustify,
      map_quoted_injective horientation, map_quoted_injective hversion, map_quoted_injective hunit,
      map_quoted_injective hmode]

-- A constructor ends at its point, and its arguments at their bracket.
theorem call_append_inj (style : LiteralStyle) {first second : Panel} {kind other : PanelKind}
    (hfirst : ∀ text ∈ (first.view kind).texts, QuoteFree text)
    (hsecond : ∀ text ∈ (second.view other).texts, QuoteFree text) {r s : List Char}
    (h : (first.call style kind).toList ++ r = (second.call style other).toList ++ s) :
    kind = other ∧ visible first.title = visible second.title ∧
      visible first.description = visible second.description ∧
      first.ownView kind = second.ownView other ∧ r = s := by
  have hpoint : ∀ kind : PanelKind, '.' ∉ kind.constructor.toList := by
    intro kind
    cases kind <;> decide
  simp only [call, arguments_written, String.toList_append, List.append_assoc,
    List.append_right_inj] at h
  obtain ⟨hname, _, h⟩ := append_cons_inj (· = '.') (fun x hx hc => hpoint kind (hc ▸ hx))
    (fun x hx hc => hpoint other (hc ▸ hx)) rfl rfl h
  obtain rfl := PanelKind.constructor_injective (String.toList_inj.mp hname)
  have hopen : "new(".toList ++ _ = "new(".toList ++ _ := h
  obtain ⟨hpresent, hrs⟩ := arguments_append_inj ')' (by decide)
    (closed_of_mem_present (fieldClosed style first kind hfirst))
    (closed_of_mem_present (fieldClosed style second kind hsecond))
    (List.append_cancel_left hopen)
  have hshown :=
    shown_eq_of_present_eq (names_eq first second kind) (first.fields_nodup kind) hpresent
  simp only [fields, List.map_cons, shown_text, List.cons.injEq] at hshown
  obtain ⟨htitle, hdescription, hown⟩ := hshown
  exact ⟨rfl, map_quoted_injective htitle, map_quoted_injective hdescription,
    ownView_eq_of_shown_eq style kind hown, hrs⟩

theorem kind_eq_of_ownView_eq {first second : Panel} {kind other : PanelKind}
    (h : first.ownView kind = second.ownView other) : kind = other := by
  cases kind <;> cases other <;> first | rfl | exact absurd h (by simp [ownView])

theorem call_eq_of_view_eq (style : LiteralStyle) {first second : Panel} {kind other : PanelKind}
    (h : first.view kind = second.view other) :
    first.call style kind = second.call style other := by
  simp only [view, PanelView.mk.injEq] at h
  obtain ⟨_, htitle, hdescription, hown, _⟩ := h
  obtain rfl := kind_eq_of_ownView_eq hown
  have hpresent : present style (first.ownFields kind) = present style (second.ownFields kind) := by
    cases kind <;>
      simp only [ownView, KindView.row.injEq, KindView.pieChart.injEq, KindView.stat.injEq,
        KindView.barGauge.injEq, KindView.gauge.injEq] at hown <;>
      simp only [ownFields, present_cons, shown_text, shown_keyword, shown_flag, hown]
  simp only [call, arguments_written, fields, present_cons, shown_text, htitle, hdescription,
    hpresent]

end Panel

theorem block_eq_of_view_eq (style : LiteralStyle) {first second : Panel × PanelKind}
    (h : first.1.view first.2 = second.1.view second.2) :
    block style first.1 first.2 = block style second.1 second.2 := by
  have hcall := Panel.call_eq_of_view_eq style h
  simp only [Panel.view, PanelView.mk.injEq] at h
  obtain ⟨hpos, _, _, _, htargets⟩ := h
  have hfragments := map_eq_map_of_view
    (fun _ _ hview => Target.fragment_eq_of_view_eq style hview) htargets
  unfold block
  rw [hcall, hpos, hfragments]

theorem block_append_inj (style : LiteralStyle) {first second : Panel × PanelKind}
    (hfirst : ∀ text ∈ (first.1.view first.2).texts, QuoteFree text)
    (hsecond : ∀ text ∈ (second.1.view second.2).texts, QuoteFree text) {r s : List Char}
    (h : (block style first.1 first.2).toList ++ r = (block style second.1 second.2).toList ++ s) :
    first.1.view first.2 = second.1.view second.2 ∧ r = s := by
  have htarget : ∀ entry : Panel × PanelKind,
      (∀ text ∈ (entry.1.view entry.2).texts, QuoteFree text) →
      ∀ target ∈ entry.1.targetList, ∀ text ∈ target.view.texts, QuoteFree text := by
    intro entry hfree target htarget text htext
    refine hfree text ?_
    simp only [PanelView.texts, Panel.view, List.mem_append, List.mem_flatMap, List.mem_map]
    exact .inr ⟨target.view, ⟨target, htarget, rfl⟩, htext⟩
  have hstart : ∀ (target : Target) (x : List Char),
      ¬∃ y, (target.fragment style).toList ++ x = ')' :: y := by
    rintro target x ⟨y, hy⟩
    rw [Target.fragment_eq] at hy
    simp only [String.toList_append, List.append_assoc] at hy
    exact absurd (List.cons.inj hy).1 (by decide)
  unfold block at h
  simp only [String.toList_append, List.append_assoc, List.append_right_inj] at h
  obtain ⟨hpos, h⟩ := gridPos_append_inj h
  simp only [List.append_right_inj] at h
  obtain ⟨-, htitle, hdescription, hown, h⟩ := Panel.call_append_inj style hfirst hsecond h
  simp only [List.append_right_inj, String.toList_join, List.flatMap_map] at h
  obtain ⟨htargets, hrs⟩ := flatMap_append_inj Target.view
    (fun target => ∀ text ∈ target.view.texts, QuoteFree text) (fun text => ∃ y, text = ')' :: y)
    (r := ")\n".toList ++ r) (s := ")\n".toList ++ s)
    (fun a b ha hb r s => Target.fragment_append_inj style ha hb) (fun a _ x => hstart a x)
    (htarget first hfirst) (htarget second hsecond) ⟨_, rfl⟩ ⟨_, rfl⟩ h
  refine ⟨?_, List.append_cancel_left hrs⟩
  simp only [Panel.view, hpos, htitle, hdescription, hown, htargets]

namespace Script

theorem toList_intercalate_quoted (item : String) (items : List String) :
    (", ".intercalate ((item :: items).map quoted)).toList =
      (quoted item).toList ++ items.flatMap fun item => ", ".toList ++ (quoted item).toList := by
  rw [List.map_cons, toList_intercalate_cons, List.flatMap_map]

theorem quotedList_append_inj {first second : List String} (hfirst : ∀ item ∈ first, QuoteFree item)
    (hsecond : ∀ item ∈ second, QuoteFree item) {r s : List Char}
    (h : (quotedList first).toList ++ r = (quotedList second).toList ++ s) :
    first = second ∧ r = s := by
  have hquote : ∀ item : String, (quoted item).toList = '\'' :: (item.toList ++ ['\'']) := by
    intro item
    simp [quoted]
  have hclose : "]".toList = [']'] := rfl
  simp only [quotedList, String.toList_append, List.append_assoc, List.append_right_inj] at h
  cases first with
  | nil =>
      cases second with
      | nil => exact ⟨rfl, List.append_cancel_left h⟩
      | cons item items =>
          rw [toList_intercalate_quoted, hquote, hclose] at h
          simp at h
  | cons item items =>
      cases second with
      | nil =>
          rw [toList_intercalate_quoted, hquote, hclose] at h
          simp at h
      | cons item' items' =>
          rw [toList_intercalate_quoted, toList_intercalate_quoted, List.append_assoc,
            List.append_assoc] at h
          obtain ⟨rfl, htails⟩ := quoted_append_inj (hfirst _ (by simp)) (hsecond _ (by simp)) h
          have hitem : ∀ a b, QuoteFree a → QuoteFree b → ∀ x y : List Char,
              (", ".toList ++ (quoted a).toList) ++ x = (", ".toList ++ (quoted b).toList) ++ y →
              id a = id b ∧ x = y := by
            intro a b ha hb x y hab
            rw [List.append_assoc, List.append_assoc] at hab
            exact quoted_append_inj ha hb (List.append_cancel_left hab)
          have hend : ∀ a, QuoteFree a → ∀ x : List Char,
              ¬∃ y, (", ".toList ++ (quoted a).toList) ++ x = ']' :: y := by
            rintro a - x ⟨y, hy⟩
            exact absurd (List.cons.inj hy).1 (by decide)
          obtain ⟨hitems, hrs⟩ := flatMap_append_inj id QuoteFree (fun text => ∃ x, text = ']' :: x)
            hitem hend
            (fun x hx => hfirst x (List.mem_cons_of_mem _ hx))
            (fun x hx => hsecond x (List.mem_cons_of_mem _ hx)) ⟨r, rfl⟩ ⟨s, rfl⟩ htails
          exact ⟨by simpa using hitems, (List.cons.inj hrs).2⟩

theorem Preamble.render_append_inj {first second : Preamble}
    (hfirst : ∀ text ∈ first.title :: first.uid :: first.tags, QuoteFree text)
    (hsecond : ∀ text ∈ second.title :: second.uid :: second.tags, QuoteFree text)
    {r s : List Char} (h : first.render.toList ++ r = second.render.toList ++ s) :
    first = second ∧ r = s := by
  simp only [List.forall_mem_cons] at hfirst hsecond
  unfold render at h
  simp only [String.toList_append, List.append_assoc, List.append_right_inj] at h
  obtain ⟨htitle, h⟩ := quoted_append_inj hfirst.1 hsecond.1 h
  simp only [List.append_right_inj] at h
  obtain ⟨huid, h⟩ := quoted_append_inj hfirst.2.1 hsecond.2.1 h
  simp only [List.append_right_inj] at h
  obtain ⟨htags, h⟩ := quotedList_append_inj hfirst.2.2 hsecond.2.2 h
  simp only [List.append_right_inj] at h
  refine ⟨?_, h⟩
  cases first
  cases second
  simp_all

end Script

end DashboardScript
