import DashboardScript.Proofs.Json.NumberText
import DashboardScript.Proofs.Script.Wordings
import DashboardScript.Proofs.Text.Occurrences
import DashboardScript.Script

namespace DashboardScript

open Text (Counts marksIn counts_empty counts_join counts_of_ended marksIn_concat
  marksIn_eq_zero_iff)

namespace Script

-- The calls that a script chains to its dashboard and to a panel.
inductive ChainedCall where
  | addPanel
  | addTarget
  deriving DecidableEq

namespace ChainedCall

def all : List ChainedCall := [addPanel, addTarget]

-- How the call begins.
def mark : ChainedCall → String
  | addPanel => ".addPanel("
  | addTarget => ".addTarget("

-- How often a script has the call for a query, and for a panel with its queries.
def perTarget : ChainedCall → Nat
  | addPanel => 0
  | addTarget => 1

def perPanel (panel : Panel) : ChainedCall → Nat
  | addPanel => 1
  | addTarget => panel.targetList.length

theorem mem_all (call : ChainedCall) : call ∈ all := by
  cases call <;> decide

theorem mark_ne_nil (call : ChainedCall) : call.mark.toList ≠ [] := by
  cases call <;> decide

end ChainedCall

-- Nowhere in the text does the call begin.
def CallFree (call : ChainedCall) (text : String) : Prop := ¬call.mark.toList <:+: text.toList

section Pieces

variable {call : ChainedCall} {text : String}

theorem callFree_iff : CallFree call text ↔ marksIn call.mark.toList text.toList = 0 :=
  (marksIn_eq_zero_iff _ _).symm

-- A letter of the mark is missing.
theorem callFree_of_not_mem {c : Char} (hmark : c ∈ call.mark.toList) (h : c ∉ text.toList) :
    CallFree call text :=
  fun hsub => h (hsub.subset hmark)

-- The last character is looked at by a test that runs, so that a fixed text can be decided.
theorem counts_fixed (count : ChainedCall → Nat)
    (h : ∀ call ∈ ChainedCall.all,
      (text.toList.getLast?.all fun c => !call.mark.toList.dropLast.contains c) = true ∧
        marksIn call.mark.toList text.toList = count call) :
    Counts call.mark.toList text (count call) := by
  obtain ⟨hend, hcount⟩ := h call call.mem_all
  have hlast : ∀ c ∈ text.toList.getLast?, c ∉ call.mark.toList.dropLast := by
    simpa [Option.all_eq_true] using hend
  rw [← hcount]
  exact counts_of_ended call.mark_ne_nil hlast

-- Behind any text without the call, such a character keeps the two sides apart.
theorem counts_stop (h : CallFree call text) (stop : String) {c : Char} (hstop : stop.toList = [c])
    (hc : c ∉ call.mark.toList) : Counts call.mark.toList (text ++ stop) 0 := by
  have htext : (text ++ stop).toList = text.toList ++ [c] := by rw [String.toList_append, hstop]
  have hend : ∀ d ∈ (text ++ stop).toList.getLast?, d ∉ call.mark.toList.dropLast := by
    rw [htext]
    intro d hd hmark
    have hcd : c = d := by simpa using hd
    exact hc (hcd ▸ List.mem_of_mem_dropLast hmark)
  have hcount := counts_of_ended call.mark_ne_nil hend
  rwa [htext, marksIn_concat call.mark_ne_nil hc, callFree_iff.mp h] at hcount

theorem not_mem_mark (call : ChainedCall) :
    ∀ c ∈ ['\'', ',', '=', '\x7d'], c ∉ call.mark.toList := by
  simp only [List.forall_mem_cons, List.not_mem_nil, false_implies, implies_true, and_true]
  cases call <;> decide

theorem counts_quoted (h : CallFree call text) : Counts call.mark.toList (quoted text) 0 := by
  have hopen : Counts call.mark.toList "'" 0 := counts_fixed (fun _ => 0) (by decide +kernel)
  have hclose := counts_stop h "'" rfl (not_mem_mark call _ (by decide))
  rw [quoted, String.append_assoc]
  exact hopen.append hclose

theorem callFree_quoted (h : CallFree call text) : CallFree call (quoted text) :=
  callFree_iff.mpr ((counts_quoted h).eq_occurrences call.mark_ne_nil)

theorem mem_mark (call : ChainedCall) : '.' ∈ call.mark.toList ∧ 'd' ∈ call.mark.toList := by
  cases call <;> decide

theorem callFree_number (call : ChainedCall) (n : Json.Number) : CallFree call n.text := by
  refine callFree_of_not_mem (mem_mark call).2 fun h => ?_
  rcases n.isNumeric_of_mem_text _ h with hdigit | hsign
  · exact absurd hdigit (by decide)
  · exact absurd hsign (by decide)

theorem callFree_styled (style : LiteralStyle) (h : CallFree call text) :
    CallFree call (styled style text) := by
  cases style with
  | quoted => exact callFree_quoted h
  | bare => exact h

theorem callFree_render (style : LiteralStyle) {literal : Literal}
    (h : ∀ text, IsWording literal text → CallFree call text) :
    CallFree call (literal.render style) := by
  cases literal with
  | text text => exact callFree_quoted (h text (.inl rfl))
  | keyword text => exact callFree_quoted (h text (.inr rfl))
  | flag b =>
      have hplain : CallFree call (Literal.flag b).plain :=
        callFree_of_not_mem (mem_mark call).2 (by cases b <;> decide)
      have hstyled := callFree_styled style hplain
      cases style <;> exact hstyled
  | number n =>
      have hstyled := callFree_styled style (callFree_number call n)
      cases style <;> exact hstyled

theorem counts_argument {argument : String × String} (hname : CallFree call argument.1)
    (hvalue : CallFree call argument.2) : Counts call.mark.toList (argumentText argument) 0 := by
  have hleft := counts_stop hname "=" rfl (not_mem_mark call _ (by decide))
  have hright := counts_stop hvalue "," rfl (not_mem_mark call _ (by decide))
  rw [argumentText, String.append_assoc]
  exact hleft.append hright

theorem counts_arguments (style : LiteralStyle) {fields : List Field}
    (hnames : ∀ field ∈ fields, '.' ∉ field.1.toList)
    (hwordings : ∀ field ∈ fields, WordingHas (CallFree call) field) :
    Counts call.mark.toList (String.join ((present style fields).map argumentText)) 0 := by
  have hall : ∀ argument ∈ present style fields,
      Counts call.mark.toList (argumentText argument) 0 := by
    intro argument hargument
    obtain ⟨field, hfield, hshown⟩ := List.mem_filterMap.mp hargument
    obtain ⟨written, hwritten, rfl⟩ := Option.map_eq_some_iff.mp hshown
    obtain ⟨literal, rfl, hgood⟩ := (hwordings field hfield).exists_of_shown hwritten
    exact counts_argument (callFree_of_not_mem (mem_mark call).1 (hnames field hfield))
      (callFree_render style hgood)
  have hjoin : Counts call.mark.toList _ ((present style fields).map fun _ => 0).sum :=
    counts_join hall
  simpa using hjoin

end Pieces

end Script

open Script

section Blocks

variable (call : ChainedCall)

theorem GridPos.counts_literal (pos : GridPos) : Counts call.mark.toList pos.literal 0 := by
  have hword : ∀ word : UInt32, 'd' ∉ (toString word).toList := by
    intro word h
    have hdigits : (toString word).toList = Nat.toDigits 10 word.toNat := Nat.toList_repr
    rw [hdigits] at h
    exact absurd (Nat.isDigit_of_mem_toDigits (by decide) (by decide) h) (by decide)
  have hinit : CallFree call ("\x7bh: " ++ toString pos.h ++ ", w: " ++ toString pos.w ++ ", x: " ++
      toString pos.x ++ ", y: " ++ toString pos.y) := by
    refine callFree_of_not_mem (mem_mark call).2 ?_
    simp only [String.toList_append, List.mem_append, hword, or_false, not_or]
    decide
  exact counts_stop hinit "\x7d" rfl (not_mem_mark call _ (by decide))

theorem Target.counts_fragment (style : LiteralStyle) {target : Target}
    (h : ∀ text ∈ target.view.texts, CallFree call text) :
    Counts call.mark.toList (target.fragment style) call.perTarget := by
  have hexpr : CallFree call target.expr := h target.expr List.mem_cons_self
  have hnames : ∀ field ∈ target.fields, '.' ∉ field.1.toList := by
    simp only [fields, List.forall_mem_cons, List.not_mem_nil, false_implies, implies_true, and_true]
    decide
  have harguments := counts_arguments style hnames (Target.wordingHas h)
  have hopen : Counts call.mark.toList "  .addTarget(\n    prometheus.target(\n" call.perTarget :=
    counts_fixed ChainedCall.perTarget (by decide +kernel)
  have hlabel : Counts call.mark.toList "      expr=" 0 := counts_fixed (fun _ => 0) (by decide +kernel)
  have hcomma : Counts call.mark.toList ",\n" 0 := counts_fixed (fun _ => 0) (by decide +kernel)
  have hindent : Counts call.mark.toList "      " 0 := counts_fixed (fun _ => 0) (by decide +kernel)
  have hbreak : Counts call.mark.toList "\n" 0 := counts_fixed (fun _ => 0) (by decide +kernel)
  have hclose : Counts call.mark.toList "    )\n  )\n" 0 := counts_fixed (fun _ => 0) (by decide +kernel)
  have hline : Counts call.mark.toList (if present style target.fields = [] then ""
      else "      " ++ String.join ((present style target.fields).map argumentText) ++ "\n") 0 := by
    split
    · exact counts_empty _
    · exact (hindent.append harguments).append hbreak
  rw [fragment_eq]
  exact ((((hopen.append hlabel).append (counts_quoted hexpr)).append hcomma).append hline).append
    hclose

theorem Panel.counts_call (style : LiteralStyle) {kind : PanelKind} {panel : Panel}
    (h : ∀ text ∈ (panel.view kind).texts, CallFree call text) :
    Counts call.mark.toList (panel.call style kind) 0 := by
  have hnames : ∀ field ∈ panel.fields kind, '.' ∉ field.1.toList := by
    cases kind <;>
    · simp only [fields, ownFields, List.forall_mem_cons, List.not_mem_nil, false_implies,
        implies_true, and_true]
      decide
  have harguments := counts_arguments style hnames (Panel.wordingHas h)
  have hopen : Counts call.mark.toList ("grafana." ++ kind.constructor ++ ".new(") 0 := by
    cases kind <;> exact counts_fixed (fun _ => 0) (by decide +kernel)
  have hclose : Counts call.mark.toList ")" 0 := counts_fixed (fun _ => 0) (by decide +kernel)
  rw [Panel.call, arguments_written]
  exact (hopen.append harguments).append hclose

namespace Script

theorem counts_block (style : LiteralStyle) {panel : Panel} {kind : PanelKind}
    (h : ∀ text ∈ (panel.view kind).texts, CallFree call text) :
    Counts call.mark.toList (block style panel kind) (call.perPanel panel) := by
  have htargets : Counts call.mark.toList
      (String.join (panel.targetList.map (Target.fragment style)))
      (panel.targetList.map fun _ => call.perTarget).sum := by
    refine counts_join fun target htarget => Target.counts_fragment call style fun text htext => ?_
    refine h text ?_
    rw [PanelView.texts]
    exact List.mem_append_right _
      (List.mem_flatMap.mpr ⟨target.view, List.mem_map_of_mem htarget, htext⟩)
  have hopen : Counts call.mark.toList ".addPanel(\n" (if call = .addPanel then 1 else 0) :=
    counts_fixed (fun call => if call = .addPanel then 1 else 0) (by decide +kernel)
  have hpos : Counts call.mark.toList "  gridPos=" 0 := counts_fixed (fun _ => 0) (by decide +kernel)
  have hcomma : Counts call.mark.toList ",\n" 0 := counts_fixed (fun _ => 0) (by decide +kernel)
  have hpanel : Counts call.mark.toList "  panel=" 0 := counts_fixed (fun _ => 0) (by decide +kernel)
  have hsource : Counts call.mark.toList "  datasource=prometheus\n" 0 :=
    counts_fixed (fun _ => 0) (by decide +kernel)
  have hclose : Counts call.mark.toList ")\n" 0 := counts_fixed (fun _ => 0) (by decide +kernel)
  have hblock := ((((((((hopen.append hpos).append (panel.gridPos.counts_literal call)).append
    hcomma).append hpanel).append (Panel.counts_call call style h)).append hcomma).append
    hsource).append htargets).append hclose
  have hsum : call.perPanel panel = (if call = .addPanel then 1 else 0) +
      (panel.targetList.map fun _ => call.perTarget).sum := by
    cases call <;> simp [ChainedCall.perPanel, ChainedCall.perTarget]
  unfold block
  rw [hsum]
  exact hblock

theorem counts_intercalate {texts : List String}
    (h : ∀ text ∈ texts, Counts call.mark.toList text 0) :
    Counts call.mark.toList (", ".intercalate texts) 0 := by
  have hcomma : Counts call.mark.toList ", " 0 := counts_fixed (fun _ => 0) (by decide +kernel)
  induction texts with
  | nil => exact counts_empty _
  | cons text texts ih =>
      rw [List.forall_mem_cons] at h
      cases texts with
      | nil => simpa using h.1
      | cons next texts =>
          rw [String.intercalate_cons_cons]
          exact (h.1.append hcomma).append (ih h.2)

theorem counts_quotedList {items : List String} (h : ∀ item ∈ items, CallFree call item) :
    Counts call.mark.toList (quotedList items) 0 := by
  have hopen : Counts call.mark.toList "[" 0 := counts_fixed (fun _ => 0) (by decide +kernel)
  have hclose : Counts call.mark.toList "]" 0 := counts_fixed (fun _ => 0) (by decide +kernel)
  have hitems : Counts call.mark.toList (", ".intercalate (items.map quoted)) 0 := by
    refine counts_intercalate call fun text htext => ?_
    obtain ⟨item, hitem, rfl⟩ := List.mem_map.mp htext
    exact counts_quoted (h item hitem)
  exact (hopen.append hitems).append hclose

-- The head of a script makes neither call.
theorem Preamble.counts_render {preamble : Preamble}
    (h : ∀ text ∈ preamble.title :: preamble.uid :: preamble.tags, CallFree call text) :
    Counts call.mark.toList preamble.render 0 := by
  rw [List.forall_mem_cons, List.forall_mem_cons] at h
  obtain ⟨htitle, huid, htags⟩ := h
  have hintervals : ∀ item ∈ refreshIntervals, CallFree call item := by
    intro item hitem
    refine callFree_of_not_mem (mem_mark call).1 ?_
    revert item
    decide
  unfold render
  simp only [String.append_assoc]
  iterate 4 refine Counts.behind (counts_fixed (fun _ => 0) (by decide +kernel)) ?_
  refine (counts_quoted htitle).behind ?_
  iterate 10 refine Counts.behind (counts_fixed (fun _ => 0) (by decide +kernel)) ?_
  refine (counts_quotedList call hintervals).behind ?_
  iterate 3 refine Counts.behind (counts_fixed (fun _ => 0) (by decide +kernel)) ?_
  refine (counts_quoted huid).behind ?_
  iterate 2 refine Counts.behind (counts_fixed (fun _ => 0) (by decide +kernel)) ?_
  refine (counts_quotedList call htags).behind ?_
  refine Counts.behind (counts_fixed (fun _ => 0) (by decide +kernel)) ?_
  exact counts_fixed (fun _ => 0) (by decide +kernel)

end Script

end Blocks

end DashboardScript
