import DashboardScript.Proofs.Json.NumberText
import DashboardScript.Proofs.Script.Pieces
import DashboardScript.Proofs.Script.Wordings
import DashboardScript.Proofs.Text.Pieces
import DashboardScript.Script

namespace DashboardScript.Script

open Text (append_cons_inj flatMap_append_inj)

def QuoteFree (text : String) : Prop := '\'' ∉ text.toList

theorem quoted_append_inj {first second : String} (hfirst : QuoteFree first)
    (hsecond : QuoteFree second) {r s : List Char}
    (h : (quoted first).toList ++ r = (quoted second).toList ++ s) : first = second ∧ r = s := by
  simp only [quoted, String.toList_append, List.append_assoc, List.append_right_inj] at h
  obtain ⟨hlist, _, hrs⟩ := append_cons_inj (· = '\'') (fun x hx hq => hfirst (hq ▸ hx))
    (fun x hx hq => hsecond (hq ▸ hx)) rfl rfl h
  exact ⟨String.toList_inj.mp hlist, hrs⟩

-- A word ends where its digits do.
theorem word_append_inj {m n : UInt32} (c : Char) (behind : List Char) {r s : List Char}
    (hc : ¬c.isDigit)
    (h : (toString m).toList ++ (c :: behind ++ r) = (toString n).toList ++ (c :: behind ++ s)) :
    m = n ∧ r = s := by
  have hdigits : ∀ k : UInt32, (toString k).toList = Nat.toDigits 10 k.toNat :=
    fun _ => Nat.toList_repr
  have hall : ∀ k : UInt32, ∀ x ∈ Nat.toDigits 10 k.toNat, ¬¬x.isDigit :=
    fun _ _ hx hn => hn (Nat.isDigit_of_mem_toDigits (by decide) (by decide) hx)
  rw [hdigits, hdigits, List.cons_append, List.cons_append] at h
  obtain ⟨hlist, _, htail⟩ :=
    append_cons_inj (fun x => ¬x.isDigit) (hall m) (hall n) hc hc h
  have hvalue := congrArg (fun ds => Nat.ofDigitChars 10 ds 0) hlist
  simp only [Nat.ofDigitChars_ten_toDigits] at hvalue
  exact ⟨UInt32.toNat.inj hvalue, List.append_cancel_left htail⟩

theorem gridPos_append_inj {p q : GridPos} {r s : List Char}
    (h : p.literal.toList ++ r = q.literal.toList ++ s) : p = q ∧ r = s := by
  simp only [GridPos.literal, String.toList_append, List.append_assoc, List.append_right_inj] at h
  obtain ⟨hh, h⟩ := word_append_inj ',' " w: ".toList (by decide) h
  obtain ⟨hw, h⟩ := word_append_inj ',' " x: ".toList (by decide) h
  obtain ⟨hx, h⟩ := word_append_inj ',' " y: ".toList (by decide) h
  obtain ⟨hy, h⟩ := word_append_inj '\x7d' [] (by decide) h
  cases p
  cases q
  simp_all

-- The text of a value whose end shows: it is quoted, or no comma and no quote is in it.
def Closed (text : String) : Prop :=
  (∃ s, QuoteFree s ∧ text = quoted s) ∨ (',' ∉ text.toList ∧ QuoteFree text)

theorem quoted_ne_bare {quotedText bare : String} (hbare : QuoteFree bare) {r s : List Char} :
    (quoted quotedText).toList ++ ',' :: r ≠ bare.toList ++ ',' :: s := by
  intro h
  simp only [quoted, String.toList_append, List.append_assoc] at h
  cases hlist : bare.toList with
  | nil =>
      rw [hlist] at h
      exact absurd (List.cons.inj h).1 (by decide)
  | cons c rest =>
      rw [hlist] at h
      have hc : '\'' = c := (List.cons.inj h).1
      exact hbare (by rw [hlist, hc]; exact List.mem_cons_self)

theorem closed_append_inj {first second : String} (hfirst : Closed first) (hsecond : Closed second)
    {r s : List Char} (h : first.toList ++ ',' :: r = second.toList ++ ',' :: s) :
    first = second ∧ r = s := by
  rcases hfirst with ⟨a, ha, rfl⟩ | ⟨hcomma, hquote⟩
  · rcases hsecond with ⟨b, hb, rfl⟩ | ⟨_, hquote'⟩
    · obtain ⟨rfl, htail⟩ := quoted_append_inj ha hb h
      exact ⟨rfl, (List.cons.inj htail).2⟩
    · exact absurd h (quoted_ne_bare hquote')
  · rcases hsecond with ⟨b, hb, rfl⟩ | ⟨hcomma', _⟩
    · exact absurd h.symm (quoted_ne_bare hquote)
    · obtain ⟨hlist, _, hrs⟩ := append_cons_inj (· = ',')
        (fun x hx hc => hcomma (hc ▸ hx)) (fun x hx hc => hcomma' (hc ▸ hx)) rfl rfl h
      exact ⟨String.toList_inj.mp hlist, hrs⟩

theorem closed_styled {style : LiteralStyle} {text : String} (hcomma : ',' ∉ text.toList)
    (hquote : QuoteFree text) : Closed (styled style text) := by
  cases style with
  | quoted => exact .inl ⟨text, hquote, rfl⟩
  | bare => exact .inr ⟨hcomma, hquote⟩

theorem closed_render (style : LiteralStyle) {literal : Literal}
    (h : ∀ text, IsWording literal text → QuoteFree text) : Closed (literal.render style) := by
  rw [← Literal.write_piece]
  cases literal with
  | text text => exact .inl ⟨text, h text (.inl rfl), rfl⟩
  | keyword text => exact .inl ⟨text, h text (.inr rfl), rfl⟩
  | flag b => cases b <;> exact closed_styled (by decide) (by unfold QuoteFree; decide)
  | number n =>
      apply closed_styled
      · intro hc
        exact (n.isNumeric_of_mem_text _ hc).ne.1 rfl
      · intro hc
        exact (n.isNumeric_of_mem_text _ hc).ne.2.1 rfl

-- A name that ends at its equals sign and is no end of a list of arguments.
def IsName (stop : Char) (name : String) : Prop := '=' ∉ name.toList ∧ stop ∉ name.toList

instance (stop : Char) (name : String) : Decidable (IsName stop name) :=
  inferInstanceAs (Decidable (_ ∧ _))

theorem argument_append_inj {stop : Char} {first second : String × String}
    (hfirst : IsName stop first.1 ∧ Closed first.2)
    (hsecond : IsName stop second.1 ∧ Closed second.2) {r s : List Char}
    (h : (argumentText first).toList ++ r = (argumentText second).toList ++ s) :
    first = second ∧ r = s := by
  simp only [argumentText, String.toList_append, List.append_assoc] at h
  obtain ⟨hname, _, h⟩ := append_cons_inj (· = '=')
    (fun x hx hc => hfirst.1.1 (hc ▸ hx)) (fun x hx hc => hsecond.1.1 (hc ▸ hx)) rfl rfl h
  obtain ⟨htext, hrs⟩ := closed_append_inj hfirst.2 hsecond.2 h
  exact ⟨Prod.ext (String.toList_inj.mp hname) htext, hrs⟩

theorem argument_ne_stop {stop : Char} (hstop : stop ≠ '=') {argument : String × String}
    (h : IsName stop argument.1) (r s : List Char) :
    (argumentText argument).toList ++ r ≠ stop :: s := by
  intro heq
  simp only [argumentText, String.toList_append, List.append_assoc] at heq
  cases hlist : argument.1.toList with
  | nil =>
      rw [hlist] at heq
      exact hstop (List.cons.inj heq).1.symm
  | cons c rest =>
      rw [hlist] at heq
      have hc : c = stop := (List.cons.inj heq).1
      exact h.2 (by rw [hlist, hc]; exact List.mem_cons_self)

-- A list of arguments can be read off a text in which a stop stands behind it.
theorem arguments_append_inj (stop : Char) (hstop : stop ≠ '=')
    {first second : List (String × String)}
    (hfirst : ∀ argument ∈ first, IsName stop argument.1 ∧ Closed argument.2)
    (hsecond : ∀ argument ∈ second, IsName stop argument.1 ∧ Closed argument.2)
    {r s : List Char}
    (h : (String.join (first.map argumentText)).toList ++ stop :: r =
      (String.join (second.map argumentText)).toList ++ stop :: s) :
    first = second ∧ r = s := by
  simp only [String.toList_join, List.flatMap_map] at h
  obtain ⟨hmap, hrs⟩ := flatMap_append_inj id _ (fun text => ∃ x, text = stop :: x)
    (fun a b ha hb r s => argument_append_inj ha hb)
    (fun a ha r ⟨x, hx⟩ => argument_ne_stop hstop ha.1 r x hx)
    hfirst hsecond ⟨r, rfl⟩ ⟨s, rfl⟩ h
  exact ⟨by simpa using hmap, (List.cons.inj hrs).2⟩

-- An argument that can be told from what stands behind it.
def FieldClosed (stop : Char) (style : LiteralStyle) (field : Field) : Prop :=
  IsName stop field.1 ∧ ∀ written, shown style field.2 = some written → Closed written

section FieldClosed

variable {stop : Char} {style : LiteralStyle}

theorem fieldClosed_of_wordingHas {field : Field} (hname : IsName stop field.1)
    (h : WordingHas QuoteFree field) : FieldClosed stop style field := by
  refine ⟨hname, fun written hshown => ?_⟩
  obtain ⟨literal, rfl, hfree⟩ := h.exists_of_shown hshown
  exact closed_render style hfree

theorem closed_of_mem_present {fields : List Field}
    (h : ∀ field ∈ fields, FieldClosed stop style field) :
    ∀ argument ∈ present style fields, IsName stop argument.1 ∧ Closed argument.2 := by
  intro argument hmem
  obtain ⟨field, hfield, hshown⟩ := List.mem_filterMap.mp hmem
  obtain ⟨written, hwritten, rfl⟩ := Option.map_eq_some_iff.mp hshown
  exact ⟨(h field hfield).1, (h field hfield).2 written hwritten⟩

end FieldClosed

theorem name_mem_of_mem_present {style : LiteralStyle} {fields : List Field}
    {argument : String × String} (h : argument ∈ present style fields) :
    argument.1 ∈ fields.map Prod.fst := by
  obtain ⟨field, hfield, hshown⟩ := List.mem_filterMap.mp h
  obtain ⟨written, _, rfl⟩ := Option.map_eq_some_iff.mp hshown
  exact List.mem_map_of_mem hfield

-- With the same names, none of them twice, the arguments that are written tell of every value
-- whether it is shown and how.
theorem shown_eq_of_present_eq {style : LiteralStyle} {first second : List Field}
    (hnames : first.map Prod.fst = second.map Prod.fst) (hnodup : (first.map Prod.fst).Nodup)
    (h : present style first = present style second) :
    first.map (fun field => shown style field.2) = second.map fun field => shown style field.2 := by
  induction first generalizing second with
  | nil =>
      cases second with
      | nil => rfl
      | cons field second => simp at hnames
  | cons field first ih =>
      cases second with
      | nil => simp at hnames
      | cons field' second =>
          obtain ⟨name, value⟩ := field
          obtain ⟨name', value'⟩ := field'
          simp only [List.map_cons, List.cons.injEq] at hnames
          obtain ⟨rfl, hnames⟩ := hnames
          obtain ⟨hnot, hnodup⟩ := List.nodup_cons.mp hnodup
          rw [present_cons, present_cons] at h
          simp only [List.map_cons, List.cons.injEq]
          cases hv : shown style value with
          | none =>
              cases hv' : shown style value' with
              | none => exact ⟨rfl, ih hnames hnodup (by simpa [hv, hv'] using h)⟩
              | some written =>
                  have heq : present style first = (name, written) :: present style second := by
                    simpa [hv, hv'] using h
                  have hmem : (name, written) ∈ present style first := heq ▸ List.mem_cons_self
                  exact absurd (name_mem_of_mem_present hmem) hnot
          | some written =>
              cases hv' : shown style value' with
              | none =>
                  have heq : (name, written) :: present style first = present style second := by
                    simpa [hv, hv'] using h
                  have hmem : (name, written) ∈ present style second := heq ▸ List.mem_cons_self
                  exact absurd (hnames ▸ name_mem_of_mem_present hmem) hnot
              | some written' =>
                  have hcons : (name, written) :: present style first =
                      (name, written') :: present style second := by
                    simpa [hv, hv'] using h
                  obtain ⟨hhead, htail⟩ := List.cons.inj hcons
                  exact ⟨congrArg some (Prod.mk.inj hhead).2, ih hnames hnodup htail⟩

end DashboardScript.Script
