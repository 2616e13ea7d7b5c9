import DashboardScript.Proofs.Conversion.Determined
import DashboardScript.Proofs.Dashboard.Exchange
import Mathlib.Logic.Relation

namespace DashboardScript

open Json Json.Grammar

namespace Dashboard

-- Two texts of a dashboard that differ in how the absence of one field is said, anywhere in them.
inductive Exchanged : String → String → Prop where
  | intro {first second : List Char} (before after : Blanks)
    (h : RecordType.Exchange .dashboard first second) :
    Exchanged (String.ofList (before.val ++ (first ++ after.val)))
      (String.ofList (before.val ++ (second ++ after.val)))

theorem toOption_ofJson {text : List Char} {depth : Nat} (hvalue : IsValue depth text)
    (before after : Blanks) :
    (ofJson (String.ofList (before.val ++ (text ++ after.val)))).toOption =
      RecordType.dashboard.read? text := by
  have hsteady := RecordType.dashboard.steady_decoder
  exact Decoder.value?_of_settles (hsteady.blanks _) (hsteady.settles _ hvalue) before after

-- The same is seen of two dashboards that differ so any number of times.
theorem seen_ofJson {first second : String} (h : Relation.EqvGen Exchanged first second) :
    (ofJson first).toOption.map seen = (ofJson second).toOption.map seen := by
  induction h with
  | rel _ _ h =>
      obtain ⟨before, after, h⟩ := h
      obtain ⟨⟨pad, ms, hfirst⟩, pad', ns, hsecond⟩ := h.objects
      have hseen := h.seen
      subst hfirst hsecond
      obtain ⟨_, hms⟩ := exists_isValue_membersText pad ms
      obtain ⟨_, hns⟩ := exists_isValue_membersText pad' ns
      rw [toOption_ofJson hms, toOption_ofJson hns]
      exact hseen
  | refl _ => rfl
  | symm _ _ _ ih => exact ih.symm
  | trans _ _ _ _ _ first second => exact first.trans second

end Dashboard

namespace Conversion

variable {a b : Dashboard}

theorem preamble_eq_of_seen (settings : PreambleSettings)
    (h : a.seen = b.seen) :
    preamble settings a = preamble settings b := by
  have htitle : visible a.title = visible b.title := congrArg Prod.fst h
  have htags : a.tags = b.tags := congrArg (fun seen => seen.2.1) h
  unfold visible at htitle
  unfold preamble
  rw [htitle, htags]

-- Two panels of which the same is seen are treated alike.
theorem entries_eq_of_seen (policy : UnsupportedPolicy) (index : Nat)
    {first second : List (Option Panel)}
    (h : first.map (Option.map Panel.seen) = second.map (Option.map Panel.seen)) (script : Script) :
    entries policy index first script = entries policy index second script := by
  induction first generalizing index second script with
  | nil =>
      rw [List.map_nil, eq_comm, List.map_eq_nil_iff] at h
      rw [h]
  | cons entry rest ih =>
      cases second with
      | nil => cases h
      | cons other others =>
          rw [List.map_cons, List.map_cons, List.cons.injEq] at h
          obtain ⟨hentry, hrest⟩ := h
          have ih := fun script => ih (index + 1) hrest script
          cases entry with
          | none =>
              rw [Option.map_none, eq_comm, Option.map_eq_none_iff] at hentry
              rw [hentry, entries, entries, ih]
          | some panel =>
              rw [Option.map_some, eq_comm, Option.map_eq_some_iff] at hentry
              obtain ⟨twin, rfl, htwin⟩ := hentry
              obtain ⟨htype, hview⟩ := Prod.mk.inj htwin
              have htargets : twin.targetList.length = panel.targetList.length := by
                have hlength := congrArg (fun view => (view .row).targets.length) hview
                rwa [Panel.view, Panel.view, List.length_map, List.length_map] at hlength
              have hadd : ∀ kind, script.addPanel twin kind = script.addPanel panel kind := by
                intro kind
                have hblock := @block_eq_of_view_eq script.style (twin, kind) (panel, kind)
                  (congrFun hview kind)
                rw [Script.addPanel, Script.addPanel, hblock]
              simp only [entries, htype, ih, hadd, htargets]

theorem convert_eq_of_seen (settings : Settings)
    (h : a.seen = b.seen) :
    convert settings a = convert settings b := by
  have hpanels : a.panels.map (Option.map Panel.seen) = b.panels.map (Option.map Panel.seen) :=
    congrArg (fun seen => seen.2.2) h
  rw [convert, convert, preamble_eq_of_seen settings.preamble h, entries_eq_of_seen _ _ hpanels]

-- Absent, null and empty are one and the same: where two texts of a dashboard differ in no more than
-- how the absence of fields is said, one is accepted where the other is, and they convert to the same.
theorem absence_is_one (settings : Settings) {first second : String}
    (h : Relation.EqvGen Dashboard.Exchanged first second) :
    ((∃ a, Dashboard.ofJson first = .ok a) ↔ ∃ b, Dashboard.ofJson second = .ok b) ∧
      ∀ a b, Dashboard.ofJson first = .ok a → Dashboard.ofJson second = .ok b →
        convert settings a = convert settings b := by
  have hseen := Dashboard.seen_ofJson h
  constructor
  · have hsome := congrArg Option.isSome hseen
    rw [Option.isSome_map, Option.isSome_map] at hsome
    simp only [← Reader.toOption_eq_some_iff, ← Option.isSome_iff_exists, hsome]
  · intro a b ha hb
    rw [ha, hb] at hseen
    exact convert_eq_of_seen settings (Option.some.inj hseen)

-- An empty title of the dashboard is left out, and so is an empty list of queries in a row.
theorem absence_is_one_at_row :
    let row := "\x7b\"type\":\"row\",\"gridPos\":[1,2,3,4]"
    let first := "\x7b\"title\":\"\",\"panels\":[" ++ row ++ ",\"targets\":[]\x7d]\x7d"
    let second := "\x7b\"panels\":[" ++ row ++ "\x7d]\x7d"
    ∃ a b, Dashboard.ofJson first = .ok a ∧ Dashboard.ofJson second = .ok b ∧
      convert {} a = convert {} b := by
  intro row first second
  have hjson : (∃ a, Dashboard.ofJson first = .ok a) ∧ ∃ b, Dashboard.ofJson second = .ok b := by
    simp only [← Reader.toOption_eq_some_iff, ← Option.isSome_iff_exists]
    decide +kernel
  obtain ⟨⟨a, ha⟩, b, hb⟩ := hjson
  let pad : Blanks := ⟨[], by simp⟩
  let number (n : Nat) : Spelling :=
    ⟨false, ⟨Nat.toDigits 10 n, wholeDigits_toDigits n⟩, none, none⟩
  let item (n : Nat) : AnyItem := ⟨⟨pad, (number n).text, pad⟩, 0, .number 0 (number n)⟩
  let name := Glyph.raws "row".toList (by decide)
  let type := AnyMember.plain "type" (by decide) (quotedText name) ⟨0, .string 0 name⟩
  let gridPos := AnyMember.plain "gridPos" (by decide) (itemsText pad [item 1, item 2, item 3, item 4])
    (exists_isValue_itemsText pad _)
  let targets := AnyMember.plain "targets" (by decide) (itemsText pad [])
    (exists_isValue_itemsText pad [])
  let title := AnyMember.plain "title" (by decide) (quotedText []) ⟨0, .string 0 []⟩
  let panel : AnyItem :=
    ⟨⟨pad, membersText pad [type, gridPos, targets], pad⟩, exists_isValue_membersText pad _⟩
  let panels := AnyMember.plain "panels" (by decide) (itemsText pad [panel])
    (exists_isValue_itemsText pad _)
  have htitle : RecordType.Unsaid .dashboard "title" (some title) :=
    RecordType.unsaid_some rfl (.emptyText (by decide))
  have htargets : RecordType.Unsaid .panel "targets" (some targets) :=
    RecordType.unsaid_some rfl (.emptyList (by decide) pad)
  have hfirst : RecordType.Exchange .dashboard
      (membersText pad ([] ++ ((some title).toList ++ [panels])))
      (membersText pad ([] ++ ((none : Option AnyMember).toList ++ [panels]))) :=
    .here (by decide) pad [] [panels] (by decide) htitle (RecordType.unsaid_none (by decide))
  have hother : ∀ o ∈ [type, gridPos] ++ [], o.name ≠ "targets" := by decide
  have hpanel : RecordType.Exchange .panel
      (membersText pad ([type, gridPos] ++ ((some targets).toList ++ [])))
      (membersText pad ([type, gridPos] ++ ((none : Option AnyMember).toList ++ []))) :=
    .here (by decide) pad [type, gridPos] [] hother htargets (RecordType.unsaid_none (by decide))
  have hsecond := RecordType.Exchange.listed .panels pad [] [] (m := panels) pad [] [] (i := panel)
    rfl (exists_isValue_membersText pad _) hpanel
  have hsteps := Relation.EqvGen.trans _ _ _ (.rel _ _ (Dashboard.Exchanged.intro pad pad hfirst))
    (.rel _ _ (Dashboard.Exchanged.intro pad pad hsecond))
  have htexts : Relation.EqvGen Dashboard.Exchanged first second := by
    refine cast (congrArg₂ _ ?_ ?_) hsteps <;> decide +kernel
  exact ⟨a, b, ha, hb, (absence_is_one {} htexts).2 a b ha hb⟩

end Conversion

end DashboardScript
