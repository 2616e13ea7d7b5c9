import Mathlib.Data.List.Basic

-- Texts that are put together from pieces, and what can be told of the pieces from the text.
namespace DashboardScript.Text

-- Two texts that agree up to a first stop each have the same part before it.
theorem append_cons_inj (stop : Char → Prop) {first second r s : List Char} {c d : Char}
    (hfirst : ∀ x ∈ first, ¬stop x) (hsecond : ∀ x ∈ second, ¬stop x) (hc : stop c) (hd : stop d)
    (h : first ++ c :: r = second ++ d :: s) : first = second ∧ c = d ∧ r = s := by
  induction first generalizing second with
  | nil =>
      cases second with
      | nil =>
          obtain ⟨rfl, rfl⟩ := List.cons.inj h
          exact ⟨rfl, rfl, rfl⟩
      | cons x second =>
          have hx : c = x := (List.cons.inj h).1
          exact absurd (hx ▸ hc) (hsecond x (by simp))
  | cons x first ih =>
      cases second with
      | nil =>
          have hx : x = d := (List.cons.inj h).1
          exact absurd (hx ▸ hd) (hfirst x (by simp))
      | cons y second =>
          obtain ⟨rfl, htail⟩ := List.cons.inj h
          obtain ⟨rfl, hcd, hrs⟩ := ih (fun z hz => hfirst z (List.mem_cons_of_mem _ hz))
            (fun z hz => hsecond z (List.mem_cons_of_mem _ hz)) htail
          exact ⟨rfl, hcd, hrs⟩

-- Items that can be read off the front of a text one by one can be read off it all together, if
-- what stands behind them cannot be taken for another item.
theorem flatMap_append_inj {α β : Type} {write : α → List Char} (view : α → β) (good : α → Prop)
    (tails : List Char → Prop)
    (hitem : ∀ a b, good a → good b → ∀ r s, write a ++ r = write b ++ s → view a = view b ∧ r = s)
    (htail : ∀ a, good a → ∀ r, ¬tails (write a ++ r))
    {first second : List α} (hfirst : ∀ a ∈ first, good a) (hsecond : ∀ a ∈ second, good a)
    {r s : List Char} (hr : tails r) (hs : tails s)
    (h : first.flatMap write ++ r = second.flatMap write ++ s) :
    first.map view = second.map view ∧ r = s := by
  induction first generalizing second with
  | nil =>
      cases second with
      | nil => exact ⟨rfl, h⟩
      | cons b second =>
          rw [List.flatMap_nil, List.nil_append, List.flatMap_cons, List.append_assoc] at h
          exact absurd (h ▸ hr) (htail b (hsecond b (by simp)) _)
  | cons a first ih =>
      cases second with
      | nil =>
          rw [List.flatMap_nil, List.nil_append, List.flatMap_cons, List.append_assoc] at h
          exact absurd (h ▸ hs) (htail a (hfirst a (by simp)) _)
      | cons b second =>
          rw [List.flatMap_cons, List.flatMap_cons, List.append_assoc, List.append_assoc] at h
          obtain ⟨hview, hrest⟩ := hitem a b (hfirst a (by simp)) (hsecond b (by simp)) _ _ h
          obtain ⟨hmap, hrs⟩ := ih (fun x hx => hfirst x (List.mem_cons_of_mem _ hx))
            (fun x hx => hsecond x (List.mem_cons_of_mem _ hx)) hrest
          exact ⟨by rw [List.map_cons, List.map_cons, hview, hmap], hrs⟩

-- Two lists with the same views have the same of whatever the view settles.
theorem map_eq_map_of_view {α β γ : Type} {view : α → β} {f : α → γ}
    (hview : ∀ a b, view a = view b → f a = f b) {first second : List α}
    (h : first.map view = second.map view) : first.map f = second.map f := by
  induction first generalizing second with
  | nil =>
      cases second with
      | nil => rfl
      | cons b second => simp at h
  | cons a first ih =>
      cases second with
      | nil => simp at h
      | cons b second =>
          simp only [List.map_cons, List.cons.injEq] at h ⊢
          exact ⟨hview a b h.1, ih h.2⟩

theorem toList_intercalate_cons (separator item : String) (items : List String) :
    (separator.intercalate (item :: items)).toList =
      item.toList ++ items.flatMap fun item => separator.toList ++ item.toList := by
  induction items generalizing item with
  | nil => simp
  | cons next items ih =>
      rw [String.intercalate_cons_cons, String.toList_append, String.toList_append, ih,
        List.flatMap_cons, List.append_assoc, List.append_assoc]

end DashboardScript.Text
