import Mathlib.Data.List.Forall2
import DashboardScript.Proofs.Json.Rooms
import DashboardScript.Proofs.Settings.Bytes
import DashboardScript.Proofs.Settings.Trees

-- What settings are read from a JSON object.
namespace DashboardScript.Settings

open Json Json.Grammar Json.Reader

section Object

variable {room : Nat}

-- A member has this key, and its value is this one as long as there are enough levels left.
def Means (room : Nat) (m : MemberText) (entry : String × Value) : Prop :=
  m.key? = some entry.1 ∧ Settles (Decoder.any room) m.value (some entry.2)

-- The members put into an object one after the other.
def gathered (entries members : List (String × Value)) : List (String × Value) :=
  entries.foldl (fun members entry => insertMember entry.1 entry.2 members) members

-- What a member makes of those before it.
def put (room : Nat) (members : List (String × Value)) (key : String) (m : MemberText) :
    Option (List (String × Value)) :=
  ((Decoder.any.within room).value? m.value).map fun value => insertMember key value members

variable {ms : List MemberText} {entries : List (String × Value)}

theorem foldlM_put (h : List.Forall₂ (Means room) ms entries) (members : List (String × Value)) :
    ms.foldlM (stepBy (put room)) members = some (gathered entries members) := by
  induction h generalizing members with
  | nil => rfl
  | @cons m entry ms entries hm _ ih =>
      have hvalue := Decoder.value?_within (Decoder.ignoresBlanks_any room) hm.2
      rw [List.foldlM_cons, stepBy, hm.1, Option.bind_some, put, hvalue]
      exact ih _

theorem exists_means (h : List.Forall₂ (Means room) ms entries) {m : MemberText} (hm : m ∈ ms) :
    ∃ entry, Means room m entry := by
  induction h with
  | nil => cases hm
  | @cons n entry ms entries hn _ ih =>
      rcases List.mem_cons.mp hm with rfl | hm
      · exact ⟨entry, hn⟩
      · exact ih hm

theorem settles_object (h : List.Forall₂ (Means room) ms entries) (pad : Blanks) :
    Settles (Decoder.any (room + 1)) (bracedText pad ms) (some (.object (gathered entries []))) := by
  have hmembers : Settles (braced (fun members key => do
      colon
      let value ← Decoder.any room
      pure (insertMember key value members)) []) (bracedText pad ms)
        (ms.foldlM (stepBy (put room)) []) := by
    refine settles_braced pad [] fun m hm members key _ => settles_fromColon ?_
    obtain ⟨entry, -, hentry⟩ := exists_means h hm
    have hblanks := Decoder.ignoresBlanks_any room
    rw [put, Decoder.value?_within hblanks hentry]
    change Settles _ _ (Option.bind (some entry.2) fun value => some (insertMember key value members))
    exact (hentry.blanks hblanks m.lead).bind fun _ _ => rfl
  intro rest hrest
  rw [foldlM_put h] at hmembers
  rw [Decoder.any_eq]
  exact (run?_bind_of_ok _ (next_brace _)).trans (hmembers.map Value.object rest hrest)

theorem settles_text {gs : List Glyph} {text : String}
    (h : (Glyph.meaning gs).map String.ofList = some text) (room : Nat) :
    Settles (Decoder.any room) (quotedText gs) (some (.string text)) := by
  intro rest hrest
  rw [Decoder.any_eq]
  exact (Decoder.settles_next_string gs).run?_bind hrest _ |>.trans (by rw [h]; rfl)

end Object

-- A member that gives a text for its key, however the two are spelled.
def GivesText (m : MemberText) (entry : String × String) : Prop :=
  m.key? = some entry.1 ∧
    ∃ gs, m.value = quotedText gs ∧ (Glyph.meaning gs).map String.ofList = some entry.2

-- What a member of a file gives: a text for its key, or the texts of the group.
inductive Gives : MemberText → List (List String × String) → Prop where
  | text {m : MemberText} {key text : String} (h : GivesText m (key, text)) (hkey : key ≠ group) :
    Gives m [([key], text)]
  | group {m : MemberText} {pad : Blanks} {ms : List MemberText} {entries : List (String × String)}
    (hkey : m.key? = some group) (hvalue : m.value = bracedText pad ms)
    (h : List.Forall₂ GivesText ms entries) :
    Gives m (entries.map fun entry => ([group, entry.1], entry.2))

theorem GivesText.means {m : MemberText} {entry : String × String} (h : GivesText m entry)
    (room : Nat) : Means room m (entry.1, .string entry.2) := by
  obtain ⟨hkey, gs, hvalue, hmeaning⟩ := h
  exact ⟨hkey, hvalue ▸ settles_text hmeaning room⟩

theorem means_texts {ms : List MemberText} {entries : List (String × String)}
    (h : List.Forall₂ GivesText ms entries) (room : Nat) :
    List.Forall₂ (Means room) ms (entries.map fun entry => (entry.1, .string entry.2)) :=
  List.forall₂_map_right_iff.mpr (h.imp fun _ _ hm => hm.means room)

section Gathered

variable {given : List (List String × String)}

theorem inside_gathered (entries : List (String × String)) {inner : List (String × Value)}
    (h : Inside .string inner given) :
    Inside .string (gathered (entries.map fun entry => (entry.1, .string entry.2)) inner)
      ((entries.map fun entry => ([group, entry.1], entry.2)).reverse ++ given) := by
  induction entries generalizing inner given with
  | nil => exact h
  | cons entry entries ih =>
      rw [List.map_cons, List.map_cons, List.reverse_cons, List.append_assoc]
      exact ih (h.insert entry.1 entry.2)

theorem lookup_single_append (entries : List (String × String)) (key : String) :
    ((entries.map fun entry => ([group, entry.1], entry.2)).reverse ++ given).lookup [key] =
      given.lookup [key] := by
  have hnone : (entries.map fun entry => ([group, entry.1], entry.2)).reverse.lookup [key] = none := by
    rw [List.lookup_eq_none_iff]
    intro entry hentry
    obtain ⟨other, -, rfl⟩ := List.mem_map.mp (List.mem_reverse.mp hentry)
    simp
  rw [List.lookup_append, hnone, Option.none_or]

-- The members of an object so far.
abbrev Gathers (members : List (String × Value)) (given : List (List String × String)) : Prop :=
  Nested .string (fun inner value => value = .object inner) members given

-- The group stands once at most.
theorem exists_gathered {ms : List MemberText} {items : List (List (List String × String))}
    (h : List.Forall₂ Gives ms items) (hnodup : (ms.map MemberText.key?).Nodup)
    {members : List (String × Value)} (hmembers : Gathers members given)
    (hgroup : members.lookup group ≠ none → some group ∉ ms.map MemberText.key?) (room : Nat) :
    ∃ entries, List.Forall₂ (Means (room + 1)) ms entries ∧
      Gathers (gathered entries members) (items.flatten.reverse ++ given) := by
  induction h generalizing members given with
  | nil => exact ⟨[], .nil, hmembers⟩
  | @cons m item ms items hm hms ih =>
      rw [List.map_cons, List.nodup_cons] at hnodup
      rw [List.map_cons, List.mem_cons, not_or] at hgroup
      rw [List.flatten_cons, List.reverse_append, List.append_assoc]
      cases hm with
      | @text key text hm hkey =>
          have hmore := hmembers.insertSingle hkey text
          obtain ⟨entries, hentries, hfinal⟩ := ih hnodup.2 hmore fun hheld => by
            rw [lookup_insertMember, if_neg (Ne.symm hkey)] at hheld
            exact (hgroup hheld).2
          exact ⟨_ :: entries, .cons (hm.means (room + 1)) hentries, hfinal⟩
      | @group pad inner texts hkey hvalue hm =>
          have hnone : members.lookup group = none := by
            by_contra hheld
            exact (hgroup hheld).1 hkey.symm
          have hinner := inside_gathered texts (.nil (hmembers.ungrouped hnone))
          have hmore := hmembers.insertGroup rfl (lookup_single_append texts) hinner
          obtain ⟨entries, hentries, hfinal⟩ := ih hnodup.2 hmore fun _ => hkey ▸ hnodup.1
          have hmeans : Means (room + 1) m (group, .object _) :=
            ⟨hkey, hvalue ▸ settles_object (means_texts hm room) pad⟩
          exact ⟨_ :: entries, .cons hmeans hentries, hfinal⟩

end Gathered

section Object

variable {given : List (List String × String)}

theorem ofJsonMembers_eq_map (members : List (String × Value)) :
    Tree.ofJsonMembers members = members.map fun entry => (entry.1, Tree.ofJson entry.2) := by
  induction members with
  | nil => rfl
  | cons entry rest ih => rw [Tree.ofJsonMembers, ih, List.map_cons]

theorem Gathers.trees {members : List (String × Value)} (h : Gathers members given) :
    Nested .text Tree.IsTable (Tree.ofJsonMembers members) given := by
  rw [ofJsonMembers_eq_map]
  have htext : Tree.ofJson ∘ Value.string = Tree.text := funext fun _ => by
    rw [Function.comp_apply, Tree.ofJson]
  refine htext ▸ h.map Tree.ofJson ?_
  rintro inner _ - rfl
  exact ⟨true, by rw [Tree.ofJson, ofJsonMembers_eq_map]⟩

-- An object gives the settings what its members do.
theorem entries_object (before pad after : Blanks) {ms : List MemberText}
    {items : List (List (List String × String))} (h : List.Forall₂ Gives ms items)
    (hnodup : (ms.map MemberText.key?).Nodup) :
    ∃ trees, Format.entries .json
        (String.ofList (before.val ++ (bracedText pad ms ++ after.val))) = .ok trees ∧
      Nested .text Tree.IsTable trees (items.flatten.reverse ++ []) := by
  obtain ⟨entries, hentries, hgathers⟩ := exists_gathered h hnodup nested_nil
    (fun hnone => absurd rfl hnone) 125
  have hvalue := Decoder.value?_of_settles (Decoder.ignoresBlanks_any _)
    (settles_object hentries pad) before after
  refine ⟨Tree.ofJsonMembers (gathered entries []), ?_, hgathers.trees⟩
  rw [Format.entries, toOption_eq_some_iff.mp hvalue]
  simp only [Tree.ofJson]

end Object

end DashboardScript.Settings
