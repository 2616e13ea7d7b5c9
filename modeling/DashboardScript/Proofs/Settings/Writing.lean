import DashboardScript.Proofs.Settings.Documents
import DashboardScript.Proofs.Settings.Keys
import DashboardScript.Proofs.Settings.Members

-- Files that say what an assignment does.
namespace DashboardScript.Settings

-- A text of this format gives the texts for the paths, in some order and with any spelling.
def Format.Writes (format : Format) (text : String) (given : List (List String × String)) : Prop :=
  match format with
  | .toml => ∃ document : Toml.Grammar.Document, text = String.ofList document.text ∧
    Arranged document.statements ∧ (Toml.Grammar.given [] document.statements).Perm given
  | .json => ∃ (before pad after : Json.Grammar.Blanks) (ms : List Json.Grammar.MemberText)
    (items : List (List (List String × String))),
      text = String.ofList (before.val ++ (Json.Grammar.bracedText pad ms ++ after.val)) ∧
      (ms.map Json.Grammar.MemberText.key?).Nodup ∧ List.Forall₂ Gives ms items ∧
      items.flatten.Perm given

section Reading

variable {assignment : Assignment} {format : Format} {text : String}

theorem Assignment.wellFormed (assignment : Assignment) : WellFormed assignment.given where
  nodup := assignment.nodup_given
  paths entry hentry := by
    obtain ⟨-, ⟨name, hpath, hname, -⟩ | ⟨name, hpath, -⟩⟩ := assignment.cases_of_mem_given hentry
    · exact .inl ⟨name, hpath, hname⟩
    · exact .inr ⟨name, hpath⟩

theorem narrow_object (before pad after : Json.Grammar.Blanks)
    (ms : List Json.Grammar.MemberText) :
    Narrow (before.val ++ (Json.Grammar.bracedText pad ms ++ after.val)) := by
  refine narrow_append (fun c hc => ?_) (narrow_cons (by decide) _)
  have hblank := before.property c hc
  simp only [List.mem_cons, List.not_mem_nil, or_false] at hblank
  rcases hblank with rfl | rfl | rfl | rfl <;> decide

-- Such a text begins with a character of one byte, and its entries are those of the assignment.
theorem Format.Writes.entries (h : format.Writes text assignment.given) :
    (∃ chars, text = String.ofList chars ∧ Narrow chars) ∧
      ∃ trees, format.entries text = .ok trees ∧
        Nested .text Tree.IsTable trees assignment.given := by
  cases format with
  | toml =>
      obtain ⟨document, rfl, harranged, hperm⟩ := h
      have hformed := assignment.wellFormed.perm hperm.symm
      obtain ⟨trees, htrees, hnested⟩ := entries_document document harranged hformed
      exact ⟨⟨_, rfl, narrow_document document⟩, trees, htrees, hnested.perm hperm hformed.nodup⟩
  | json =>
      obtain ⟨before, pad, after, ms, items, rfl, hnodup, hgives, hperm⟩ := h
      have hreverse : (items.flatten.reverse ++ []).Perm assignment.given := by
        rw [List.append_nil]
        exact (List.reverse_perm _).trans hperm
      have hformed := assignment.wellFormed.perm hreverse.symm
      obtain ⟨trees, htrees, hnested⟩ := entries_object before pad after hgives hnodup
      exact ⟨⟨_, rfl, narrow_object before pad after ms⟩, trees, htrees,
        hnested.perm hreverse hformed.nodup⟩

-- What is read from the bytes depends on the assignment alone.
theorem Format.Writes.ofBytes_eq (h : format.Writes text assignment.given) :
    ofBytes format.entries text.toUTF8 = fromTexts assignment.value? := by
  obtain ⟨⟨chars, rfl, hnarrow⟩, trees, htrees, hnested⟩ := h.entries
  have hbare : ∀ entry ∈ trees, IsBare entry.1 := by
    rintro ⟨key, tree⟩ hentry
    obtain ⟨s, hs, -⟩ | ⟨rfl, -⟩ := hnested.cases_of_mem hentry
    · obtain ⟨-, ⟨name, hpath, -, hname⟩ | ⟨name, hpath, -⟩⟩ := assignment.cases_of_mem_given hs
      · obtain rfl := (List.cons.inj hpath).1
        exact hname
      · cases hpath
    · exact show IsBare group by decide
  obtain ⟨held, hheld, hentries⟩ := Tree.exists_ofEntries hnested hbare
  rw [ofBytes_toUTF8 hnarrow, ofText, bind_of_ok htrees, hheld]
  exact ofTree_eq hentries assignment.lookup_given false

end Reading

section Toml

open Toml Toml.Grammar

theorem isPlain_of_isPlain {text : String} (h : IsPlain text) {c : Char} (hc : c ∈ text.toList) :
    Scanner.isPlain c ∧ c ≠ '"' ∧ c ≠ '\\' := by
  obtain ⟨hblank, hdelete, hquote, hback⟩ := h c hc
  exact ⟨by simp [Scanner.isPlain, hblank, hdelete], hquote, hback⟩

def word (name : String) (h : IsBare name) : Word :=
  ⟨name.toList, fun heq => h.1 (String.toList_eq_nil_iff.mp heq), h.2⟩

@[simp] theorem name_word {name : String} (h : IsBare name) : (word name h).name = name :=
  String.ofList_toList

def verbatim (text : String) (h : IsPlain text) : Verbatim :=
  ⟨text.toList, fun _ => isPlain_of_isPlain h⟩

-- An entry with dots in its key where it has to have some.
theorem exists_line (assignment : Assignment) {entry : List String × String}
    (h : entry ∈ assignment.given) :
    ∃ line : LineText, line.statement? = some (.entry entry.1 entry.2) := by
  obtain ⟨path, text⟩ := entry
  obtain ⟨hplain, hpath⟩ := assignment.cases_of_mem_given h
  have hkey : ∃ key : Grammar.Key, key.path = path := by
    obtain ⟨name, rfl, -, hname⟩ | ⟨name, rfl, hname⟩ := hpath
    · exact ⟨⟨word name hname, []⟩, by simp [Grammar.Key.path]⟩
    · exact ⟨⟨word group (by decide), [word name hname]⟩, by simp [Grammar.Key.path]⟩
  obtain ⟨key, rfl⟩ := hkey
  have blanks : Blanks := ⟨[], List.forall_mem_nil _⟩
  refine ⟨.entry blanks key blanks blanks (verbatim text hplain) ⟨blanks, none⟩, ?_⟩
  rw [LineText.statement?, verbatim, String.ofList_toList]

theorem said_map {given : List (List String × String)} {line : List String × String → LineText}
    (h : ∀ entry ∈ given, (line entry).statement? = some (.entry entry.1 entry.2))
    (ending : Ending) :
    Document.said (given.map fun entry => (line entry, .feed)) (.blank ending) =
      given.map fun entry => .entry entry.1 entry.2 := by
  induction given with
  | nil => rfl
  | cons entry given ih =>
      obtain ⟨hentry, hrest⟩ := List.forall_mem_cons.mp h
      rw [List.map_cons, List.map_cons, ← ih hrest]
      simp [Document.said, hentry]

theorem given_map (given : List (List String × String)) :
    Grammar.given [] (given.map fun entry => .entry entry.1 entry.2) = given := by
  induction given with
  | nil => rfl
  | cons entry given ih => rw [List.map_cons, Grammar.given, ih, List.nil_append]

theorem exists_document (assignment : Assignment) :
    ∃ text, Format.toml.Writes text assignment.given := by
  have ending : Ending := ⟨⟨[], List.forall_mem_nil _⟩, none⟩
  have : Nonempty LineText := ⟨.blank ending⟩
  choose! line hline using fun entry (h : entry ∈ assignment.given) => exists_line assignment h
  have hsaid := said_map hline ending
  refine ⟨_, ⟨assignment.given.map fun entry => (line entry, .feed), .blank ending⟩, rfl, ?_, ?_⟩
  · rw [Document.statements, hsaid]
    refine .inl fun statement hstatement => ?_
    obtain ⟨entry, -, rfl⟩ := List.mem_map.mp hstatement
    exact ⟨entry.1, entry.2, rfl⟩
  · rw [Document.statements, hsaid, given_map]

end Toml

section Json

open Json Json.Grammar

theorem exists_glyphs {text : String} (h : ∀ c ∈ text.toList, Glyph.isRaw c) :
    ∃ gs, (Glyph.meaning gs).map String.ofList = some text := by
  refine ⟨Glyph.raws text.toList (List.all_eq_true.mpr h), ?_⟩
  rw [Glyph.meaning_raws, Option.map_some, String.ofList_toList]

theorem isRaw_of_isPlain {text : String} (h : IsPlain text) : ∀ c ∈ text.toList, Glyph.isRaw c := by
  intro c hc
  obtain ⟨hblank, -, hquote, hback⟩ := h c hc
  exact decide_eq_true ⟨hquote, hback, not_lt.mpr hblank⟩

theorem isRaw_of_isBare {name : String} (h : IsBare name) : ∀ c ∈ name.toList, Glyph.isRaw c := by
  intro c hc
  have hkey : Toml.Scanner.isBareKey c := h.2 c hc
  have hblank : ¬c < ' ' := fun hlt => Nat.lt_asymm (bareKey_bounds hkey).1 hlt
  have hne : ∀ d, Toml.Scanner.isBareKey d = false → c ≠ d := fun _ => Toml.Scanner.bareKey_ne hkey
  exact decide_eq_true ⟨hne '"' rfl, hne '\\' rfl, hblank⟩

theorem exists_member {key text : String} (hkey : IsBare key) (htext : IsPlain text) :
    ∃ m, GivesText m (key, text) := by
  obtain ⟨keyGlyphs, hkeyGlyphs⟩ := exists_glyphs (isRaw_of_isBare hkey)
  obtain ⟨glyphs, hglyphs⟩ := exists_glyphs (isRaw_of_isPlain htext)
  have blanks : Blanks := ⟨[], List.forall_mem_nil _⟩
  exact ⟨⟨blanks, keyGlyphs, blanks, blanks, quotedText glyphs, blanks⟩, hkeyGlyphs, glyphs, rfl,
    hglyphs⟩

-- The members apart from the group, those of the group, and what they give.
structure Parted (given : List (List String × String)) where
  ms : List MemberText
  items : List (List (List String × String))
  inner : List MemberText
  entries : List (String × String)
  gives : List.Forall₂ Gives ms items
  givesInner : List.Forall₂ GivesText inner entries
  nodup : (ms.map MemberText.key?).Nodup
  known : ∀ key, some key ∈ ms.map MemberText.key? → key ≠ group ∧ [key] ∈ given.map Prod.fst
  perm : (items.flatten ++ entries.map fun entry => ([group, entry.1], entry.2)).Perm given

namespace Parted

variable {given : List (List String × String)} {m : MemberText} {name text : String}

def nil : Parted [] :=
  ⟨[], [], [], [], .nil, .nil, .nil, fun _ h => absurd h List.not_mem_nil, .nil⟩

def single (parted : Parted given) (hm : GivesText m (name, text)) (hname : name ≠ group)
    (hnew : [name] ∉ given.map Prod.fst) : Parted (([name], text) :: given) where
  ms := m :: parted.ms
  items := [([name], text)] :: parted.items
  inner := parted.inner
  entries := parted.entries
  gives := .cons (.text hm hname) parted.gives
  givesInner := parted.givesInner
  nodup := by
    rw [List.map_cons, List.nodup_cons, hm.1]
    exact ⟨fun hmem => hnew (parted.known name hmem).2, parted.nodup⟩
  known key hkey := by
    rw [List.map_cons, List.mem_cons, hm.1] at hkey
    rcases hkey with hkey | hkey
    · obtain rfl := Option.some.inj hkey
      exact ⟨hname, List.mem_cons_self⟩
    · exact (parted.known key hkey).imp_right (List.mem_cons_of_mem _)
  perm := parted.perm.cons _

def grouped (parted : Parted given) (hm : GivesText m (name, text)) :
    Parted (([group, name], text) :: given) where
  ms := parted.ms
  items := parted.items
  inner := m :: parted.inner
  entries := (name, text) :: parted.entries
  gives := parted.gives
  givesInner := .cons hm parted.givesInner
  nodup := parted.nodup
  known key hkey := (parted.known key hkey).imp_right (List.mem_cons_of_mem _)
  perm := by
    rw [List.map_cons]
    exact List.perm_middle.trans (parted.perm.cons _)

end Parted

theorem nonempty_parted {given : List (List String × String)}
    (h : ∀ entry ∈ given, IsPlain entry.2 ∧
      ((∃ name, entry.1 = [name] ∧ name ≠ group ∧ IsBare name) ∨
        ∃ name, entry.1 = [group, name] ∧ IsBare name))
    (hnodup : (given.map Prod.fst).Nodup) : Nonempty (Parted given) := by
  induction given with
  | nil => exact ⟨.nil⟩
  | cons entry given ih =>
      obtain ⟨path, text⟩ := entry
      obtain ⟨⟨hplain, hpath⟩, hrest⟩ := List.forall_mem_cons.mp h
      rw [List.map_cons, List.nodup_cons] at hnodup
      obtain ⟨parted⟩ := ih hrest hnodup.2
      obtain ⟨name, rfl, hname, hbare⟩ | ⟨name, rfl, hbare⟩ := hpath
      · obtain ⟨m, hm⟩ := exists_member hbare hplain
        exact ⟨parted.single hm hname hnodup.1⟩
      · obtain ⟨m, hm⟩ := exists_member hbare hplain
        exact ⟨parted.grouped hm⟩

theorem exists_object (assignment : Assignment) :
    ∃ text, Format.json.Writes text assignment.given := by
  obtain ⟨ms, items, inner, entries, hms, hinner, hkeys, hgiven, hperm⟩ :=
    nonempty_parted (fun _ hentry => assignment.cases_of_mem_given hentry) assignment.nodup_given
  obtain ⟨glyphs, hglyphs⟩ :=
    exists_glyphs (isRaw_of_isBare (show IsBare group by decide))
  have blanks : Blanks := ⟨[], List.forall_mem_nil _⟩
  have hgroup := Gives.group (m := ⟨blanks, glyphs, blanks, blanks, bracedText blanks inner, blanks⟩)
    hglyphs rfl hinner
  refine ⟨_, blanks, blanks, blanks, ms ++ [_], items ++ [_], rfl, ?_,
    List.rel_append hms (.cons hgroup .nil), ?_⟩
  · rw [List.map_append, List.nodup_append]
    refine ⟨hkeys, List.nodup_singleton _, fun key hkey other hother => ?_⟩
    obtain rfl := List.mem_singleton.mp hother
    rintro rfl
    exact (hgiven group (hglyphs ▸ hkey)).1 rfl
  · rw [List.flatten_append, List.flatten_singleton]
    exact hperm

end Json

-- Whatever an assignment says, there is a file of either format that says it.
theorem exists_writes (assignment : Assignment) (format : Format) :
    ∃ text, format.Writes text assignment.given := by
  cases format with
  | toml => exact exists_document assignment
  | json => exact exists_object assignment

end DashboardScript.Settings
