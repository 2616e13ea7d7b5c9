import Mathlib.Data.List.Forall2
import DashboardScript.Proofs.Settings.Nested
import DashboardScript.Proofs.Toml.Lines
import DashboardScript.Toml.Document

-- What a TOML document leaves in a draft that gives texts, with a group of them.
namespace DashboardScript.Settings

open Toml Toml.Grammar

-- Nothing is given twice, and what is given stands by itself or in the group.
structure WellFormed (given : List (List String × String)) : Prop where
  nodup : (given.map Prod.fst).Nodup
  paths : ∀ entry ∈ given,
    (∃ name, entry.1 = [name] ∧ name ≠ group) ∨ ∃ name, entry.1 = [group, name]

abbrev textNode (text : String) : Node := .value (.string text)

-- The entries of a draft in which the group was made in one way.
abbrev Holds (origin : Origin) (entries : Entries) (given : List (List String × String)) : Prop :=
  Nested textNode (fun inner node => node = .table origin inner) entries given

section Assign

variable {origin : Origin} {entries : Entries} {given : List (List String × String)}

theorem Holds.assign_single (h : Holds origin entries given) {name : String} (hname : name ≠ group)
    (hnew : given.lookup [name] = none) (text : String) :
    ∃ more, Entries.assign (.string text) [name] entries = .ok more ∧
      Holds origin more (([name], text) :: given) ∧ more.lookup group = entries.lookup group := by
  have hfind : entries.find? name = none := by
    rw [Entries.find?, h.single name hname, hnew]
    rfl
  refine ⟨_, by rw [Entries.assign, hfind], ?_, ?_⟩
  · rw [set_eq_insertMember]
    exact h.insertSingle hname text
  · rw [set_eq_insertMember, lookup_insertMember, if_neg (Ne.symm hname)]

theorem Inside.assign {inner : Entries}
    (h : Inside textNode inner given) {name : String}
    (hnew : given.lookup [group, name] = none) (text : String) :
    Entries.assign (.string text) [name] inner =
      .ok (Json.insertMember name (textNode text) inner) := by
  have hfind : inner.find? name = none := by
    rw [Entries.find?, h.names, hnew]
    rfl
  rw [Entries.assign, hfind, set_eq_insertMember]

theorem assign_pair (value : Value) (key name : String) (entries : Entries) :
    Entries.assign value [key, name] entries = (do
      let node ← match entries.find? key with
        | none => Node.table .dotted <$> Entries.assign value [name] []
        | some (.table .opened _) => .error ⟨.repeatedKey, 2⟩
        | some (.table _ inner) => Node.table .dotted <$> Entries.assign value [name] inner
        | some (.tables _ _) => .error ⟨.repeatedKey, 1⟩
        | some (.value v) => .error ⟨.notTable v.kind, 2⟩
      return entries.set key node) := rfl

-- Dots make the group where there is none, and add to it where they have made it.
theorem Holds.assign_dotted (h : Holds .dotted entries given) {name : String}
    (hnew : given.lookup [group, name] = none) (text : String) :
    ∃ more, Entries.assign (.string text) [group, name] entries = .ok more ∧
      Holds .dotted more (([group, name], text) :: given) := by
  have hstep : ∀ inner, Inside textNode inner given →
      Entries.assign (.string text) [name] inner =
        .ok (Json.insertMember name (textNode text) inner) :=
    fun _ hinner => hinner.assign hnew text
  cases hfind : entries.find? group with
  | none =>
      have hinner : Inside textNode [] given := .nil (h.ungrouped hfind)
      refine ⟨_, ?_, h.insertGrouped hinner rfl⟩
      simp only [assign_pair, hfind, hstep [] hinner, ← set_eq_insertMember]
      rfl
  | some node =>
      obtain ⟨inner, rfl, hinner⟩ := h.grouped node hfind
      refine ⟨_, ?_, h.insertGrouped hinner rfl⟩
      simp only [assign_pair, hfind, hstep inner hinner, ← set_eq_insertMember]
      rfl

-- Behind its header the group takes names alone.
theorem Holds.assign_within (h : Holds .opened entries given) (hopened : entries.lookup group ≠ none)
    {name : String} (hnew : given.lookup [group, name] = none) (text : String) :
    ∃ more, Entries.within [group] (Entries.assign (.string text) [name]) entries = .ok more ∧
      Holds .opened more (([group, name], text) :: given) ∧ more.lookup group ≠ none := by
  obtain ⟨node, hfind⟩ := Option.ne_none_iff_exists'.mp hopened
  obtain ⟨inner, rfl, hinner⟩ := h.grouped node hfind
  refine ⟨_, ?_, h.insertGrouped hinner rfl, ?_⟩
  · simp only [Entries.within, Entries.find?, hfind, hinner.assign hnew, ← set_eq_insertMember]
    rfl
  · rw [lookup_insertMember, if_pos rfl]
    exact Option.some_ne_none _

theorem Holds.openGroup (h : Holds .opened entries given) (hnone : entries.lookup group = none) :
    ∃ more, Entries.openTable group entries = .ok more ∧ Holds .opened more given ∧
      more.lookup group ≠ none := by
  have hinner : Inside textNode [] given := .nil (h.ungrouped hnone)
  refine ⟨_, ?_, h.insertGroup rfl (fun _ => rfl) hinner, ?_⟩
  · simp only [Entries.openTable, Entries.find?, hnone, ← set_eq_insertMember]
  · rw [lookup_insertMember, if_pos rfl]
    exact Option.some_ne_none _

end Assign

-- A draft in which no header stands so far, or the one of the group.
structure Drawn (origin : Origin) (draft : Draft) (given : List (List String × String)) : Prop where
  holds : Holds origin draft.entries given
  header : (draft.header = [] ∧ (origin ≠ .dotted → draft.entries.lookup group = none)) ∨
    (draft.header = [group] ∧ origin = .opened ∧ draft.entries.lookup group ≠ none)

section Draft

variable {origin : Origin} {draft : Draft} {given : List (List String × String)}

theorem drawn_start (origin : Origin) : Drawn origin Draft.start [] where
  holds := nested_nil
  header := .inl ⟨rfl, fun _ => rfl⟩

-- One entry, whose key has no dots unless these make the group.
theorem Drawn.assigned (h : Drawn origin draft given) {path : List String}
    (hshort : origin ≠ .dotted → path.length = 1)
    (hpath : (∃ name, draft.header ++ path = [name] ∧ name ≠ group) ∨
      ∃ name, draft.header ++ path = [group, name])
    (hnew : given.lookup (draft.header ++ path) = none) (text : String) :
    ∃ next, draft.assigned path (.string text) = .ok next ∧ next.header = draft.header ∧
      Drawn origin next ((draft.header ++ path, text) :: given) := by
  obtain ⟨entries, header⟩ := draft
  obtain ⟨hholds, ⟨rfl, hnone⟩ | ⟨rfl, rfl, hopened⟩⟩ := h
  · rw [List.nil_append] at hpath hnew
    obtain ⟨name, rfl, hname⟩ | ⟨name, rfl⟩ := hpath
    · obtain ⟨more, hassign, hmore, hsame⟩ := hholds.assign_single hname hnew text
      refine ⟨⟨more, []⟩, ?_, rfl, hmore, .inl ⟨rfl, fun horigin => hsame.trans (hnone horigin)⟩⟩
      exact bind_of_ok hassign _
    · have horigin : origin = .dotted := by
        by_contra hne
        exact absurd (hshort hne) (by simp)
      subst horigin
      obtain ⟨more, hassign, hmore⟩ := hholds.assign_dotted hnew text
      exact ⟨⟨more, []⟩, bind_of_ok hassign _, rfl, hmore, .inl ⟨rfl, fun hne => absurd rfl hne⟩⟩
  · obtain ⟨name, rfl⟩ := List.length_eq_one_iff.mp (hshort (by decide))
    obtain ⟨more, hassign, hmore, hstill⟩ := hholds.assign_within hopened hnew text
    exact ⟨⟨more, [group]⟩, bind_of_ok hassign _, rfl, hmore, .inr ⟨rfl, rfl, hstill⟩⟩

theorem Drawn.opened (h : Drawn .opened draft given) (hheader : draft.header = []) :
    ∃ next, draft.opened Entries.openTable [group] = .ok next ∧ next.header = [group] ∧
      Drawn .opened next given := by
  obtain ⟨entries, header⟩ := draft
  subst hheader
  obtain ⟨hholds, ⟨-, hnone⟩ | ⟨hgroup, -⟩⟩ := h
  · obtain ⟨more, hopen, hmore, hopened⟩ := hholds.openGroup (hnone (by decide))
    exact ⟨⟨more, [group]⟩, bind_of_ok hopen _, rfl, hmore, .inr ⟨rfl, rfl, hopened⟩⟩
  · cases hgroup

theorem mapM_of_map {α β ε : Type} {f : α → Except ε β} {as : List α} {bs : List β}
    (h : as.map f = bs.map .ok) : as.mapM f = .ok bs := by
  induction bs generalizing as with
  | nil =>
      obtain rfl := List.map_eq_nil_iff.mp h
      rfl
  | cons b bs ih =>
      obtain ⟨a, rest, rfl, ha, hrest⟩ := List.map_eq_cons_iff.mp h
      rw [List.mapM_cons, bind_of_ok ha, bind_of_ok (ih hrest)]
      rfl

theorem path_of_names {key : WrittenKey} {path : List String}
    (h : key.map KeyPart.name = path.map .ok) (hlength : path.length ≤ maxKeyLength) :
    key.path = .ok path := by
  rw [WrittenKey.path, mapM_of_map h]
  exact if_pos hlength

-- A line does to a draft what it says.
theorem add_entry {path : List String} {text : String} {line : Line} {next : Draft}
    (hmeant : Scanner.Says (.entry path text) line) (hlength : path.length ≤ maxKeyLength)
    (h : draft.assigned path (.string text) = .ok next) : draft.add line = .ok next := by
  cases line with
  | table | element => exact absurd hmeant id
  | entry key value =>
      obtain ⟨hnames, rfl⟩ := hmeant
      rw [Draft.add, bind_of_ok (path_of_names hnames hlength)]
      refine (bind_of_ok rfl _).trans ?_
      rw [h]
      rfl

theorem add_header {path : List String} {line : Line} {next : Draft}
    (hmeant : Scanner.Says (.header path) line) (hlength : path.length ≤ maxKeyLength)
    (h : draft.opened Entries.openTable path = .ok next) : draft.add line = .ok next := by
  cases line with
  | entry | element => exact absurd hmeant id
  | table key =>
      rw [Draft.add, bind_of_ok (path_of_names hmeant hlength), h]
      rfl

theorem WellFormed.of_append {first : List (List String × String)}
    (h : WellFormed (first ++ given)) : WellFormed given where
  nodup := by
    have hnodup := h.nodup
    rw [List.map_append] at hnodup
    exact hnodup.of_append_right
  paths entry hentry := h.paths entry (List.mem_append_right first hentry)

theorem WellFormed.lookup_eq_none {path : List String} {text : String}
    (h : WellFormed ((path, text) :: given)) : given.lookup path = none := by
  rw [List.lookup_eq_none_iff]
  intro entry hentry
  have hnot : path ∉ given.map Prod.fst := (List.nodup_cons.mp h.nodup).1
  exact bne_iff_ne.mpr fun heq => hnot (heq ▸ List.mem_map_of_mem hentry)

theorem WellFormed.length_le {header path : List String} {text : String}
    (h : WellFormed ((header ++ path, text) :: given)) : path.length ≤ maxKeyLength := by
  have hlength : (header ++ path).length ≤ 2 := by
    obtain ⟨name, hname, -⟩ | ⟨name, hname⟩ := h.paths _ List.mem_cons_self
    · simp only at hname
      simp [hname]
    · simp only at hname
      simp [hname]
  rw [List.length_append] at hlength
  exact le_trans (by omega) (show 2 ≤ maxKeyLength by decide)

-- Entries behind one header, each of them new.
theorem Drawn.run {statements : List Statement} {lines : List Line}
    (hmeant : List.Forall₂ Scanner.Says statements lines) (h : Drawn origin draft given)
    (hentries : ∀ statement ∈ statements, ∃ path text, statement = .entry path text ∧
      (origin ≠ .dotted → path.length = 1))
    (hformed : WellFormed ((Grammar.given draft.header statements).reverse ++ given)) :
    ∃ final, lines.foldlM Draft.add draft = .ok final ∧ final.header = draft.header ∧
      Drawn origin final ((Grammar.given draft.header statements).reverse ++ given) := by
  induction hmeant generalizing draft given with
  | nil => exact ⟨draft, rfl, rfl, h⟩
  | @cons statement line statements lines hfirst hrest ih =>
      obtain ⟨⟨path, text, rfl, hshort⟩, htail⟩ := List.forall_mem_cons.mp hentries
      simp only [Grammar.given, List.reverse_cons, List.append_assoc, List.singleton_append]
        at hformed ⊢
      have hnew := hformed.of_append
      obtain ⟨next, hassigned, hheader, hnext⟩ := h.assigned hshort
        (hnew.paths _ List.mem_cons_self) hnew.lookup_eq_none text
      obtain ⟨final, hfold, hsame, hfinal⟩ := ih hnext htail (by rw [hheader]; exact hformed)
      rw [hheader] at hfinal
      refine ⟨final, ?_, hsame.trans hheader, hfinal⟩
      rw [List.foldlM_cons, bind_of_ok (add_entry hfirst hnew.length_le hassigned), hfold]

theorem WellFormed.perm {more : List (List String × String)} (h : WellFormed given)
    (hperm : given.Perm more) : WellFormed more where
  nodup := (hperm.map Prod.fst).nodup_iff.mp h.nodup
  paths entry hentry := h.paths entry (hperm.mem_iff.mpr hentry)

end Draft

-- The statements of a document that makes the group either by dots, anywhere, or by one header.
def Arranged (statements : List Statement) : Prop :=
  (∀ statement ∈ statements, ∃ path text, statement = .entry path text) ∨
    ∃ before after, statements = before ++ .header [group] :: after ∧
      ∀ statement ∈ before ++ after, ∃ name text, statement = .entry [name] text

theorem given_append {header : List String} {before : List Statement}
    (h : ∀ statement ∈ before, ∃ path text, statement = .entry path text)
    (after : List Statement) :
    Grammar.given header (before ++ after) =
      Grammar.given header before ++ Grammar.given header after := by
  induction before with
  | nil => rfl
  | cons statement before ih =>
      obtain ⟨⟨path, text, rfl⟩, hbefore⟩ := List.forall_mem_cons.mp h
      rw [List.cons_append, Grammar.given, ih hbefore, Grammar.given, List.cons_append]

section Document

variable {statements : List Statement} {lines : List Line}

theorem forall₂_split {before after : List Statement}
    (h : List.Forall₂ Scanner.Says (before ++ after) lines) :
    ∃ first second, lines = first ++ second ∧ List.Forall₂ Scanner.Says before first ∧
      List.Forall₂ Scanner.Says after second :=
  ⟨lines.take before.length, lines.drop before.length, (List.take_append_drop _ lines).symm,
    (List.forall₂_take_append lines before after h.flip).flip,
    (List.forall₂_drop_append lines before after h.flip).flip⟩

-- Dots may make the group anywhere.
theorem exists_final_dotted (hmeant : List.Forall₂ Scanner.Says statements lines)
    (hentries : ∀ statement ∈ statements, ∃ path text, statement = .entry path text)
    (hformed : WellFormed (Grammar.given [] statements)) :
    ∃ final, lines.foldlM Draft.add Draft.start = .ok final ∧
      Holds .dotted final.entries (Grammar.given [] statements) := by
  have hperm : ((Grammar.given [] statements).reverse ++ []).Perm (Grammar.given [] statements) := by
    rw [List.append_nil]
    exact List.reverse_perm _
  have hreverse := hformed.perm hperm.symm
  have hfree : ∀ statement ∈ statements, ∃ path text, statement = .entry path text ∧
      (Origin.dotted ≠ .dotted → path.length = 1) := fun statement hstatement =>
    have ⟨path, text, heq⟩ := hentries statement hstatement
    ⟨path, text, heq, fun hne => absurd rfl hne⟩
  obtain ⟨final, hfold, -, hfinal⟩ := (drawn_start .dotted).run hmeant hfree hreverse
  exact ⟨final, hfold, hfinal.holds.perm hperm hreverse.nodup⟩

-- A header parts the document in entries by themselves and those of the group.
theorem exists_final_opened {before after : List Statement}
    (hmeant : List.Forall₂ Scanner.Says (before ++ .header [group] :: after) lines)
    (hentries : ∀ statement ∈ before ++ after, ∃ name text, statement = .entry [name] text)
    (hformed : WellFormed (Grammar.given [] before ++ Grammar.given [group] after)) :
    ∃ final, lines.foldlM Draft.add Draft.start = .ok final ∧
      Holds .opened final.entries (Grammar.given [] before ++ Grammar.given [group] after) := by
  have hshort : ∀ statement ∈ before ++ after, ∃ path text, statement = .entry path text ∧
      (Origin.opened ≠ .dotted → path.length = 1) := fun statement hstatement =>
    have ⟨name, text, heq⟩ := hentries statement hstatement
    ⟨[name], text, heq, fun _ => rfl⟩
  have hperm : ((Grammar.given [group] after).reverse ++
      ((Grammar.given [] before).reverse ++ [])).Perm
        (Grammar.given [] before ++ Grammar.given [group] after) := by
    rw [List.append_nil]
    exact ((List.reverse_perm _).append (List.reverse_perm _)).trans List.perm_append_comm
  have hreverse := hformed.perm hperm.symm
  obtain ⟨first, second, rfl, hfirst, hsecond⟩ := forall₂_split hmeant
  obtain ⟨line, rest, hline, hrest, rfl⟩ := List.forall₂_cons_left_iff.mp hsecond
  obtain ⟨draft, hdraft, hheader, hdrawn⟩ := (drawn_start .opened).run hfirst
    (fun statement hstatement => hshort statement (List.mem_append_left after hstatement))
    hreverse.of_append
  obtain ⟨next, hopened, hgroup, hnext⟩ := hdrawn.opened hheader
  obtain ⟨final, hfinal, -, hholds⟩ := hnext.run hrest
    (fun statement hstatement => hshort statement (List.mem_append_right before hstatement))
    (by rw [hgroup]; exact hreverse)
  rw [hgroup] at hholds
  refine ⟨final, ?_, hholds.holds.perm hperm hreverse.nodup⟩
  rw [List.foldlM_append, bind_of_ok hdraft, List.foldlM_cons,
    bind_of_ok (add_header hline (by decide) hopened), hfinal]

theorem exists_final (hmeant : List.Forall₂ Scanner.Says statements lines)
    (harranged : Arranged statements) (hformed : WellFormed (Grammar.given [] statements)) :
    ∃ origin final, lines.foldlM Draft.add Draft.start = .ok final ∧
      Holds origin final.entries (Grammar.given [] statements) := by
  rcases harranged with hentries | ⟨before, after, rfl, hentries⟩
  · exact ⟨.dotted, exists_final_dotted hmeant hentries hformed⟩
  · have hgiven : Grammar.given [] (before ++ .header [group] :: after) =
        Grammar.given [] before ++ Grammar.given [group] after :=
      given_append (fun statement hstatement =>
        have ⟨name, text, heq⟩ := hentries statement (List.mem_append_left after hstatement)
        ⟨[name], text, heq⟩) _
    rw [hgiven] at hformed ⊢
    exact ⟨.opened, exists_final_opened hmeant hentries hformed⟩

end Document

end DashboardScript.Settings
