import DashboardScript.Proofs.Dashboard.Absence
import DashboardScript.Proofs.Dashboard.Seen

namespace DashboardScript

open Json Json.Grammar Json.Decoder

namespace RecordType

theorem steady_fields (r : RecordType) : Record.Steady r.shape.types r.shape.fields :=
  Record.steady_of_every (r.every_fields closed_steady)

theorem steady_decoder (r : RecordType) : r.shape.decoder.Steady :=
  Shape.steady_decoder r.steady_fields

-- The record that stands in a text at its depth.
def read? (r : RecordType) (text : List Char) : Option r.Carrier :=
  (r.shape.decoder.within (r.room + 1)).value? text

-- The texts of members as a record sees them.
def texts (ms : List AnyMember) : List (String × List Char) := ms.map fun m => (m.name, m.value)

section Read

variable (r : RecordType)

def textRow? (texts : List (String × List Char)) : Option (Row Id r.shape.types) :=
  Record.fromTexts? r.shape.types (Record.within r.room r.shape.types r.shape.fields) texts

-- What the members give for a field.
def given? (slot : Slot r.Carrier) (texts : List (String × List Char)) : Option slot.type :=
  (slot.field.within r.room).valueOf? texts

theorem read?_membersText (pad : Blanks) (ms : List AnyMember) :
    r.read? (membersText pad ms) = (r.textRow? (texts ms)).map r.shape.make := by
  have hvalid : ∀ m ∈ ms.map AnyMember.toMemberText, ∃ depth, IsValue depth m.value := by
    intro m hm
    obtain ⟨member, -, rfl⟩ := List.mem_map.mp hm
    exact member.valid
  rw [read?, membersText, Shape.value?_object r.steady_fields pad hvalid,
    Record.keyed?_eq_fromTexts? AnyMember.spells]
  rfl

theorem nodup_keys_within (room : Nat) :
    (Record.keys r.shape.types (Record.within room r.shape.types r.shape.fields)).Nodup := by
  rw [Record.keys_within]
  exact r.nodup_keys

section Room

variable (room : Nat) (texts : List (String × List Char))

theorem fromTexts?_eq_some_iff (row : Row Id r.shape.types) :
    Record.fromTexts? r.shape.types (Record.within room r.shape.types r.shape.fields) texts =
        some row ↔
      ∀ slot ∈ r.slots, (slot.field.within room).valueOf? texts =
        some (slot.part (r.shape.make row)) := by
  rw [Record.fromTexts?_eq_some_iff (r.nodup_keys_within room), Record.slots_within,
    ← r.comap_slots, List.map_map, List.forall_mem_map]
  rfl

theorem exists_fromTexts?_iff :
    (∃ row, Record.fromTexts? r.shape.types (Record.within room r.shape.types r.shape.fields) texts =
        some row) ↔
      ∀ slot ∈ r.slots, ∃ a, (slot.field.within room).valueOf? texts = some a := by
  rw [Record.exists_fromTexts?_iff (r.nodup_keys_within room), Record.slots_within,
    ← r.comap_slots, List.map_map, List.forall_mem_map]
  rfl

end Room

theorem textRow?_eq_some_iff (texts : List (String × List Char)) (row : Row Id r.shape.types) :
    r.textRow? texts = some row ↔
      ∀ slot ∈ r.slots, r.given? slot texts = some (slot.part (r.shape.make row)) :=
  r.fromTexts?_eq_some_iff r.room texts row

theorem exists_textRow?_iff (texts : List (String × List Char)) :
    (∃ row, r.textRow? texts = some row) ↔ ∀ slot ∈ r.slots, ∃ a, r.given? slot texts = some a :=
  r.exists_fromTexts?_iff r.room texts

variable {r} {first second : List (String × List Char)}

-- Where the same is seen of each field, the record is there for both and the same is seen of it.
theorem exists_textRow?_of_seen
    (h : ∀ aspect ∈ r.aspects, (r.given? aspect.toSlot first).map aspect.see =
      (r.given? aspect.toSlot second).map aspect.see) {row : Row Id r.shape.types}
    (hrow : r.textRow? first = some row) :
    ∃ other, r.textRow? second = some other ∧
      r.see (r.shape.make row) = r.see (r.shape.make other) := by
  have hfirst := (r.textRow?_eq_some_iff first row).mp hrow
  rw [← r.map_aspects, List.forall_mem_map] at hfirst
  have hseen : ∀ aspect ∈ r.aspects, ∃ a, r.given? aspect.toSlot second = some a ∧
      aspect.see (aspect.part (r.shape.make row)) = aspect.see a := by
    intro aspect haspect
    have hsecond := h aspect haspect
    rw [hfirst aspect haspect, Option.map_some, eq_comm, Option.map_eq_some_iff] at hsecond
    obtain ⟨a, ha, hsee⟩ := hsecond
    exact ⟨a, ha, hsee.symm⟩
  have hexists : ∃ other, r.textRow? second = some other := by
    rw [exists_textRow?_iff, ← r.map_aspects, List.forall_mem_map]
    intro aspect haspect
    obtain ⟨a, ha, -⟩ := hseen aspect haspect
    exact ⟨a, ha⟩
  obtain ⟨other, hother⟩ := hexists
  refine ⟨other, hother, r.see_eq_of_aspects fun aspect haspect => ?_⟩
  have hgiven := (r.textRow?_eq_some_iff second other).mp hother
  rw [← r.map_aspects, List.forall_mem_map] at hgiven
  obtain ⟨a, ha, hsee⟩ := hseen aspect haspect
  rw [hsee, Option.some.inj (ha.symm.trans (hgiven aspect haspect))]

theorem see_textRow?_congr
    (h : ∀ aspect ∈ r.aspects, (r.given? aspect.toSlot first).map aspect.see =
      (r.given? aspect.toSlot second).map aspect.see) :
    ((r.textRow? first).map r.shape.make).map r.see =
      ((r.textRow? second).map r.shape.make).map r.see := by
  cases hfirst : r.textRow? first with
  | some row =>
      obtain ⟨other, hother, hsee⟩ := exists_textRow?_of_seen h hfirst
      simp only [hother, Option.map_some, hsee]
  | none =>
      cases hsecond : r.textRow? second with
      | none => rfl
      | some other =>
          obtain ⟨row, hrow, -⟩ :=
            exists_textRow?_of_seen (fun aspect haspect => (h aspect haspect).symm) hsecond
          rw [hrow] at hfirst
          cases hfirst

end Read

section Absent

theorem value?_optional_null {α : Type} (item : Decoder α) (room : Nat) :
    ((optional item).within room).value? ['n', 'u', 'l', 'l'] = some none :=
  value?_within (ignoresBlanks_optional item room) (settles_optional_null item room)

theorem value?_optional_quoted {room : Nat} :
    ((optional text).within room).value? (quotedText []) = some (some "") := by
  have hread : Reader.Settles (text room) (quotedText []) (some "") :=
    ((text_spells "") room (Nat.zero_le room)).takes.settles
  exact value?_within (ignoresBlanks_optional text room)
    (settles_optional_present rfl (by decide) hread)

theorem value?_optional_false {room : Nat} :
    ((optional flag).within room).value? ['f', 'a', 'l', 's', 'e'] = some (some false) := by
  have hread : Reader.Settles (flag room) ['f', 'a', 'l', 's', 'e'] (some false) :=
    ((flag_spells false) room (Nat.zero_le room)).takes.settles
  exact value?_within (ignoresBlanks_optional flag room)
    (settles_optional_present rfl (by decide) hread)

-- Null gives what no member gives.
theorem value?_null (r : RecordType) :
    ∀ aspect ∈ r.aspects, aspect.field.key ∉ presentKeys →
      (aspect.field.value.within r.room).value? ['n', 'u', 'l', 'l'] = aspect.field.absent := by
  cases r <;> simp [aspects, nullable, required, defaulted, value?_optional_null, presentKeys,
    requiredKeys]

-- So does an empty wording, as far as it is seen.
theorem see_value?_quoted (r : RecordType) :
    ∀ aspect ∈ r.aspects, aspect.field.key ∈ wordingKeys →
      ((aspect.field.value.within r.room).value? (quotedText [])).map aspect.see =
        aspect.field.absent.map aspect.see := by
  have hempty : visible (some "") = visible none := rfl
  cases r <;> simp [aspects, nullable, required, defaulted, value?_optional_quoted, wordingKeys,
    hempty]

theorem see_value?_false (r : RecordType) :
    ∀ aspect ∈ r.aspects, aspect.field.key = "collapsed" →
      ((aspect.field.value.within r.room).value? ['f', 'a', 'l', 's', 'e']).map aspect.see =
        aspect.field.absent.map aspect.see := by
  cases r <;> simp [aspects, nullable, required, defaulted, value?_optional_false]

-- A value that is not null stands for itself where null is one for absence.
theorem value?_optional {α : Type} {item : Decoder α} (h : item.Steady) (room : Nat)
    {depth : Nat} {c : Char} {tail : List Char} (hvalue : IsValue depth (c :: tail))
    (hblank : Reader.isBlank c = false) (hc : c ≠ 'n') :
    ((optional item).within room).value? (c :: tail) =
      ((item.within room).value? (c :: tail)).map some :=
  value?_within (ignoresBlanks_optional item room)
    (settles_optional_present hblank hc (h.settles room hvalue))

theorem value?_optional_object {α : Type} {item : Decoder α} (h : item.Steady) (room : Nat)
    (pad : Blanks) (ms : List AnyMember) :
    ((optional item).within room).value? (membersText pad ms) =
      ((item.within room).value? (membersText pad ms)).map some := by
  obtain ⟨depth, hvalue⟩ := exists_isValue_membersText pad ms
  exact value?_optional h room hvalue rfl (by decide)

theorem isValue_emptyObject (pad : Blanks) : IsValue 1 (bracedText pad []) :=
  .object pad (List.forall_mem_nil _)

theorem isValue_emptyList (pad : Blanks) : IsValue 1 (bracketedText pad []) :=
  .array pad (List.forall_mem_nil _)

theorem value?_emptyObject {α : Type} {shape : Shape α}
    (h : Record.Steady shape.types shape.fields) (room : Nat) (pad : Blanks) {a : α}
    (ha : (Record.keyed? shape.types (Record.within room shape.types shape.fields) []).map
      shape.make = some a) :
    (shape.decoder.within (room + 1)).value? (bracedText pad []) = some a :=
  (Shape.value?_object h pad (List.forall_mem_nil _)).trans ha

theorem value?_itemsText {α : Type} {item : Decoder α} (h : item.Steady) (room : Nat) (pad : Blanks)
    (items : List AnyItem) :
    ((list item).within (room + 1)).value? (itemsText pad items) =
      items.mapM fun i => (item.within room).value? i.value := by
  obtain ⟨depth, hdepth⟩ := exists_depth fun i (_ : i ∈ items) => i.valid
  have hitems : ∀ i ∈ items.map AnyItem.toItemText, IsValue depth i.value := by
    intro i hi
    obtain ⟨item, hitem, rfl⟩ := List.mem_map.mp hi
    exact hdepth item hitem
  rw [itemsText, value?_list h pad hitems, List.mapM_map]
  rfl

theorem value?_emptyList {α : Type} {item : Decoder α} (h : item.Steady) (room : Nat)
    (pad : Blanks) : ((list item).within (room + 1)).value? (bracketedText pad []) = some [] :=
  value?_itemsText h room pad []

theorem see_value?_emptyObject (r : RecordType) (pad : Blanks) :
    ∀ aspect ∈ r.aspects, aspect.field.key ∈ recordKeys →
      ((aspect.field.value.within r.room).value? (bracedText pad [])).map aspect.see =
        aspect.field.absent.map aspect.see := by
  have hconfig : (FieldConfig.shape.decoder.within panel.room).value? (bracedText pad []) =
      some {} := value?_emptyObject fieldConfig.steady_fields 123 pad rfl
  have hoptions : (PanelOptions.shape.decoder.within panel.room).value? (bracedText pad []) =
      some {} := value?_emptyObject panelOptions.steady_fields 123 pad rfl
  have hdefaults : (FieldDefaults.shape.decoder.within fieldConfig.room).value?
      (bracedText pad []) = some {} := value?_emptyObject fieldDefaults.steady_fields 122 pad rfl
  have hthresholds : ((optional Thresholds.shape.decoder).within fieldDefaults.room).value?
      (bracedText pad []) = some (some ⟨none⟩) := by
    have hread : (Thresholds.shape.decoder.within fieldDefaults.room).value? (bracedText pad []) =
        some ⟨none⟩ := value?_emptyObject thresholds.steady_fields 121 pad rfl
    have hpresent := value?_optional thresholds.steady_decoder
      fieldDefaults.room (isValue_emptyObject pad) rfl (by decide)
    exact hpresent.trans (congrArg (Option.map some) hread)
  cases r <;> simp [aspects, nullable, required, defaulted, recordKeys, hconfig, hoptions, hdefaults,
    hthresholds]

theorem see_value?_emptyList (r : RecordType) (pad : Blanks) :
    ∀ aspect ∈ r.aspects, aspect.field.key ∈ listKeys →
      ((aspect.field.value.within r.room).value? (bracketedText pad [])).map aspect.see =
        aspect.field.absent.map aspect.see := by
  have htags : ((list text).within dashboard.room).value? (bracketedText pad []) = some [] :=
    value?_emptyList steady_text 125 pad
  have hpanels : ((list (optional Panel.shape.decoder)).within dashboard.room).value?
      (bracketedText pad []) = some [] :=
    value?_emptyList (steady_optional panel.steady_decoder) 125 pad
  have htargets : ((optional (list Target.shape.decoder)).within panel.room).value?
      (bracketedText pad []) = some (some []) := by
    have hread : ((list Target.shape.decoder).within panel.room).value? (bracketedText pad []) =
        some [] := value?_emptyList target.steady_decoder 123 pad
    have hpresent := value?_optional (steady_list target.steady_decoder)
      panel.room (isValue_emptyList pad) rfl (by decide)
    exact hpresent.trans (congrArg (Option.map some) hread)
  cases r <;> simp [aspects, nullable, required, defaulted, listKeys, htags, hpanels, htargets]

theorem see_unread (r : RecordType) :
    ∀ aspect ∈ r.aspects, aspect.field.key ∈ unreadKeys → ∀ a,
      some (aspect.see a) = aspect.field.absent.map aspect.see := by
  cases r <;> simp [aspects, nullable, required, defaulted, unreadKeys]

-- Each way to say that a field is absent shows what its absence does.
theorem Absent.seen {r : RecordType} {key : String} {said : Option (List Char)}
    (h : Absent r key said) : ∀ aspect ∈ r.aspects, aspect.field.key = key →
      (said.elim aspect.field.absent (aspect.field.value.within r.room).value?).map aspect.see =
        aspect.field.absent.map aspect.see := by
  rintro aspect haspect rfl
  cases h with
  | missing => rfl
  | null hkey => exact congrArg (Option.map aspect.see) (r.value?_null aspect haspect hkey)
  | emptyText hkey => exact r.see_value?_quoted aspect haspect hkey
  | emptyRecord hkey pad => exact r.see_value?_emptyObject pad aspect haspect hkey
  | emptyList hkey pad => exact r.see_value?_emptyList pad aspect haspect hkey
  | notCollapsed hkey => exact r.see_value?_false aspect haspect hkey
  | @unread hkey text hfits =>
      have hslot : aspect.toSlot ∈ r.slots := by
        rw [← r.map_aspects]
        exact List.mem_map_of_mem haspect
      obtain ⟨a, ha⟩ := hfits aspect.toSlot hslot rfl
      have hvalue : (aspect.field.value.within r.room).value? text = some a :=
        Reader.toOption_eq_some_iff.mpr ha
      rw [Option.elim_some, hvalue]
      exact r.see_unread aspect haspect hkey a

end Absent

section Exchange

variable {r inner : RecordType}

theorem texts_append (front back : List AnyMember) :
    texts (front ++ back) = texts front ++ texts back := List.map_append

-- One way to say that a field is absent for another.
theorem see_unsaid {key : String} {m n : Option AnyMember} (pad : Blanks)
    (front back : List AnyMember) (hother : ∀ o ∈ front ++ back, o.name ≠ key)
    (hm : r.Unsaid key m) (hn : r.Unsaid key n) :
    (r.read? (membersText pad (front ++ (m.toList ++ back)))).map r.see =
      (r.read? (membersText pad (front ++ (n.toList ++ back)))).map r.see := by
  have hnames : ∀ p ∈ texts front ++ texts back, p.1 ≠ key := by
    rw [← texts_append]
    intro p hp
    obtain ⟨o, ho, rfl⟩ := List.mem_map.mp hp
    exact hother o ho
  have htexts : ∀ {o : Option AnyMember}, r.Unsaid key o →
      texts (front ++ (o.toList ++ back)) =
        texts front ++ (((o.map (·.value)).map (Prod.mk key)).toList ++ texts back) := by
    rintro (_ | o) ho
    · rw [texts_append, texts_append]
      rfl
    · rw [texts_append, texts_append, ← ho.1 o rfl]
      rfl
  rw [read?_membersText, read?_membersText, htexts hm, htexts hn]
  refine see_textRow?_congr fun aspect haspect => ?_
  by_cases hkey : aspect.field.key = key
  · subst hkey
    have honly := fun said => (aspect.field.within r.room).valueOf?_only hnames said
    rw [given?, given?]
    refine (congrArg (Option.map aspect.see) (honly (m.map (·.value)))).trans ?_
    refine Eq.trans ?_ (congrArg (Option.map aspect.see) (honly (n.map (·.value)))).symm
    exact (hm.2.seen aspect haspect rfl).trans (hn.2.seen aspect haspect rfl).symm
  · have hmiddle : ∀ said : Option (List Char),
        ∀ p ∈ (said.map (Prod.mk key)).toList, p.1 ≠ aspect.field.key := by
      intro said p hp
      obtain ⟨text, -, rfl⟩ := Option.map_eq_some_iff.mp (Option.mem_toList.mp hp)
      exact Ne.symm hkey
    have hgone := fun said => (aspect.field.within r.room).valueOf?_other (texts front)
      (texts back) (hmiddle said)
    rw [given?, given?]
    exact congrArg (Option.map aspect.see)
      ((hgone (m.map (·.value))).trans (hgone (n.map (·.value))).symm)

-- Another text for the value of a member.
theorem see_withValue {m : AnyMember} (pad : Blanks) (front back : List AnyMember) {text : List Char}
    (valid : ∃ depth, IsValue depth text)
    (h : ∀ aspect ∈ r.aspects, aspect.field.key = m.name →
      ((aspect.field.value.within r.room).value? m.value).map aspect.see =
        ((aspect.field.value.within r.room).value? text).map aspect.see) :
    (r.read? (membersText pad (front ++ m :: back))).map r.see =
      (r.read? (membersText pad (front ++ m.withValue text valid :: back))).map r.see := by
  rw [read?_membersText, read?_membersText, texts_append, texts_append]
  refine see_textRow?_congr fun aspect haspect => ?_
  exact (aspect.field.within r.room).map_valueOf?_replace (h aspect haspect)

-- What is seen of a record within another one is all that the field shows.
theorem exists_see_held {key : String} (h : Holds r key inner) :
    ∀ aspect ∈ r.aspects, aspect.field.key = key → ∃ shown : inner.Seen → aspect.Seen,
      ∀ pad ms, ((aspect.field.value.within r.room).value? (membersText pad ms)).map aspect.see =
        ((inner.read? (membersText pad ms)).map inner.see).map shown := by
  cases h <;>
    simp only [aspects, nullable, required, defaulted, List.forall_mem_cons, List.not_mem_nil,
      false_imp_iff, implies_true, and_true, true_and, String.reduceEq, forall_const]
  case config => exact ⟨id, fun pad ms => (congrFun Option.map_id _).symm⟩
  case defaults => exact ⟨id, fun pad ms => (congrFun Option.map_id _).symm⟩
  case options => exact ⟨id, fun pad ms => (congrFun Option.map_id _).symm⟩
  case thresholds =>
    refine ⟨id, fun pad ms => ?_⟩
    have hpresent := value?_optional_object thresholds.steady_decoder
      fieldDefaults.room pad ms
    have hshown := congrArg (Option.map fun thresholds : Option Thresholds =>
      visible (thresholds.bind Thresholds.mode)) hpresent
    exact (hshown.trans (Option.map_map _ _ _)).trans (congrFun Option.map_id _).symm

-- Another item that shows the same.
theorem map_mapM_replace {α β γ : Type} {f : α → Option β} {g : β → γ} (first second : α)
    (h : (f first).map g = (f second).map g) (before after : List α) :
    ((before ++ first :: after).mapM f).map (List.map g) =
      ((before ++ second :: after).mapM f).map (List.map g) := by
  simp only [List.mapM_append, List.mapM_cons]
  cases before.mapM f with
  | none => rfl
  | some front =>
      cases hfirst : f first with
      | none =>
          rw [hfirst, Option.map_none, eq_comm, Option.map_eq_none_iff] at h
          rw [h]
      | some a =>
          rw [hfirst, Option.map_some, eq_comm, Option.map_eq_some_iff] at h
          obtain ⟨b, hb, hshown⟩ := h
          rw [hb]
          cases after.mapM f with
          | none => rfl
          | some back => simp [hshown]

-- What is seen of a record in a list is all that it shows there.
theorem see_listed {key : String} (h : Lists r key inner) {i : AnyItem} {text : List Char}
    (valid : ∃ depth, IsValue depth text) {pad pad' : Blanks} {ms ns : List AnyMember}
    (hi : i.value = membersText pad ms) (htext : text = membersText pad' ns)
    (hsee : (inner.read? i.value).map inner.see = (inner.read? text).map inner.see)
    (listPad : Blanks) (before after : List AnyItem) :
    ∀ aspect ∈ r.aspects, aspect.field.key = key →
      ((aspect.field.value.within r.room).value?
        (itemsText listPad (before ++ i :: after))).map aspect.see =
      ((aspect.field.value.within r.room).value?
        (itemsText listPad (before ++ i.withValue text valid :: after))).map aspect.see := by
  cases h <;>
    simp only [aspects, nullable, required, defaulted, List.forall_mem_cons, List.not_mem_nil,
      false_imp_iff, implies_true, and_true, true_and, String.reduceEq, forall_const]
  case panels =>
    have hsteady : Panel.shape.decoder.Steady := panel.steady_decoder
    have hlist := value?_itemsText (steady_optional hsteady) 125 listPad
    have hitem : ∀ {value pad ms}, value = membersText pad ms →
        (((optional Panel.shape.decoder).within 125).value? value).map (Option.map Panel.seen) =
          ((panel.read? value).map panel.see).map some := by
      rintro _ pad ms rfl
      rw [value?_optional_object hsteady]
      change _ = (((Panel.shape.decoder.within 125).value? (membersText pad ms)).map
        Panel.seen).map some
      cases (Panel.shape.decoder.within 125).value? (membersText pad ms) <;> rfl
    have hshown := ((hitem hi).trans (congrArg (Option.map some) hsee)).trans (hitem htext).symm
    refine (congrArg (Option.map _) (hlist _)).trans ?_
    refine Eq.trans ?_ (congrArg (Option.map _) (hlist _)).symm
    exact map_mapM_replace i (i.withValue text valid) hshown before after
  case targets =>
    have hsteady : Target.shape.decoder.Steady := target.steady_decoder
    have hlist := value?_itemsText hsteady 123 listPad
    have hoptional : ∀ items, (((optional (list Target.shape.decoder)).within panel.room).value?
        (itemsText listPad items)).map (fun targets => (targets.getD []).map Target.view) =
          (items.mapM fun i => (Target.shape.decoder.within 123).value? i.value).map
            (List.map Target.view) := by
      intro items
      obtain ⟨depth, hvalue⟩ := exists_isValue_itemsText listPad items
      have hpresent := value?_optional (steady_list hsteady) panel.room hvalue rfl (by decide)
      refine (congrArg (Option.map _) hpresent).trans ((Option.map_map _ _ _).trans ?_)
      exact congrArg (Option.map _) (hlist items)
    rw [hoptional, hoptional]
    exact map_mapM_replace i (i.withValue text valid) hsee before after

theorem Exchange.objects {first second : List Char} (h : Exchange r first second) :
    (∃ pad ms, first = membersText pad ms) ∧ ∃ pad ms, second = membersText pad ms := by
  cases h with
  | here => exact ⟨⟨_, _, rfl⟩, _, _, rfl⟩
  | inside => exact ⟨⟨_, _, rfl⟩, _, _, rfl⟩
  | listed => exact ⟨⟨_, _, rfl⟩, _, _, rfl⟩

-- However deep the exchange is, the same is seen of the record.
theorem Exchange.seen {first second : List Char} (h : Exchange r first second) :
    (r.read? first).map r.see = (r.read? second).map r.see := by
  induction h with
  | here _ pad front back hother hm hn => exact see_unsaid pad front back hother hm hn
  | @inside r inner m hholds pad front back text valid h ih =>
      obtain ⟨⟨_, _, hm⟩, _, _, htext⟩ := h.objects
      refine see_withValue pad front back valid fun aspect haspect hkey => ?_
      obtain ⟨shown, hshown⟩ := exists_see_held hholds aspect haspect hkey
      rw [hm, htext] at ih ⊢
      rw [hshown, hshown, ih]
  | @listed r inner m hlists pad front back listPad before after i hvalue text valid h ih =>
      obtain ⟨⟨_, _, hi⟩, _, _, htext⟩ := h.objects
      refine see_withValue pad front back _ fun aspect haspect hkey => ?_
      rw [hvalue]
      exact see_listed hlists valid hi htext ih listPad before after aspect haspect hkey

end Exchange

end RecordType

end DashboardScript
