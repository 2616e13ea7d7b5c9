import DashboardScript.Proofs.Json.Acceptance

namespace DashboardScript.Json

open Grammar Reader

namespace Decoder

section Within

variable {α : Type}

-- The decoder of what stands where so many levels are left.
def within (room : Nat) (decoder : Decoder α) : Decoder α := fun _ => decoder room

-- Wherever it stands and however deep it nests, a value alone decides what the decoder makes of it.
structure Steady (decoder : Decoder α) : Prop where
  blanks : ∀ room, IgnoresBlanks (decoder room)
  settles : ∀ (room : Nat) {depth : Nat} {text : List Char}, IsValue depth text →
    Settles (decoder room) text ((decoder.within room).value? text)

variable {decoder : Decoder α} {room depth : Nat} {text : List Char}

theorem value?_within (hblanks : IgnoresBlanks (decoder room)) {outcome : Option α}
    (h : Settles (decoder room) text outcome) : (decoder.within room).value? text = outcome := by
  have hwhole : (decoder.within room).value? ([] ++ (text ++ [])) = outcome :=
    value?_of_settles hblanks h ⟨[], by simp⟩ ⟨[], by simp⟩
  rwa [List.nil_append, List.append_nil] at hwhole

theorem steady_of_exists (hblanks : ∀ room, IgnoresBlanks (decoder room))
    (h : ∀ room {depth text}, IsValue depth text → ∃ outcome, Settles (decoder room) text outcome) :
    Steady decoder where
  blanks := hblanks
  settles room _ _ hvalue := by
    obtain ⟨outcome, houtcome⟩ := h room hvalue
    rw [value?_within (hblanks room) houtcome]
    exact houtcome

end Within

section Scalars

variable {α : Type}

-- A decoder that takes no brackets.
theorem steady_of_local {decoder : Decoder α} (h : Local decoder)
    (hsequence : ∀ room text, (decoder room).run? ('[' :: text) = none)
    (hmap : ∀ room text, (decoder room).run? ('\x7b' :: text) = none) : Steady decoder := by
  refine steady_of_exists h.blanks fun room depth text hvalue => ?_
  have hscalar : IsValue 0 text → ∃ outcome, Settles (decoder room) text outcome := by
    intro hscalar
    obtain ⟨outcome, houtcome⟩ := h.settles (Nat.zero_le _) hscalar
    exact ⟨outcome, houtcome room (Nat.zero_le room)⟩
  cases hvalue with
  | null => exact hscalar (.null 0)
  | boolean _ b => exact hscalar (.boolean 0 b)
  | number _ n => exact hscalar (.number 0 n)
  | string _ gs => exact hscalar (.string 0 gs)
  | array pad hitems => exact ⟨none, fun rest _ => hsequence room _⟩
  | object pad hmembers => exact ⟨none, fun rest _ => hmap room _⟩

theorem steady_text : Steady text :=
  steady_of_local local_text (fun _ _ => run?_bind_of_ok _ (next_bracket _))
    fun _ _ => run?_bind_of_ok _ (next_brace _)

theorem steady_flag : Steady flag :=
  steady_of_local local_flag (fun _ _ => run?_bind_of_ok _ (next_bracket _))
    fun _ _ => run?_bind_of_ok _ (next_brace _)

theorem steady_word : Steady word :=
  steady_of_local local_word (fun _ _ => run?_bind_of_ok _ (next_bracket _))
    fun _ _ => run?_bind_of_ok _ (next_brace _)

theorem steady_number : Steady number := by
  refine steady_of_local local_number (fun room text => ?_) fun room text => ?_
  · refine (run?_bind_of_ok _ (next_bracket text)).trans ?_
    cases room with
    | zero => rfl
    | succ room => exact run?_bind_none (fun _ rest => run?_failList _ rest) advance _
  · refine (run?_bind_of_ok _ (next_brace text)).trans ?_
    cases room with
    | zero => rfl
    | succ room => exact run?_bind_none (fun _ rest => run?_failObject _ rest) advance _

end Scalars

section Composite

variable {α : Type} {item : Decoder α} {room depth : Nat}

theorem steady_optional (h : Steady item) : Steady (optional item) := by
  refine steady_of_exists (ignoresBlanks_optional item) fun room depth text hvalue => ?_
  rcases null_or_isPresent hvalue with rfl | ⟨c, tail, rfl, hblank, hc⟩
  · exact ⟨some none, settles_optional_null item room⟩
  · exact ⟨_, settles_optional_present hblank hc (h.settles room hvalue)⟩

-- A decoder that looks for the next scalar or bracket, as in `exists_settles_next` but at one place.
theorem exists_settles_found {text : List Char} (h : IsValue depth text) {k : Found → Reader α}
    (hscalar : ∀ found, Found.IsScalar found →
      ∃ outcome : Option α, ∀ rest, (k found).run? rest = outcome.map (·, rest))
    (harray : ∀ {inner} pad {items : List ItemText}, (∀ i ∈ items, IsValue inner i.value) →
      ∃ outcome, Settles (k .sequence) (bracketedText pad items) outcome)
    (hobject : ∀ {inner} pad {ms : List MemberText}, (∀ m ∈ ms, IsValue inner m.value) →
      ∃ outcome, Settles (k .map) (bracedText pad ms) outcome) :
    ∃ outcome, Settles (do k (← next)) text outcome := by
  have hall : ∃ outcome, ∀ room, depth ≤ room → Settles (do k (← next)) text outcome := by
    refine exists_settles_next h (k := fun _ => k) ?_ ?_ ?_
    · intro found hfound
      obtain ⟨outcome, houtcome⟩ := hscalar found hfound
      exact ⟨outcome, fun _ => houtcome⟩
    · intro inner pad items _ hitems
      obtain ⟨outcome, houtcome⟩ := harray pad hitems
      exact ⟨outcome, fun _ _ => houtcome⟩
    · intro inner pad ms _ hmembers
      obtain ⟨outcome, houtcome⟩ := hobject pad hmembers
      exact ⟨outcome, fun _ _ => houtcome⟩
  obtain ⟨outcome, houtcome⟩ := hall
  exact ⟨outcome, houtcome depth (Nat.le_refl depth)⟩

theorem steady_list (h : Steady item) : Steady (list item) := by
  refine steady_of_exists (fun _ => ignoresBlanks_next.bind _) fun room depth text hvalue => ?_
  refine exists_settles_found hvalue ?_ ?_ ?_
  · rintro found ⟨hsequence, -⟩
    cases found
    case sequence => exact absurd rfl hsequence
    all_goals exact ⟨none, fun _ => rfl⟩
  · intro inner pad items hitems
    cases room with
    | zero => exact ⟨none, settles_none (fun _ => rfl) _⟩
    | succ room =>
        exact ⟨_, settles_bracketed pad fun i hi =>
          ⟨(hitems i hi).begins, h.settles room (hitems i hi)⟩⟩
  · exact fun _ _ _ => ⟨none, settles_none (fun _ => rfl) _⟩

theorem value?_list (h : Steady item) (pad : Blanks) {items : List ItemText}
    (hitems : ∀ i ∈ items, IsValue depth i.value) :
    ((list item).within (room + 1)).value? (bracketedText pad items) =
      items.mapM fun i => (item.within room).value? i.value := by
  refine value?_within (ignoresBlanks_next.bind _) fun rest hrest => ?_
  have hread := settles_bracketed pad fun i hi =>
    ⟨(hitems i hi).begins, h.settles room (hitems i hi)⟩
  rw [← hread rest hrest]
  exact run?_bind_of_ok _ (next_bracket _)

theorem steady_any : Steady any := by
  refine steady_of_exists ignoresBlanks_any fun room => ?_
  have hscalar : ∀ room found, Found.IsScalar found →
      ∃ outcome : Option Value, ∀ rest,
        (anyBrackets room found).run? rest = outcome.map (·, rest) := by
    intro room found hfound
    obtain ⟨outcome, houtcome⟩ := anyBrackets_scalar hfound
    exact ⟨outcome, houtcome room⟩
  simp only [any_eq]
  induction room with
  | zero =>
      intro depth text hvalue
      exact exists_settles_found hvalue (hscalar 0)
        (fun _ _ _ => ⟨none, settles_none (fun _ => rfl) _⟩)
        fun _ _ _ => ⟨none, settles_none (fun _ => rfl) _⟩
  | succ room ih =>
      simp only [← any_eq] at ih
      intro depth text hvalue
      refine exists_settles_found hvalue (hscalar (room + 1)) ?_ ?_
      · intro inner pad items hitems
        have hitem := fun i hi => ih (hitems i hi)
        choose! f hf using hitem
        exact ⟨_, (settles_bracketed pad fun i hi => ⟨(hitems i hi).begins, hf i hi⟩).map Value.array⟩
      · intro inner pad ms hmembers
        have hmember := fun m hm => ih (hmembers m hm)
        choose! f hf using hmember
        refine ⟨_, (settles_braced (g := fun members key m => (f m).bind fun value =>
          some (insertMember key value members)) pad [] fun m hm members key _ =>
            settles_fromColon ?_).map Value.object⟩
        exact ((hf m hm).blanks (ignoresBlanks_any _) m.lead).bind fun _ _ => rfl

end Composite

end Decoder

def Field.within {α : Type} (room : Nat) (field : Field α) : Field α :=
  { field with value := field.value.within room }

def Slot.within {α : Type} (room : Nat) (slot : Slot α) : Slot α :=
  { slot with field := slot.field.within room }

namespace Record

variable {room : Nat} {types : List Type} {fields : Row Field types}

-- The same fields where so many levels are left.
def within (room : Nat) : (types : List Type) → Row Field types → Row Field types
  | [], _ => ()
  | _ :: types, (field, fields) => (field.within room, within room types fields)

def Steady : (types : List Type) → Row Field types → Prop
  | [], _ => True
  | _ :: types, (field, fields) => field.value.Steady ∧ Steady types fields

theorem steady_of_every (h : Every Decoder.Steady types fields) : Steady types fields := by
  induction types with
  | nil => trivial
  | cons α types ih =>
      obtain ⟨field, fields⟩ := fields
      exact ⟨h.1, ih h.2⟩

theorem keys_within : keys types (within room types fields) = keys types fields := by
  induction types with
  | nil => rfl
  | cons α types ih =>
      obtain ⟨field, fields⟩ := fields
      exact congrArg (field.key :: ·) ih

theorem slots_within :
    slots types (within room types fields) = (slots types fields).map (Slot.within room) := by
  induction types with
  | nil => rfl
  | cons α types ih =>
      obtain ⟨field, fields⟩ := fields
      rw [within, slots, slots, ih, List.map_cons, List.map_map, List.map_map]
      rfl

theorem reads_within (h : Steady types fields) {depth : Nat} {text : List Char}
    (hvalue : IsValue depth text) (anywhere : Nat) :
    Reads anywhere text types (within room types fields) := by
  induction types with
  | nil => trivial
  | cons α types ih =>
      obtain ⟨field, fields⟩ := fields
      obtain ⟨hfield, hfields⟩ := h
      exact ⟨⟨hfield.blanks room, hfield.settles room hvalue⟩, ih hfields⟩

theorem meaning_within (anywhere : Nat) (key : String) (slots : Row Option types) :
    meaning anywhere key types (within room types fields) slots =
      meaning room key types fields slots := by
  induction types with
  | nil => rfl
  | cons α types ih =>
      obtain ⟨field, fields⟩ := fields
      obtain ⟨slot, slots⟩ := slots
      simp only [within, meaning, ih]
      rfl

theorem complete_within (slots : Row Option types) :
    complete types (within room types fields) slots = complete types fields slots := by
  induction types with
  | nil => rfl
  | cons α types ih =>
      obtain ⟨field, fields⟩ := fields
      obtain ⟨slot, slots⟩ := slots
      simp only [within, Field.within, complete, ih]

theorem member_within (anywhere : Nat) :
    member (within room types fields) anywhere = member fields room := by
  funext slots key
  simp only [member, meaning_within]

theorem keyed_within (anywhere : Nat) :
    keyed (within room types fields) anywhere = keyed fields room := by
  simp only [keyed, member_within, complete_within]

theorem elements_within (expected : String) (anywhere index : Nat) :
    elements expected anywhere types (within room types fields) index =
      elements expected room types fields index := by
  induction types generalizing index with
  | nil => rfl
  | cons α types ih =>
      obtain ⟨field, fields⟩ := fields
      simp only [within, elements, ih]
      rfl

theorem positional_within (expected : String) (anywhere : Nat) :
    positional expected (within room types fields) anywhere = positional expected fields room := by
  simp only [positional, elements_within]

end Record

namespace Shape

variable {α : Type} {shape : Shape α} {room : Nat}

theorem settles_object (h : Record.Steady shape.types shape.fields) (pad : Blanks)
    {ms : List MemberText} (hms : ∀ m ∈ ms, ∃ depth, IsValue depth m.value) :
    Settles (shape.make <$> Record.keyed shape.fields room) (bracedText pad ms)
      ((Record.keyed? shape.types (Record.within room shape.types shape.fields) ms).map
        shape.make) := by
  rw [← Record.keyed_within room]
  refine (Record.settles_keyed pad fun m hm => ?_).map shape.make
  obtain ⟨depth, hvalue⟩ := hms m hm
  exact ⟨hvalue.skips, Record.reads_within h hvalue room⟩

theorem steady_decoder (h : Record.Steady shape.types shape.fields) : shape.decoder.Steady := by
  refine Decoder.steady_of_exists (fun _ => Decoder.ignoresBlanks_next.bind _)
    fun room depth text hvalue => ?_
  refine Decoder.exists_settles_found hvalue ?_ ?_ ?_
  · rintro found ⟨hsequence, hmap⟩
    cases found
    case sequence => exact absurd rfl hsequence
    case map => exact absurd rfl hmap
    all_goals exact ⟨none, fun _ => rfl⟩
  · intro inner pad items hitems
    cases room with
    | zero => exact ⟨none, settles_none (fun _ => rfl) _⟩
    | succ room =>
        have hparts : ∀ i ∈ items, Begins i.value ∧ Record.Reads room i.value shape.types
            (Record.within room shape.types shape.fields) := fun i hi =>
          ⟨(hitems i hi).begins, Record.reads_within h (hitems i hi) room⟩
        have hread := Record.settles_positional shape.lengthDescription pad hparts
        rw [Record.positional_within] at hread
        exact ⟨_, hread.map shape.make⟩
  · intro inner pad ms hmembers
    cases room with
    | zero => exact ⟨none, settles_none (fun _ => rfl) _⟩
    | succ room => exact ⟨_, settles_object h pad fun m hm => ⟨inner, hmembers m hm⟩⟩

-- An object is decoded member by member, with one level less for the values of its members.
theorem settles_decoder_object (h : Record.Steady shape.types shape.fields) (pad : Blanks)
    {ms : List MemberText} (hms : ∀ m ∈ ms, ∃ depth, IsValue depth m.value) :
    Settles (shape.decoder (room + 1)) (bracedText pad ms)
      ((Record.keyed? shape.types (Record.within room shape.types shape.fields) ms).map
        shape.make) := by
  intro rest hrest
  rw [← settles_object h pad hms rest hrest]
  exact run?_bind_of_ok _ (next_brace _)

theorem value?_object (h : Record.Steady shape.types shape.fields) (pad : Blanks)
    {ms : List MemberText} (hms : ∀ m ∈ ms, ∃ depth, IsValue depth m.value) :
    (shape.decoder.within (room + 1)).value? (bracedText pad ms) =
      (Record.keyed? shape.types (Record.within room shape.types shape.fields) ms).map
        shape.make :=
  Decoder.value?_within (Decoder.ignoresBlanks_next.bind _) (settles_decoder_object h pad hms)

end Shape

theorem Decoder.closed_steady : Decoder.Closed Decoder.Steady where
  text := steady_text
  flag := steady_flag
  word := steady_word
  number := steady_number
  any := steady_any
  optional := steady_optional
  list := steady_list
  record h := Shape.steady_decoder (Record.steady_of_every h)

end DashboardScript.Json
