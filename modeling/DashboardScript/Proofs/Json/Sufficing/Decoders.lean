import DashboardScript.Proofs.Json.Closure
import DashboardScript.Proofs.Json.Rooms
import DashboardScript.Proofs.Json.Sufficing

namespace DashboardScript.Json

open Grammar Reader

namespace Decoder

-- A value alone decides what the decoder makes of it, and the decoder needs nothing behind it.
structure Decisive {α : Type} (decoder : Decoder α) : Prop extends Steady decoder where
  enough : ∀ (room : Nat) {depth : Nat} {text : List Char}, IsValue depth text →
    Suffices (decoder room) text

section Scalars

variable {α : Type} {depth : Nat} {text : List Char}

-- What is made of a scalar or a bracket without looking for anything in particular behind it.
theorem suffices_scalar (hvalue : IsValue depth text) {f : Found → Reader α}
    (h : ∀ found rest, ¬EndsEarly (f found) rest) : Suffices (next >>= f) text :=
  suffices_next hvalue (fun found _ => h found) (fun _ _ _ _ _ => h _ _) fun _ _ _ _ _ => h _ _

theorem decisive_text : Decisive Decoder.text where
  toSteady := steady_text
  enough _ _ _ hvalue := by
    refine suffices_scalar hvalue fun found rest => ?_
    cases found
    case string => exact not_endsEarly_of_ok rfl
    all_goals exact not_endsEarly_of_cause rfl nofun

theorem decisive_flag : Decisive flag where
  toSteady := steady_flag
  enough _ _ _ hvalue := by
    refine suffices_scalar hvalue fun found rest => ?_
    cases found
    case boolean => exact not_endsEarly_of_ok rfl
    all_goals exact not_endsEarly_of_cause rfl nofun

theorem decisive_word : Decisive word where
  toSteady := steady_word
  enough _ _ _ hvalue := by
    refine suffices_scalar hvalue fun found rest => ?_
    cases found
    case number n =>
      cases n with
      | real => exact not_endsEarly_of_cause rfl nofun
      | integer n =>
          dsimp only
          split
          · exact not_endsEarly_of_ok rfl
          · exact not_endsEarly_of_cause rfl nofun
    all_goals exact not_endsEarly_of_cause rfl nofun

theorem not_endsEarly_nested {inner : Decoder α} (h : ∀ room, ¬EndsEarly (inner room) text)
    (room : Nat) : ¬EndsEarly (nested inner room) text := by
  cases room with
  | zero => exact not_endsEarly_of_cause rfl nofun
  | succ room => exact h room

theorem decisive_number : Decisive number where
  toSteady := steady_number
  enough room _ _ hvalue := by
    refine suffices_scalar hvalue fun found rest => ?_
    cases found
    case number => exact not_endsEarly_of_ok rfl
    case sequence =>
      refine not_endsEarly_nested (fun _ => ?_) room
      exact not_endsEarly_bind (not_endsEarly_of_ok rfl) fun _ _ _ => not_endsEarly_failList rfl _
    case map =>
      refine not_endsEarly_nested (fun _ => ?_) room
      exact not_endsEarly_bind (not_endsEarly_of_ok rfl) fun _ _ _ => not_endsEarly_failObject rfl _
    all_goals exact not_endsEarly_of_cause rfl nofun

end Scalars

section Composite

variable {α : Type}

theorem decisive_optional {value : Decoder α} (h : Decisive value) : Decisive (optional value) where
  toSteady := steady_optional h.toSteady
  enough room depth text hvalue := by
    rcases null_or_isPresent hvalue with rfl | ⟨c, tail, rfl, hblank, hc⟩
    · exact (settles_optional_null value room).suffices
    · intro rest hrest
      have hpresent : ¬some c = some 'n' := fun h => hc (Option.some.inj h)
      rw [List.cons_append, optional, endsEarly_bind_iff _ (peekToken_cons hblank _),
        if_neg hpresent]
      exact (h.enough room hvalue).map some rest hrest

theorem decisive_list {item : Decoder α} (h : Decisive item) : Decisive (list item) where
  toSteady := steady_list h.toSteady
  enough room depth text hvalue := by
    refine suffices_next hvalue ?_ ?_ fun _ _ _ _ _ => not_endsEarly_of_cause rfl nofun
    · rintro found ⟨hsequence, -⟩ rest
      cases found
      case sequence => exact absurd rfl hsequence
      all_goals exact not_endsEarly_of_cause rfl nofun
    · intro inner pad items hitems rest hrest
      refine not_endsEarly_nested (fun room => ?_) room
      exact bracketed_suffices pad (fun i hi => ⟨(hitems i hi).begins, h.settles room (hitems i hi),
        h.enough room (hitems i hi)⟩) rest hrest

-- Of members with the same key the last one stays, so the state before a member is of any kind.
theorem any_member_suffices {room : Nat} {m : MemberText} (h : Suffices (any room) m.value)
    (members : List (String × Value)) (key : String) :
    Suffices (do
      colon
      let value ← any room
      pure (insertMember key value members)) m.fromColon := by
  refine fromColon_suffices fun rest hrest => ?_
  exact not_endsEarly_bind (h.blanks (ignoresBlanks_any room) m.lead rest hrest)
    fun _ _ _ => not_endsEarly_of_ok rfl

theorem decisive_any : Decisive any where
  toSteady := steady_any
  enough room := by
    have hscalar : ∀ room found, Found.IsScalar found → ∀ rest,
        ¬EndsEarly (anyBrackets room found) rest := by
      rintro room found ⟨hsequence, hmap⟩ rest
      cases found
      case sequence => exact absurd rfl hsequence
      case map => exact absurd rfl hmap
      all_goals exact not_endsEarly_of_ok rfl
    induction room with
    | zero =>
        intro depth text hvalue
        rw [any_eq]
        exact suffices_next hvalue (hscalar 0) (fun _ _ _ _ _ => not_endsEarly_of_cause rfl nofun)
          fun _ _ _ _ _ => not_endsEarly_of_cause rfl nofun
    | succ room ih =>
        intro depth text hvalue
        rw [any_eq]
        refine suffices_next hvalue (hscalar (room + 1)) ?_ ?_
        · intro inner pad items hitems
          exact (bracketed_suffices pad fun i hi => ⟨(hitems i hi).begins,
            steady_any.settles room (hitems i hi), ih (hitems i hi)⟩).map Value.array
        · intro inner pad ms hmembers
          refine (braced_suffices (g := fun members key m =>
            ((any.within room).value? m.value).bind fun value =>
              some (insertMember key value members)) pad []
            fun m hm members key _ => ?_).map Value.object
          refine ⟨settles_fromColon ?_, any_member_suffices (ih (hmembers m hm)) members key⟩
          have hsettles := steady_any.settles room (hmembers m hm)
          exact (hsettles.blanks (ignoresBlanks_any _) m.lead).bind fun _ _ => rfl

end Composite

end Decoder

namespace Record

variable {room depth : Nat} {types : List Type} {fields : Row Field types}

theorem steady_of_decisive (h : Every Decoder.Decisive types fields) : Steady types fields :=
  steady_of_every (h.mono Decoder.Decisive.toSteady)

section Object

-- What fills the slots needs nothing behind the value of its member.
def Meaning.Suffices {σ : Type} (m : MemberText) : Meaning σ → Prop
  | .fills value => Reader.Suffices value (m.lead.val ++ m.value)
  | _ => True

theorem meaning_suffices (room : Nat) (h : Every Decoder.Decisive types fields) {m : MemberText}
    (hvalue : IsValue depth m.value) (key : String) (slots : Row Option types) :
    (meaning room key types fields slots).Suffices m := by
  induction types with
  | nil => trivial
  | cons α types ih =>
      obtain ⟨field, fields⟩ := fields
      obtain ⟨slot, slots⟩ := slots
      obtain ⟨hfield, hfields⟩ := h
      unfold meaning
      split
      · cases slot with
        | some a => trivial
        | none =>
            intro rest hrest
            have henough := (hfield.enough room hvalue).blanks (hfield.blanks room) m.lead
            exact not_endsEarly_bind (henough rest hrest) fun _ _ _ => not_endsEarly_of_ok rfl
      · have hrest := ih hfields slots
        cases hmeaning : meaning room key types fields slots with
        | fills value =>
            rw [hmeaning] at hrest
            exact Reader.Suffices.map hrest _
        | unknown => trivial
        | repeated => trivial

theorem member_suffices (h : Every Decoder.Decisive types fields) {m : MemberText}
    (hvalue : IsValue depth m.value) (slots : Row Option types) (key : String) :
    Suffices (member fields room slots key) m.fromColon := by
  have hmeaning := meaning_suffices room h hvalue key slots
  unfold member
  cases hcase : meaning room key types fields slots with
  | unknown =>
      have hskip := (hvalue.skips.blanks m.lead).settles
      exact fromColon_suffices (hskip.bind (g := fun _ => some slots) fun _ _ => rfl).suffices
  | repeated => exact fun rest _ => not_endsEarly_failObject rfl _
  | fills value =>
      rw [hcase] at hmeaning
      exact fromColon_suffices hmeaning

theorem keyed_suffices (h : Every Decoder.Decisive types fields) (pad : Blanks)
    {ms : List MemberText} (hms : ∀ m ∈ ms, IsValue depth m.value) :
    Suffices (keyed fields room) (bracedText pad ms) := by
  have hmember : ∀ m ∈ ms, ∀ slots key, m.key? = some key →
      Settles (member fields room slots key) m.fromColon
        (fill types (within room types fields) slots key m.value) ∧
      Suffices (member fields room slots key) m.fromColon := by
    intro m hm slots key _
    have hreads : Reads room m.value types (within room types fields) :=
      reads_within (steady_of_decisive h) (hms m hm) room
    have hsettles := settles_member (hms m hm).skips hreads slots key
    rw [member_within] at hsettles
    exact ⟨hsettles, member_suffices h (hms m hm) slots key⟩
  intro rest hrest
  have hbraced := braced_suffices (g := fun slots key m =>
    fill types (within room types fields) slots key m.value) pad (emptySlots types) hmember
  refine not_endsEarly_bind (hbraced rest hrest) fun slots _ _ => ?_
  cases complete types fields slots with
  | ok row => exact not_endsEarly_of_ok rfl
  | error key => exact not_endsEarly_of_cause rfl nofun

end Object

section Array

theorem closeList_suffices {c : Char} (hblank : isBlank c = false) (pad : Blanks)
    (tail : List Char) : ¬EndsEarly closeList (pad.val ++ c :: tail) := by
  have hpad : IgnoresBlanks closeList := ignoresBlanks_peekToken.bind _
  unfold EndsEarly
  rw [hpad pad]
  change ¬EndsEarly closeList (c :: tail)
  rw [closeList, endsEarly_bind_iff _ (peekToken_cons hblank tail)]
  dsimp only
  split
  · exact not_endsEarly_of_ok rfl
  · split
    · refine not_endsEarly_bind (not_endsEarly_of_ok rfl) fun _ _ _ => ?_
      refine not_endsEarly_bind (not_endsEarly_of_ok rfl) fun _ _ _ => ?_
      split <;> exact not_endsEarly_failNext (by decide) _
    · exact not_endsEarly_failNext (by decide) _

-- Behind the items that are wanted comes the end of the array or another item.
theorem closeList_separated (first : Bool) (pad : Blanks) {items : List ItemText}
    (hitems : ∀ i ∈ items, Begins i.value) (rest : List Char) :
    ¬EndsEarly closeList
      (pad.val ++ (separated first (items.map ItemText.text) ++ ']' :: rest)) := by
  cases items with
  | nil => exact closeList_suffices rfl pad rest
  | cons i items =>
      obtain ⟨c, tail, hvalue, hblank, -⟩ := hitems i List.mem_cons_self
      rw [separated_items, leadIn, hvalue]
      cases first with
      | false => exact closeList_suffices rfl pad _
      | true =>
          intro hends
          have hpad : IgnoresBlanks closeList := ignoresBlanks_peekToken.bind _
          exact closeList_suffices hblank i.before _ (endsEarly_of_eq (hpad pad _).symm hends)

theorem elements_suffice (h : Every Decoder.Decisive types fields) (expected : String)
    {items : List ItemText} (hitems : ∀ i ∈ items, IsValue depth i.value) (index : Nat)
    (pad : Blanks) (rest : List Char) :
    ¬EndsEarly (closing (elements expected room types fields index))
      (pad.val ++ (separated (index == 0) (items.map ItemText.text) ++ ']' :: rest)) := by
  induction types generalizing items index pad with
  | nil =>
      have hclose := closeList_separated (index == 0) pad (fun i hi => (hitems i hi).begins) rest
      rw [elements, closing, pure_bind]
      exact not_endsEarly_bind hclose fun _ _ _ => not_endsEarly_of_ok rfl
  | cons α types ih =>
      obtain ⟨field, fields⟩ := fields
      obtain ⟨hfield, hfields⟩ := h
      rw [elements, closing_bind]
      cases items with
      | nil =>
          have hpad : IgnoresBlanks (hasItem (index == 0)) := ignoresBlanks_peekToken.bind _
          have hend := (hpad pad _).trans (hasItem_end (index == 0) rest)
          rw [List.map_nil, separated, List.nil_append, endsEarly_bind_iff _ hend,
            if_neg Bool.false_ne_true]
          cases field.absent with
          | none =>
              refine not_endsEarly_bind (not_endsEarly_failList rfl _) fun _ _ hrun => ?_
              exact absurd hrun (not_ok_of_run? (run?_failList _ _))
          | some a =>
              dsimp only
              rw [closing_pair]
              have hrest := ih hfields (List.forall_mem_nil _) (index + 1) ⟨[], by simp⟩
              exact not_endsEarly_map hrest _
      | cons i items =>
          have hends := endsNumber_blanks i.after
            (endsNumber_separated (.inl rfl) (items.map ItemText.text) rest)
          have hvalue := hitems i List.mem_cons_self
          rw [separated_items, endsEarly_bind_iff _ (hasItem_leadIn _ _ _ hvalue.begins _),
            if_pos rfl, closing_bind]
          refine (hfield.settles room hvalue).not_endsEarly_bind hends
            (hfield.enough room hvalue _ hends) fun a _ => ?_
          rw [closing_pair]
          exact not_endsEarly_map (ih hfields (fun j hj => hitems j (List.mem_cons_of_mem i hj))
            (index + 1) i.after) _

theorem positional_suffices (h : Every Decoder.Decisive types fields) (expected : String)
    (pad : Blanks) {items : List ItemText} (hitems : ∀ i ∈ items, IsValue depth i.value) :
    Suffices (positional expected fields room) (bracketedText pad items) := by
  intro rest _
  rw [bracketedText, List.cons_append, closed_append, positional,
    endsEarly_bind_iff _ (advance_cons '[' _)]
  exact elements_suffice h expected hitems 0 pad rest

end Array

end Record

namespace Shape

variable {α : Type} {shape : Shape α}

theorem decisive_decoder (h : Record.Every Decoder.Decisive shape.types shape.fields) :
    shape.decoder.Decisive where
  toSteady := steady_decoder (Record.steady_of_decisive h)
  enough room depth text hvalue := by
    refine suffices_next hvalue ?_ ?_ ?_
    · rintro found ⟨hsequence, hmap⟩ rest
      cases found
      case sequence => exact absurd rfl hsequence
      case map => exact absurd rfl hmap
      all_goals exact not_endsEarly_of_cause rfl nofun
    · intro inner pad items hitems rest hrest
      refine not_endsEarly_map (Decoder.not_endsEarly_nested (fun room => ?_) room) shape.make
      exact Record.positional_suffices h _ pad hitems rest hrest
    · intro inner pad ms hmembers rest hrest
      refine not_endsEarly_map (Decoder.not_endsEarly_nested (fun room => ?_) room) shape.make
      exact Record.keyed_suffices h pad hmembers rest hrest

end Shape

namespace Decoder

theorem closed_decisive : Closed Decisive where
  text := decisive_text
  flag := decisive_flag
  word := decisive_word
  number := decisive_number
  any := decisive_any
  optional := decisive_optional
  list := decisive_list
  record := Shape.decisive_decoder

theorem exists_of_truncated {cause : Cause} (h : cause.category = .truncated) :
    ∃ inside, cause = .ended inside := by
  cases cause
  case ended inside => exact ⟨inside, rfl⟩
  all_goals cases h

-- A whole value with blanks around it is never too short.
theorem decode_not_truncated {α : Type} {decoder : Decoder α} (h : Decisive decoder) {depth : Nat}
    {text : List Char} (hvalue : IsValue depth text) (before after : Blanks) {e : Error}
    (he : decoder.decode (String.ofList (before.val ++ (text ++ after.val))) = .error e) :
    e.cause.category ≠ .truncated := by
  have hafter := endsNumber_blanks after endsNumber_nil
  rw [List.append_nil] at hafter
  have hlast : ¬EndsEarly (do let a ← decoder maxDepth; finish; pure a : Reader α)
      (before.val ++ (text ++ after.val)) := by
    refine fun hends => (h.settles maxDepth hvalue).not_endsEarly_bind hafter
      (h.enough maxDepth hvalue _ hafter) (fun a _ => ?_)
      (endsEarly_of_eq ((h.blanks maxDepth).bind _ before _).symm hends)
    exact (endsEarly_bind_iff _ (finish_blanks after)).not.mpr (not_endsEarly_of_ok rfl)
  rw [decode, parse, String.toList_ofList] at he
  split at he
  case h_1 => cases he
  case h_2 failure hrun =>
    obtain rfl := Except.error.inj he
    intro htruncated
    obtain ⟨inside, hcause⟩ := exists_of_truncated htruncated
    exact hlast ⟨failure, inside, hrun, hcause⟩

end Decoder

end DashboardScript.Json
