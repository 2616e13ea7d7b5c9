import DashboardScript.Proofs.Json.Records
import DashboardScript.Proofs.Json.Skipping

namespace DashboardScript.Json

open Grammar Reader

namespace Reader

variable {α : Type}

theorem settles_none {reader : Reader α} (h : ∀ text, reader.run? text = none) (text : List Char) :
    Settles reader text none :=
  fun rest _ => h (text ++ rest)

theorem toOption_eq_some_iff {ε : Type} {result : Except ε α} {a : α} :
    result.toOption = some a ↔ result = .ok a := by
  cases result <;> simp [Except.toOption]

theorem toOption_parse (reader : Reader α) (text : String) :
    (parse reader text).toOption = (reader.run? text.toList).map Prod.fst := by
  rw [parse, run?]
  cases reader text.toList <;> rfl

theorem finish_blanks (pad : Blanks) : finish pad.val = .ok ((), []) := by
  have hpad : IgnoresBlanks finish := ignoresBlanks_peekToken.bind _
  have hfinish := hpad pad []
  rw [List.append_nil] at hfinish
  exact hfinish

end Reader

namespace Decoder

-- What a decoder makes of a text of its own, but for the reason of a failure.
def value? {α : Type} (decoder : Decoder α) (text : List Char) : Option α :=
  (decode decoder (String.ofList text)).toOption

-- A decoder makes the same of a value wherever it stands, as long as there are enough levels left.
structure Local {α : Type} (decoder : Decoder α) : Prop where
  blanks : ∀ room, IgnoresBlanks (decoder room)
  settles : ∀ {depth : Nat} {text : List Char}, depth ≤ maxDepth → IsValue depth text →
    ∃ outcome, ∀ room, depth ≤ room → Settles (decoder room) text outcome

section Whole

variable {α : Type} {decoder : Decoder α} {depth : Nat} {text : List Char}

-- A whole text may have blanks on both sides.
theorem value?_of_settles {outcome : Option α} (hblanks : IgnoresBlanks (decoder maxDepth))
    (h : Settles (decoder maxDepth) text outcome) (before after : Blanks) :
    decoder.value? (before.val ++ (text ++ after.val)) = outcome := by
  have hafter := endsNumber_blanks after endsNumber_nil
  rw [List.append_nil] at hafter
  have hread : (do let a ← decoder maxDepth; finish; pure a : Reader α).run?
      (before.val ++ (text ++ after.val)) = outcome.map (·, []) := by
    rw [(hblanks.bind _).run?, h.run?_bind hafter]
    cases outcome with
    | none => rfl
    | some a => exact run?_of_ok (bind_of_ok _ (finish_blanks after))
  rw [value?, decode, toOption_parse, String.toList_ofList, hread]
  cases outcome <;> rfl

theorem Local.settles_value? (h : Local decoder) (hvalue : IsValue depth text)
    (hdepth : depth ≤ maxDepth) {room : Nat} (hroom : depth ≤ room) :
    Settles (decoder room) text (decoder.value? text) := by
  obtain ⟨outcome, houtcome⟩ := h.settles hdepth hvalue
  have hwhole := value?_of_settles (h.blanks maxDepth) (houtcome maxDepth hdepth) ⟨[], by simp⟩
    ⟨[], by simp⟩
  rw [List.nil_append, List.append_nil] at hwhole
  rw [hwhole]
  exact houtcome room hroom

end Whole

section Next

-- The brackets of an array or an object stay for the decoder of its parts.
def Found.IsScalar (found : Found) : Prop := found ≠ .sequence ∧ found ≠ .map

theorem settles_next_null : Settles next ['n', 'u', 'l', 'l'] (some .null) :=
  fun rest _ => run?_of_ok (next_null rest)

theorem settles_next_boolean (b : Bool) :
    Settles next (if b then "true" else "false").toList (some (.boolean b)) :=
  fun rest _ => run?_of_ok (next_boolean rest b)

theorem settles_next_number (n : Spelling) :
    Settles next n.text (n.numeral.value?.map .number) := by
  obtain ⟨c, tail, htext, hc⟩ := text_begins n
  have hread := (settles_number n).map Found.number
  intro rest hrest
  rw [← hread rest hrest, htext, List.cons_append, run?, next_numeral _ hc, run?]

theorem settles_next_string (gs : List Glyph) :
    Settles next (quotedText gs) (((Glyph.meaning gs).map String.ofList).map .string) := by
  have hread := (settles_quotedString gs).map Found.string
  intro rest hrest
  rw [← hread rest hrest, quotedText_append, run?, next_quote, run?]

variable {α : Type} {depth : Nat} {text : List Char}

-- A decoder that looks for the next scalar or bracket. It settles every value if it settles those of
-- its own brackets.
theorem exists_settles_next (h : IsValue depth text) {k : Nat → Found → Reader α}
    (hscalar : ∀ found, Found.IsScalar found →
      ∃ outcome : Option α, ∀ room rest, (k room found).run? rest = outcome.map (·, rest))
    (harray : ∀ {inner} pad {items : List ItemText}, inner + 1 = depth →
      (∀ i ∈ items, IsValue inner i.value) →
        ∃ outcome, ∀ room, depth ≤ room →
          Settles (k room .sequence) (bracketedText pad items) outcome)
    (hobject : ∀ {inner} pad {ms : List MemberText}, inner + 1 = depth →
      (∀ m ∈ ms, IsValue inner m.value) →
        ∃ outcome, ∀ room, depth ≤ room → Settles (k room .map) (bracedText pad ms) outcome) :
    ∃ outcome, ∀ room, depth ≤ room → Settles (do k room (← next)) text outcome := by
  have hnext : ∀ {found? : Option Found}, Settles next text found? →
      (∀ found ∈ found?, Found.IsScalar found) →
        ∃ outcome, ∀ room, depth ≤ room → Settles (do k room (← next)) text outcome := by
    intro found? hsettles hfound
    cases found? with
    | none => exact ⟨none, fun room _ rest hrest => hsettles.run?_bind hrest _⟩
    | some found =>
        obtain ⟨outcome, houtcome⟩ := hscalar found (hfound found rfl)
        exact ⟨outcome, fun room _ rest hrest =>
          (hsettles.run?_bind hrest _).trans (houtcome room rest)⟩
  cases h with
  | null => exact hnext settles_next_null (by rintro _ ⟨⟩; exact ⟨by simp, by simp⟩)
  | boolean _ b => exact hnext (settles_next_boolean b) (by rintro _ ⟨⟩; exact ⟨by simp, by simp⟩)
  | number _ n =>
      refine hnext (settles_next_number n) fun found hfound => ?_
      obtain ⟨value, -, rfl⟩ := Option.map_eq_some_iff.mp hfound
      exact ⟨by simp, by simp⟩
  | string _ gs =>
      refine hnext (settles_next_string gs) fun found hfound => ?_
      obtain ⟨s, -, rfl⟩ := Option.map_eq_some_iff.mp hfound
      exact ⟨by simp, by simp⟩
  | array pad hitems =>
      obtain ⟨outcome, houtcome⟩ := harray pad rfl hitems
      refine ⟨outcome, fun room hroom rest hrest => ?_⟩
      rw [← houtcome room hroom rest hrest]
      exact run?_bind_of_ok _ (next_bracket _)
  | object pad hmembers =>
      obtain ⟨outcome, houtcome⟩ := hobject pad rfl hmembers
      refine ⟨outcome, fun room hroom rest hrest => ?_⟩
      rw [← houtcome room hroom rest hrest]
      exact run?_bind_of_ok _ (next_brace _)

theorem ignoresBlanks_next : IgnoresBlanks next := ignoresBlanks_peekToken.bind _

end Next

section Scalars

variable {α : Type}

-- A decoder that takes no brackets.
theorem local_of_scalar {k : Nat → Found → Reader α}
    (hscalar : ∀ found, Found.IsScalar found →
      ∃ outcome : Option α, ∀ room rest, (k room found).run? rest = outcome.map (·, rest))
    (hsequence : ∀ room text, (k room .sequence).run? text = none)
    (hmap : ∀ room text, (k room .map).run? text = none) :
    Local fun room => do k room (← next) where
  blanks _ := ignoresBlanks_next.bind _
  settles _ hvalue := exists_settles_next hvalue hscalar
    (fun _ _ _ _ => ⟨none, fun room _ => settles_none (hsequence room) _⟩)
    (fun _ _ _ _ => ⟨none, fun room _ => settles_none (hmap room) _⟩)

theorem local_text : Local text := by
  refine local_of_scalar (fun found hscalar => ?_) (fun _ _ => rfl) fun _ _ => rfl
  cases found
  case string s => exact ⟨some s, fun _ _ => rfl⟩
  all_goals exact ⟨none, fun _ _ => rfl⟩

theorem local_flag : Local flag := by
  refine local_of_scalar (fun found hscalar => ?_) (fun _ _ => rfl) fun _ _ => rfl
  cases found
  case boolean b => exact ⟨some b, fun _ _ => rfl⟩
  all_goals exact ⟨none, fun _ _ => rfl⟩

theorem local_word : Local word := by
  refine local_of_scalar (fun found hscalar => ?_) (fun _ _ => rfl) fun _ _ => rfl
  cases found
  case number n =>
    cases n with
    | real x => exact ⟨none, fun _ _ => rfl⟩
    | integer n =>
        by_cases hword : 0 ≤ n ∧ n ≤ 0xffffffff
        · refine ⟨some (UInt32.ofNat n.toNat), fun _ rest => ?_⟩
          simp only [hword]
          rfl
        · refine ⟨none, fun _ rest => ?_⟩
          simp only [hword]
          rfl
  all_goals exact ⟨none, fun _ _ => rfl⟩

-- An array or an object is refused behind its bracket.
theorem local_number : Local number := by
  refine local_of_scalar ?_ ?_ ?_
  · rintro found ⟨hsequence, hmap⟩
    cases found
    case number n => exact ⟨some n, fun _ _ => rfl⟩
    case sequence => exact absurd rfl hsequence
    case map => exact absurd rfl hmap
    all_goals exact ⟨none, fun _ _ => rfl⟩
  · intro room text
    cases room with
    | zero => rfl
    | succ room => exact run?_bind_none (fun _ rest => run?_failList _ rest) advance text
  · intro room text
    cases room with
    | zero => rfl
    | succ room => exact run?_bind_none (fun _ rest => run?_failObject _ rest) advance text

end Scalars

section Composite

variable {α : Type} {item : Decoder α}

theorem null_or_isPresent {depth : Nat} {text : List Char} (h : IsValue depth text) :
    text = ['n', 'u', 'l', 'l'] ∨ ∃ c tail, text = c :: tail ∧ isBlank c = false ∧ c ≠ 'n' := by
  cases h with
  | null => exact .inl rfl
  | boolean _ b => cases b <;> exact .inr ⟨_, _, rfl, rfl, by decide⟩
  | number _ n =>
      obtain ⟨c, tail, htext, hc⟩ := text_begins n
      exact .inr ⟨c, tail, htext, (not_blank_of_numeral hc).1, (not_blank_of_numeral hc).2.2⟩
  | string => exact .inr ⟨'"', _, rfl, rfl, by decide⟩
  | array => exact .inr ⟨'[', _, rfl, rfl, by decide⟩
  | object => exact .inr ⟨'\x7b', _, rfl, rfl, by decide⟩

theorem ignoresBlanks_optional (item : Decoder α) (room : Nat) :
    IgnoresBlanks (optional item room) := ignoresBlanks_peekToken.bind _

theorem settles_optional_null (item : Decoder α) (room : Nat) :
    Settles (optional item room) ['n', 'u', 'l', 'l'] (some none) :=
  ((optional_null item) room (Nat.zero_le room)).takes.settles

theorem settles_optional_present {room : Nat} {c : Char} {tail : List Char}
    (hblank : isBlank c = false) (hc : c ≠ 'n') {outcome : Option α}
    (h : Settles (item room) (c :: tail) outcome) :
    Settles (optional item room) (c :: tail) (outcome.map some) := by
  intro rest hrest
  have hpresent : ¬some c = some 'n' := fun h => hc (Option.some.inj h)
  rw [← h.map some rest hrest, List.cons_append, optional,
    run?_bind_of_ok _ (peekToken_cons hblank _), if_neg hpresent]

theorem local_optional (h : Local item) : Local (optional item) := by
  constructor
  case blanks => exact ignoresBlanks_optional item
  case settles =>
    intro depth text hdepth hvalue
    rcases null_or_isPresent hvalue with rfl | ⟨c, tail, rfl, hblank, hc⟩
    · exact ⟨some none, fun room _ => settles_optional_null item room⟩
    · obtain ⟨outcome, houtcome⟩ := h.settles hdepth hvalue
      exact ⟨outcome.map some, fun room hroom =>
        settles_optional_present hblank hc (houtcome room hroom)⟩

theorem local_list (h : Local item) : Local (list item) := by
  constructor
  case blanks => exact fun room => ignoresBlanks_next.bind _
  case settles =>
    intro depth text hdepth hvalue
    refine exists_settles_next hvalue ?_ ?_ ?_
    · rintro found ⟨hsequence, -⟩
      cases found
      case sequence => exact absurd rfl hsequence
      all_goals exact ⟨none, fun _ _ => rfl⟩
    · rintro inner pad items rfl hitems
      refine ⟨items.mapM fun i => item.value? i.value, fun room hroom => ?_⟩
      obtain ⟨spare, rfl⟩ := Nat.exists_eq_add_of_le' hroom
      refine settles_bracketed pad fun i hi => ⟨(hitems i hi).begins, ?_⟩
      exact h.settles_value? (hitems i hi) (Nat.le_of_succ_le hdepth) (Nat.le_add_left inner spare)
    · exact fun _ _ _ _ => ⟨none, fun _ _ => settles_none (fun _ => rfl) _⟩

-- The last part of a value of any shape, behind its bracket.
def anyBrackets (room : Nat) : Found → Reader Value
  | .null => pure .null
  | .boolean b => pure (.boolean b)
  | .number n => pure (.number n)
  | .string s => pure (.string s)
  | .sequence => nested (fun room => Value.array <$> bracketed (any room)) room
  | .map => nested (fun room => Value.object <$> braced (fun members key => do
      colon
      let value ← any room
      pure (insertMember key value members)) []) room

theorem any_eq (room : Nat) : any room = (do anyBrackets room (← next)) := by
  cases room <;> rfl

theorem ignoresBlanks_any (room : Nat) : IgnoresBlanks (any room) := by
  rw [any_eq]
  exact ignoresBlanks_next.bind _

theorem anyBrackets_scalar {found : Found} (h : Found.IsScalar found) :
    ∃ outcome : Option Value, ∀ room rest,
      (anyBrackets room found).run? rest = outcome.map (·, rest) := by
  obtain ⟨hsequence, hmap⟩ := h
  cases found
  case sequence => exact absurd rfl hsequence
  case map => exact absurd rfl hmap
  all_goals exact ⟨some _, fun _ _ => rfl⟩

theorem exists_settles_any {depth : Nat} {text : List Char} (h : IsValue depth text) :
    ∃ outcome, ∀ room, depth ≤ room → Settles (any room) text outcome := by
  induction depth using Nat.strongRecOn generalizing text with
  | ind depth ih =>
      simp only [any_eq]
      refine exists_settles_next h (fun _ => anyBrackets_scalar) ?_ ?_
      · rintro inner pad items rfl hitems
        have hitem := fun i hi => ih inner (Nat.lt_succ_self inner) (hitems i hi)
        choose! f hf using hitem
        refine ⟨(items.mapM f).map .array, fun room hroom => ?_⟩
        obtain ⟨spare, rfl⟩ := Nat.exists_eq_add_of_le' hroom
        refine (settles_bracketed pad fun i hi => ⟨(hitems i hi).begins, ?_⟩).map Value.array
        exact hf i hi (spare + inner) (Nat.le_add_left inner spare)
      · rintro inner pad ms rfl hmembers
        have hmember := fun m hm => ih inner (Nat.lt_succ_self inner) (hmembers m hm)
        choose! f hf using hmember
        refine ⟨(ms.foldlM (stepBy fun members key m => (f m).bind fun value =>
          some (insertMember key value members)) []).map .object, fun room hroom => ?_⟩
        obtain ⟨spare, rfl⟩ := Nat.exists_eq_add_of_le' hroom
        refine (settles_braced pad [] fun m hm members key _ => settles_fromColon ?_).map Value.object
        have hvalue := (hf m hm (spare + inner) (Nat.le_add_left inner spare)).blanks
          (ignoresBlanks_any _) m.lead
        exact hvalue.bind fun _ _ => rfl

theorem local_any : Local any where
  blanks := ignoresBlanks_any
  settles _ hvalue := exists_settles_any hvalue

end Composite

section Null

variable {α : Type}

-- A decoder that has no use for null refuses it.
theorem refuses_null {k : Nat → Found → Reader α}
    (h : ∀ room rest, (k room .null).run? rest = none) :
    ¬∃ a, decode (fun room => do k room (← next)) "null" = .ok a := by
  have hnext := next_null []
  rw [List.append_nil] at hnext
  have hnone : (decode (fun room => do k room (← next)) "null").toOption = none := by
    rw [decode, toOption_parse, run?_bind, run?_bind_of_ok _ hnext, h]
    rfl
  simp [← toOption_eq_some_iff, hnone]

theorem text_refuses_null : ¬∃ a, decode text "null" = .ok a := refuses_null fun _ _ => rfl

theorem word_refuses_null : ¬∃ a, decode word "null" = .ok a := refuses_null fun _ _ => rfl

theorem list_refuses_null (item : Decoder α) : ¬∃ a, decode (list item) "null" = .ok a :=
  refuses_null fun _ _ => rfl

theorem optional_takes_null (value : Decoder α) : ∃ a, decode (optional value) "null" = .ok a :=
  ⟨none, decode_of_spells (optional_null value) (Nat.zero_le _)⟩

end Null

end Decoder

end DashboardScript.Json
