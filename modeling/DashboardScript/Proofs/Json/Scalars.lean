import DashboardScript.Proofs.Json.Integers
import DashboardScript.Proofs.Json.Strings

namespace DashboardScript.Json

-- The text of a value other than null, which its first letter tells.
def IsPresent (text : String) : Prop := text.toList.head? ≠ some 'n'

theorem isPresent_stringText (s : String) : IsPresent (stringText s) := by
  rw [IsPresent, Reader.toList_stringText]
  simp

theorem isPresent_integer (n : Int) : IsPresent (Number.integer n).text := by
  obtain ⟨c, tail, htext, hc⟩ := Number.text_begins n
  rw [IsPresent, htext, List.head?_cons]
  exact fun h => (Reader.not_blank_of_numeral hc).2.2 (Option.some.inj h)

theorem isPresent_boolean (b : Bool) : IsPresent (if b then "true" else "false") := by
  cases b <;> (unfold IsPresent; decide)

namespace Decoder

open Reader

theorem Spells.mono {α : Type} {decoder : Decoder α} {depth deeper : Nat} {text : String} {a : α}
    (h : Spells decoder depth text a) (hle : depth ≤ deeper) : Spells decoder deeper text a :=
  fun room hroom => h room (Nat.le_trans hle hroom)

theorem text_spells (s : String) : Spells text 0 (stringText s) s := by
  refine fun room _ => ⟨⟨'"', _, toList_stringText s, rfl, by decide⟩, fun rest _ => ?_⟩
  have hnext : next ((stringText s).toList ++ rest) = .ok (.string s, rest) := by
    have hread := map_of_ok Found.string (quotedString_stringText s rest)
    rw [toList_stringText, List.cons_append] at hread ⊢
    rw [next_quote, hread]
  rw [text, bind_of_ok _ hnext]
  rfl

theorem flag_spells (b : Bool) : Spells flag 0 (if b then "true" else "false") b := by
  intro room _
  constructor
  case begins => cases b <;> exact ⟨_, _, rfl, by decide, by decide⟩
  case takes =>
    intro rest _
    rw [flag, bind_of_ok _ (next_boolean rest b)]
    rfl

theorem next_integer {n : Int} (hlow : -(Numeral.negativeLimit : Int) ≤ n)
    (hhigh : n ≤ Numeral.wordLimit) {rest : List Char} (hrest : EndsNumber rest) :
    next ((Number.integer n).text.toList ++ rest) = .ok (.number (.integer n), rest) := by
  obtain ⟨c, tail, htext, hc⟩ := Number.text_begins n
  have hread := map_of_ok Found.number (Number.takes_text hlow hhigh rest hrest)
  rw [htext, List.cons_append] at hread ⊢
  rw [next_numeral _ hc, hread]

theorem integer_begins (n : Int) :
    ∃ c tail, (Number.integer n).text.toList = c :: tail ∧ isBlank c = false ∧ c ≠ ']' := by
  obtain ⟨c, tail, htext, hc⟩ := Number.text_begins n
  exact ⟨c, tail, htext, (not_blank_of_numeral hc).1, (not_blank_of_numeral hc).2.1⟩

theorem word_spells (w : UInt32) : Spells word 0 (toString w) w := by
  have htext : toString w = (Number.integer w.toNat).text := rfl
  have hlt : w.toNat < 2 ^ 32 := w.toNat_lt
  have hlow : -(Numeral.negativeLimit : Int) ≤ (w.toNat : Int) := by omega
  have hhigh : (w.toNat : Int) ≤ Numeral.wordLimit := by
    have hlimit : 2 ^ 32 ≤ Numeral.wordLimit := by decide
    omega
  refine fun room _ => ⟨htext ▸ integer_begins w.toNat, fun rest hrest => ?_⟩
  rw [htext, word, bind_of_ok _ (next_integer hlow hhigh hrest)]
  have hword : 0 ≤ (w.toNat : Int) ∧ (w.toNat : Int) ≤ 0xffffffff := by omega
  simp only [hword, and_self, if_true, Int.toNat_natCast, UInt32.ofNat_toNat]
  rfl

theorem number_spells {n : Int} (hlow : -(Numeral.negativeLimit : Int) ≤ n)
    (hhigh : n ≤ Numeral.wordLimit) : Spells number 0 (Number.integer n).text (.integer n) := by
  refine fun room _ => ⟨integer_begins n, fun rest hrest => ?_⟩
  rw [number, bind_of_ok _ (next_integer hlow hhigh hrest)]
  rfl

theorem optional_null {α : Type} (decoder : Decoder α) :
    Spells (optional decoder) 0 "null" none := by
  refine fun room _ => ⟨⟨'n', _, rfl, by decide, by decide⟩, fun rest _ => ?_⟩
  have hpeek : peekToken ("null".toList ++ rest) = .ok (some 'n', "null".toList ++ rest) :=
    peekToken_cons rfl _
  rw [optional, bind_of_ok _ hpeek, if_pos rfl, bind_of_ok _ (next_null rest)]
  rfl

theorem optional_some {α : Type} {decoder : Decoder α} {depth : Nat} {text : String} {a : α}
    (h : Spells decoder depth text a) (hn : IsPresent text) :
    Spells (optional decoder) depth text (some a) := by
  intro room hroom
  obtain ⟨hbegins, htakes⟩ := h room hroom
  refine ⟨hbegins, fun rest hrest => ?_⟩
  obtain ⟨c, tail, htext, hblank, _⟩ := hbegins
  have hread := map_of_ok some (htakes rest hrest)
  have hc : ¬some c = some 'n' := by simpa [IsPresent, htext] using hn
  rw [htext, List.cons_append] at hread ⊢
  rw [optional, bind_of_ok _ (peekToken_cons hblank _), if_neg hc, hread]

-- A whole text with nothing behind the value.
theorem decode_of_spells {α : Type} {decoder : Decoder α} {depth : Nat} {text : String} {a : α}
    (h : Spells decoder depth text a) (hdepth : depth ≤ maxDepth) :
    decode decoder text = .ok a := by
  have hread := (h maxDepth hdepth).takes [] endsNumber_nil
  rw [List.append_nil] at hread
  have hwhole : (do let a ← decoder maxDepth; finish; pure a : Reader α) text.toList =
      .ok (a, []) := (bind_of_ok _ hread).trans rfl
  rw [decode, parse, hwhole]

end Decoder

end DashboardScript.Json
