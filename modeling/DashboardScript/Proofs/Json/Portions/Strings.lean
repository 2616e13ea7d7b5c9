import DashboardScript.Json.Reader.Skip
import DashboardScript.Proofs.Json.Portions.Loops

namespace DashboardScript.Json

namespace Reader

open Text (utf8Length)

section Escapes

theorem toNat_of_hexDigit? {c : Char} (h : (Text.hexDigit? c).isSome) :
    48 ≤ c.toNat ∧ c.toNat ≤ 57 ∨ 97 ≤ c.toNat ∧ c.toNat ≤ 102 ∨ 65 ≤ c.toNat ∧ c.toNat ≤ 70 := by
  simp only [Text.hexDigit?, Bool.and_eq_true, decide_eq_true_eq] at h
  split at h
  · exact .inl ‹_›
  · split at h
    · exact .inr (.inl ‹_›)
    · split at h
      · exact .inr (.inr ‹_›)
      · cases h

theorem plain_of_hexDigit? {c : Char} (h : (Text.hexDigit? c).isSome) :
    c.utf8Size = 1 ∧ c ≠ '"' ∧ c ≠ '\\' := by
  have hrange := toNat_of_hexDigit? h
  refine ⟨?_, ?_, ?_⟩
  · rw [Char.utf8Size_eq_one_iff]
    change c.toNat ≤ 127
    omega
  · rintro rfl
    simp at hrange
  · rintro rfl
    simp at hrange

theorem plain_of_hexValue? {a b c d : Char} {code : Nat} (h : hexValue? a b c d = some code) :
    ∀ digit ∈ [a, b, c, d], digit.utf8Size = 1 ∧ digit ≠ '"' ∧ digit ≠ '\\' := by
  simp only [hexValue?, Option.bind_eq_bind, Option.bind_eq_some_iff] at h
  obtain ⟨_, ha, _, hb, _, hc, _, hd, -⟩ := h
  have hsome : ∀ digit ∈ [a, b, c, d], (Text.hexDigit? digit).isSome := by simp [ha, hb, hc, hd]
  exact fun digit hdigit => plain_of_hexDigit? (hsome digit hdigit)

theorem after_inside {text : List Char} (h : ∀ c ∈ text, c ≠ '"' ∧ c ≠ '\\') :
    Spot.inside.after text = .inside := by
  induction text with
  | nil => rfl
  | cons c text ih =>
      obtain ⟨⟨hquote, hslash⟩, htext⟩ := List.forall_mem_cons.mp h
      have hstep : Spot.inside.next c = .inside := by simp [Spot.next, hquote, hslash]
      rw [Spot.after, List.foldl_cons, hstep]
      exact ih htext

theorem utf8Length_of_size {text : List Char} (h : ∀ c ∈ text, c.utf8Size = 1) :
    utf8Length text = text.length := by
  induction text with
  | nil => rfl
  | cons c text ih =>
      obtain ⟨hc, htext⟩ := List.forall_mem_cons.mp h
      change c.utf8Size + utf8Length text = _
      rw [hc, ih htext, List.length_cons, Nat.add_comm]

-- Fewer than four digits are the beginning of a code.
theorem endsEarly_hexCode {front : List Char} (hlength : front.length < 4)
    (hsize : ∀ c ∈ front, c.utf8Size = 1) : EndsEarly hexCode front := by
  have hbytes : utf8Length front < 4 := by rwa [utf8Length_of_size hsize]
  have hrun : hexCode front = failPast 4 (.ended .string) front := by
    rcases front with _ | ⟨a, _ | ⟨b, _ | ⟨c, _ | ⟨d, front⟩⟩⟩⟩
    case cons.cons.cons.cons => simp only [List.length_cons] at hlength; omega
    all_goals simp only [hexCode, if_pos hbytes]
  exact ⟨_, .string, hrun, rfl⟩

theorem exists_of_hexCode_ok {text rest : List Char} {code : Nat}
    (h : hexCode text = .ok (code, rest)) :
    ∃ a b c d, text = [a, b, c, d] ++ rest ∧ hexValue? a b c d = some code := by
  rcases text with _ | ⟨a, _ | ⟨b, _ | ⟨c, _ | ⟨d, text⟩⟩⟩⟩
  case cons.cons.cons.cons =>
    cases hvalue : hexValue? a b c d with
    | none => simp [hexCode, hvalue, failPast] at h
    | some value =>
        simp only [hexCode, hvalue, Except.ok.injEq, Prod.mk.injEq] at h
        exact ⟨a, b, c, d, by rw [h.2]; rfl, by rw [hvalue, h.1]⟩
  all_goals
    simp only [hexCode, failPast] at h
    split at h <;> cases h

theorem sequential_hexCode : Sequential true .inside .inside hexCode := by
  intro text code rest hrun
  obtain ⟨a, b, c, d, rfl, hvalue⟩ := exists_of_hexCode_ok hrun
  have hplain := plain_of_hexValue? hvalue
  have hagain : ∀ other, hexCode ([a, b, c, d] ++ other) = .ok (code, other) := fun other => by
    simp only [List.cons_append, List.nil_append, hexCode, hvalue]
  refine ⟨[a, b, c, d], rfl, ⟨after_inside fun c hc => (hplain c hc).2, nofun, ?_, ?_⟩, ?_⟩
  · exact fun other _ => .inl (hagain other)
  · intro front back hne hchunk
    cases back with
    | nil =>
        rw [List.append_nil] at hchunk
        exact .inl ⟨rfl, hchunk ▸ hagain []⟩
    | cons e back =>
        have hlength := congrArg List.length hchunk
        simp only [List.length_append, List.length_cons, List.length_nil] at hlength
        refine .inr (.inl (endsEarly_hexCode (by omega) fun c hc => ?_))
        exact (hplain c (hchunk ▸ List.mem_append_left _ hc)).1
  · exact .inr (.inl (endsEarly_hexCode (Nat.zero_lt_succ _) (List.forall_mem_nil _)))

theorem sequential_pairMark (start : Spot) (mark : Char) :
    Sequential true start (start.next mark) (pairMark mark) := by
  refine sequential_peek (endsEarly_fail _ _) fun c => ?_
  dsimp only
  split
  case isTrue h =>
    subst h
    exact (follows_advance start c).look
  case isFalse => exact follows_of_none fun _ => run?_failPast _ _ _

theorem sequential_unicode : Sequential true .inside .inside unicode := by
  refine sequential_hexCode.bind fun code => ?_
  split
  · exact sequential_of_none fun _ => run?_fail _ _
  · split
    · refine (sequential_pairMark .inside '\\').bind fun _ => ?_
      refine (sequential_pairMark .escaped 'u').bind fun _ => ?_
      refine sequential_hexCode.bind fun trailing => ?_
      split
      · exact sequential_pure _ _
      · exact sequential_of_none fun _ => run?_fail _ _
    · exact sequential_pure _ _

theorem sequential_escape : Sequential true .escaped .inside escape := by
  refine sequential_peek (endsEarly_fail _ _) fun c => ?_
  dsimp only
  split
  · exact (follows_advance .escaped c).look.bind fun _ => sequential_pure _ _
  · split
    · exact (follows_advance .escaped c).look.bind fun _ => sequential_unicode
    · exact follows_of_none fun _ => run?_failPast _ _ _

end Escapes

section Characters

theorem next_inside {c : Char} (hquote : c ≠ '"') (hslash : c ≠ '\\') :
    Spot.inside.next c = .inside := by simp [Spot.next, hquote, hslash]

theorem sequential_characters (most : Nat) (taken : List Char) :
    Sequential true .inside .outside (characters most taken) := by
  induction most generalizing taken with
  | zero => exact sequential_of_none fun _ => run?_fail _ _
  | succ most ih =>
      refine sequential_peek (endsEarly_fail _ _) fun c => ?_
      dsimp only
      by_cases hquote : c = '"'
      · subst hquote
        exact (follows_advance .inside '"').look.bind fun _ => sequential_pure _ _
      · rw [if_neg hquote]
        by_cases hslash : c = '\\'
        · subst hslash
          refine (follows_advance .inside '\\').look.bind fun _ => ?_
          exact sequential_escape.bind fun plain => ih _
        · rw [if_neg hslash]
          split
          · exact follows_of_none fun _ => run?_failPast _ _ _
          · have hplain := (follows_advance .inside c).look
            rw [next_inside hquote hslash] at hplain
            exact hplain.bind fun _ => ih _

theorem within_characters {n m : Nat} (h : n ≤ m) (taken : List Char) :
    Within (characters n taken) (characters m taken) := by
  induction n generalizing m taken with
  | zero => exact within_of_ends (fun _ => endsEarly_fail _ _) _
  | succ n ih =>
      obtain ⟨m, rfl⟩ := Nat.exists_eq_add_of_lt h
      refine within_bind peek fun c => ?_
      cases c with
      | none => exact .refl _
      | some c =>
          dsimp only
          split
          · exact .refl _
          · split
            · exact within_bind _ fun _ => within_bind _ fun plain => ih (by omega) _
            · split
              · exact .refl _
              · exact within_bind _ fun _ => ih (by omega) _

theorem follows_quotedString : Follows '"' true .outside .outside quotedString := by
  refine (follows_advance .outside '"').look.bind fun _ => ?_
  refine sequential_get (f := fun n => do
    let taken ← characters n []
    pure (String.ofList taken.reverse)) (fun n => ?_) fun h => (within_characters h []).bind _
  exact (sequential_characters n []).bind fun _ => sequential_pure _ _

end Characters

section Skip

theorem sequential_skipCharacters (most : Nat) :
    Sequential true .inside .outside (skipCharacters most) := by
  induction most with
  | zero => exact sequential_of_none fun _ => run?_fail _ _
  | succ most ih =>
      refine sequential_peek (endsEarly_fail _ _) fun c => ?_
      dsimp only
      by_cases hquote : c = '"'
      · subst hquote
        exact (follows_advance .inside '"').look
      · rw [if_neg hquote]
        by_cases hslash : c = '\\'
        · subst hslash
          refine (follows_advance .inside '\\').look.bind fun _ => ?_
          refine sequential_peek ((endsEarly_fail _ _).bind _) fun mark => ?_
          dsimp only
          split
          · exact (follows_advance .escaped mark).look.bind fun _ => ih
          · split
            · refine (follows_advance .escaped mark).look.bind fun _ => ?_
              exact sequential_hexCode.bind fun _ => ih
            · refine follows_of_none fun _ => ?_
              rw [run?_bind, run?_failPast]
              rfl
        · rw [if_neg hslash]
          split
          · exact follows_of_none fun _ => run?_fail _ _
          · have hplain := (follows_advance .inside c).look
            rw [next_inside hquote hslash] at hplain
            exact hplain.bind fun _ => ih

theorem within_skipCharacters {n m : Nat} (h : n ≤ m) :
    Within (skipCharacters n) (skipCharacters m) := by
  induction n generalizing m with
  | zero => exact within_of_ends (fun _ => endsEarly_fail _ _) _
  | succ n ih =>
      obtain ⟨m, rfl⟩ := Nat.exists_eq_add_of_lt h
      refine within_bind peek fun c => ?_
      cases c with
      | none => exact .refl _
      | some c =>
          dsimp only
          split
          · exact .refl _
          · split
            · refine within_bind _ fun _ => within_bind _ fun mark => ?_
              cases mark with
              | none => exact within_bind _ fun _ => ih (by omega)
              | some mark =>
                  dsimp only
                  split
                  · exact within_bind _ fun _ => ih (by omega)
                  · split
                    · exact within_bind _ fun _ => within_bind _ fun _ => ih (by omega)
                    · exact within_bind _ fun _ => ih (by omega)
            · split
              · exact .refl _
              · exact within_bind _ fun _ => ih (by omega)

theorem follows_skipString : Follows '"' true .outside .outside skipString := by
  refine (follows_advance .outside '"').look.bind fun _ => ?_
  exact sequential_get sequential_skipCharacters within_skipCharacters

end Skip

end Reader

end DashboardScript.Json
