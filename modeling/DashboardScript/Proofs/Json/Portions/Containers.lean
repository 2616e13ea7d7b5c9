import DashboardScript.Proofs.Json.Locality
import DashboardScript.Proofs.Json.Portions.Numerals
import DashboardScript.Proofs.Json.Portions.Strings

namespace DashboardScript.Json

namespace Reader

variable {α β σ : Type} {ahead : Bool} {stop : Spot}

section Tokens

-- A token outside of strings.
theorem follows_token {c : Char} (h : c ≠ '"') : Follows c false .outside .outside advance := by
  have hadvance := follows_advance .outside c
  rwa [Spot.next, if_neg h] at hadvance

theorem sequential_letters {word : List Char} (h : ∀ c ∈ word, c ≠ '"') :
    Sequential true .outside .outside (letters word) := by
  induction word with
  | nil => exact sequential_pure _ _
  | cons letter word ih =>
      obtain ⟨hletter, hword⟩ := List.forall_mem_cons.mp h
      refine sequential_peek (endsEarly_fail _ _) fun c => ?_
      dsimp only
      split
      case isTrue heq =>
        subst heq
        exact (follows_token hletter).look.bind fun _ => ih hword
      case isFalse => exact follows_of_none fun _ => run?_failPast _ _ _

theorem follows_word {first : Char} {rest : List Char} (h : ∀ c ∈ first :: rest, c ≠ '"')
    {found : Found} {f : Found → Reader α} (hf : Sequential ahead .outside stop (f found)) :
    Follows first ahead .outside stop (word rest found >>= f) := by
  obtain ⟨hfirst, hrest⟩ := List.forall_mem_cons.mp h
  rw [word, bind_assoc]
  refine (follows_token hfirst).look.bind fun _ => ?_
  rw [bind_assoc]
  refine (sequential_letters hrest).bind fun _ => ?_
  rwa [pure_bind]

theorem follows_failNext (c : Char) (cause : Cause) (f : β → Reader α) :
    Follows c ahead .outside stop (failNext cause >>= f) := by
  refine follows_of_none fun tail => ?_
  rw [run?_bind]
  rfl

-- What is done with the next scalar, or at the bracket of an array or an object.
theorem sequential_next {f : Found → Reader α}
    (hscalar : ∀ found, Decoder.Found.IsScalar found → Sequential ahead .outside stop (f found))
    (hlist : Follows '[' ahead .outside stop (f .sequence))
    (hmap : Follows '{' ahead .outside stop (f .map)) :
    Sequential ahead .outside stop (next >>= f) := by
  rw [next, bind_assoc]
  refine sequential_peekToken ((endsEarly_failNext _ _).bind f) fun c _ => ?_
  dsimp only
  split
  · exact follows_word (by simp) (hscalar _ ⟨nofun, nofun⟩)
  · exact follows_word (by simp) (hscalar _ ⟨nofun, nofun⟩)
  · exact follows_word (by simp) (hscalar _ ⟨nofun, nofun⟩)
  · rw [bind_map_left]
    exact follows_quotedString.bind fun s => hscalar _ ⟨nofun, nofun⟩
  · rwa [pure_bind]
  · rwa [pure_bind]
  · split
    · rw [bind_map_left]
      exact (follows_number c).bind fun n => hscalar _ ⟨nofun, nofun⟩
    · exact follows_failNext _ _ _

end Tokens

section Lists

theorem sequential_hasItem {f : Bool → Reader α} (first : Bool)
    (hmore : Sequential ahead .outside stop (f true))
    (hdone : Follows ']' ahead .outside stop (f false)) :
    Sequential ahead .outside stop (hasItem first >>= f) := by
  rw [hasItem, bind_assoc]
  refine sequential_peekToken ((endsEarly_failNext _ _).bind f) fun c _ => ?_
  dsimp only
  split
  case isTrue h =>
    subst h
    rwa [pure_bind]
  case isFalse =>
    split
    · rw [pure_bind]
      exact hmore.follows c
    · split
      case isTrue h =>
        subst h
        rw [bind_assoc]
        refine (follows_token (by decide)).look.bind fun _ => ?_
        rw [bind_assoc]
        refine sequential_peekToken ((endsEarly_failNext _ _).bind f) fun c _ => ?_
        dsimp only
        split
        · exact follows_failNext _ _ _
        · rw [pure_bind]
          exact hmore.follows c
      case isFalse =>
        exact follows_failNext _ _ _

theorem sequential_closeList : Sequential false .outside .outside closeList := by
  refine sequential_peekToken (endsEarly_failNext _ _) fun c _ => ?_
  dsimp only
  split
  case isTrue h =>
    subst h
    exact follows_token (by decide)
  case isFalse =>
    split
    · refine follows_of_none fun tail => ?_
      refine run?_bind_none (fun _ _ => run?_bind_none (fun c text => ?_) _ _) _ _
      split <;> rfl
    · exact follows_of_none fun tail => rfl

theorem sequential_items {item : Reader α} (hitem : Sequential true .outside .outside item)
    (most : Nat) (first : Bool) (taken : List α) :
    Sequential true .outside .outside (items item most first taken) := by
  induction most generalizing first taken with
  | zero => exact sequential_of_none fun _ => rfl
  | succ most ih =>
      refine sequential_hasItem first ?_ ((sequential_pure _ _).follows _)
      exact hitem.bind fun a => ih false (a :: taken)

theorem within_items (item : Reader α) {n m : Nat} (h : n ≤ m) (first : Bool) (taken : List α) :
    Within (items item n first taken) (items item m first taken) := by
  induction n generalizing m first taken with
  | zero => exact within_of_ends (fun _ => endsEarly_failNext _ _) _
  | succ n ih =>
      obtain ⟨m, rfl⟩ := Nat.exists_eq_add_of_lt h
      refine within_bind _ fun more => ?_
      cases more with
      | false => exact .refl _
      | true => exact within_bind item fun a => ih (by omega) false (a :: taken)

theorem follows_bracketed {item : Reader α} (hitem : Sequential true .outside .outside item) :
    Follows '[' false .outside .outside (bracketed item) := by
  refine (follows_token (by decide)).look.bind fun _ => ?_
  refine sequential_get (f := fun n => do
    let taken ← items item (n + 1) true []
    closeList
    pure taken.reverse) (fun n => ?_) fun h => (within_items item (by omega) true []).bind _
  refine (sequential_items hitem (n + 1) true []).bind fun taken => ?_
  exact sequential_closeList.check (checks_pure fun _ => taken.reverse)

end Lists

section Objects

theorem sequential_hasMember {f : Bool → Reader α} (first : Bool)
    (hmore : Follows '"' ahead .outside stop (f true))
    (hdone : Follows '\x7d' ahead .outside stop (f false)) :
    Sequential ahead .outside stop (hasMember first >>= f) := by
  rw [hasMember, bind_assoc]
  refine sequential_peekToken ((endsEarly_failNext _ _).bind f) fun c _ => ?_
  dsimp only
  split
  case isTrue h =>
    subst h
    rwa [pure_bind]
  case isFalse =>
    split
    · split
      case isTrue h =>
        subst h
        rwa [pure_bind]
      case isFalse => exact follows_failNext _ _ _
    · split
      case isTrue h =>
        subst h
        rw [bind_assoc]
        refine (follows_token (by decide)).look.bind fun _ => ?_
        rw [bind_assoc]
        refine sequential_peekToken ((endsEarly_failNext _ _).bind f) fun c _ => ?_
        dsimp only
        split
        case isTrue h =>
          subst h
          rwa [pure_bind]
        case isFalse => split <;> exact follows_failNext _ _ _
      case isFalse => exact follows_failNext _ _ _

theorem sequential_colon : Sequential false .outside .outside colon := by
  refine sequential_peekToken (endsEarly_failNext _ _) fun c _ => ?_
  dsimp only
  split
  case isTrue h =>
    subst h
    exact follows_token (by decide)
  case isFalse => exact follows_of_none fun tail => rfl

theorem sequential_closeObject : Sequential false .outside .outside closeObject := by
  refine sequential_peekToken (endsEarly_failNext _ _) fun c _ => ?_
  dsimp only
  split
  case isTrue h =>
    subst h
    exact follows_token (by decide)
  case isFalse => split <;> exact follows_of_none fun tail => rfl

theorem sequential_members {member : σ → String → Reader σ}
    (hmember : ∀ state key, Sequential true .outside .outside (member state key)) (most : Nat)
    (first : Bool) (state : σ) :
    Sequential true .outside .outside (members member most first state) := by
  induction most generalizing first state with
  | zero => exact sequential_of_none fun _ => rfl
  | succ most ih =>
      refine sequential_hasMember first ?_ ((sequential_pure _ _).follows _)
      exact follows_quotedString.bind fun key => (hmember state key).bind fun next => ih false next

theorem within_members (member : σ → String → Reader σ) {n m : Nat} (h : n ≤ m) (first : Bool)
    (state : σ) : Within (members member n first state) (members member m first state) := by
  induction n generalizing m first state with
  | zero => exact within_of_ends (fun _ => endsEarly_failNext _ _) _
  | succ n ih =>
      obtain ⟨m, rfl⟩ := Nat.exists_eq_add_of_lt h
      refine within_bind _ fun more => ?_
      cases more with
      | false => exact .refl _
      | true =>
          refine within_bind quotedString fun key => within_bind (member state key) fun state => ?_
          exact ih (by omega) false state

theorem follows_braced {member : σ → String → Reader σ}
    (hmember : ∀ state key, Sequential true .outside .outside (member state key)) (start : σ) :
    Follows '\x7b' false .outside .outside (braced member start) := by
  refine (follows_token (by decide)).look.bind fun _ => ?_
  refine sequential_get (f := fun n => do
    let state ← members member (n + 1) true start
    closeObject
    pure state) (fun n => ?_) fun h => (within_members member (by omega) true start).bind _
  refine (sequential_members hmember (n + 1) true start).bind fun state => ?_
  exact sequential_closeObject.check (checks_pure fun _ => state)

end Objects

section Skip

theorem sequential_skipKey (bracket : Bracket) :
    Sequential true .outside .outside (skipKey bracket) := by
  cases bracket with
  | list => exact sequential_pure _ _
  | object =>
      refine sequential_peekToken (endsEarly_failNext _ _) fun c _ => ?_
      dsimp only
      split
      case isTrue h =>
        subst h
        exact follows_skipString.bind fun _ => sequential_colon.look
      case isFalse => exact follows_of_none fun tail => rfl

theorem closing_ne_quote (bracket : Bracket) : bracket.closing ≠ '"' := by
  cases bracket <;> decide

theorem sequential_skipClosings (around : List Bracket) :
    Sequential true .outside .outside (skipClosings around) := by
  induction around with
  | nil => exact sequential_pure _ _
  | cons bracket outer ih =>
      refine sequential_peekToken (endsEarly_failNext _ _) fun c _ => ?_
      dsimp only
      split
      case isTrue h =>
        subst h
        refine (follows_token (by decide)).look.bind fun _ => ?_
        exact (sequential_skipKey bracket).bind fun _ => sequential_pure _ _
      case isFalse =>
        split
        case isTrue h =>
          subst h
          exact (follows_token (closing_ne_quote bracket)).look.bind fun _ => ih
        case isFalse => exact follows_of_none fun tail => rfl

theorem follows_skipOpening {c : Char} (hc : c ≠ '"') (bracket : Bracket) (outer : List Bracket) :
    Follows c true .outside .outside (skipOpening bracket outer) := by
  refine (follows_token hc).look.bind fun _ => ?_
  refine sequential_peekToken (endsEarly_failNext _ _) fun c _ => ?_
  dsimp only
  split
  case isTrue h =>
    subst h
    refine (follows_token (closing_ne_quote bracket)).look.bind fun _ => ?_
    exact sequential_skipClosings outer
  case isFalse =>
    have hkey := (sequential_skipKey bracket).bind (f := fun _ => pure (some (bracket :: outer)))
      fun _ => sequential_pure _ _
    exact hkey.follows c

theorem sequential_skipStep (around : List Bracket) :
    Sequential true .outside .outside (skipStep around) := by
  have hword : ∀ (c : Char) (word : List Char), (∀ d ∈ c :: word, d ≠ '"') →
      Follows c true .outside .outside (do
        advance
        letters word
        skipClosings around) := fun c word h => by
    obtain ⟨hc, hrest⟩ := List.forall_mem_cons.mp h
    refine (follows_token hc).look.bind fun _ => (sequential_letters hrest).bind fun _ => ?_
    exact sequential_skipClosings around
  refine sequential_peekToken (endsEarly_failNext _ _) fun c _ => ?_
  dsimp only
  split
  · exact follows_skipOpening (by decide) _ _
  · exact follows_skipOpening (by decide) _ _
  · exact hword 'n' _ (by simp)
  · exact hword 't' _ (by simp)
  · exact hword 'f' _ (by simp)
  · exact follows_skipString.bind fun _ => sequential_skipClosings around
  · split
    · exact (follows_numeral c _).bind fun _ => sequential_skipClosings around
    · exact follows_of_none fun tail => rfl

theorem sequential_skipRounds (most : Nat) (around : List Bracket) :
    Sequential true .outside .outside (skipRounds most around) := by
  induction most generalizing around with
  | zero => exact sequential_of_none fun _ => rfl
  | succ most ih =>
      refine (sequential_skipStep around).bind fun around => ?_
      cases around with
      | none => exact sequential_pure _ _
      | some around => exact ih around

theorem within_skipRounds {n m : Nat} (h : n ≤ m) (around : List Bracket) :
    Within (skipRounds n around) (skipRounds m around) := by
  induction n generalizing m around with
  | zero => exact within_of_ends (fun _ => endsEarly_failNext _ _) _
  | succ n ih =>
      obtain ⟨m, rfl⟩ := Nat.exists_eq_add_of_lt h
      refine within_bind _ fun around => ?_
      cases around with
      | none => exact .refl _
      | some around => exact ih (by omega) around

theorem sequential_skipValue : Sequential true .outside .outside skipValue :=
  sequential_get (fun n => sequential_skipRounds (n + 1) [])
    fun h => within_skipRounds (by omega) []

end Skip

end Reader

end DashboardScript.Json
