import DashboardScript.Proofs.Json.Portions
import Mathlib.Data.List.TakeWhile

namespace DashboardScript.Json

namespace Reader

variable {α β : Type}

section Peek

variable {ahead : Bool} {start stop : Spot} {f : Option Char → Reader α}

theorem peek_bind_of_head {text : List Char} {c : Char} (h : text.head? = some c) :
    (peek >>= f) text = f (some c) text := by
  rw [← h]
  rfl

-- The first character of what is taken, or of what comes behind it where nothing is taken.
theorem Portion.head?_append {reader : Reader α} {chunk rest other tail : List Char} {a : α}
    {c : Char} (h : Portion ahead start stop reader chunk a rest) (htext : c :: tail = chunk ++ rest)
    (hother : ahead = true → other.head? = rest.head?) : (chunk ++ other).head? = some c := by
  cases chunk with
  | nil =>
      have hahead : ahead = true := by simpa using mt h.taken (not_not_intro rfl)
      rw [List.nil_append, hother hahead, ← List.nil_append rest, ← htext]
      rfl
  | cons d chunk => rw [List.cons_append, List.head?_cons, (List.cons.inj htext).1]

theorem head?_front {chunk rest tail front back : List Char} {c : Char}
    (htext : c :: tail = chunk ++ rest) (hne : front ≠ []) (hchunk : chunk = front ++ back) :
    front.head? = some c := by
  obtain ⟨d, more, rfl⟩ := List.exists_cons_of_ne_nil hne
  rw [hchunk] at htext
  rw [List.head?_cons, (List.cons.inj htext).1]

-- A reader that looks at the next character goes on as one for texts with that character.
theorem sequential_peek (hend : EndsEarly (f none) [])
    (h : ∀ c, Follows c ahead start stop (f (some c))) :
    Sequential ahead start stop (peek >>= f) := by
  intro text a rest hrun
  cases text with
  | nil => exact absurd hrun hend.not_ok
  | cons c tail =>
      obtain ⟨chunk, htext, hportion⟩ := h c tail a rest hrun
      refine ⟨chunk, htext, ⟨hportion.spot, hportion.taken, fun other hother => ?_, ?_⟩,
        .inr (.inl hend)⟩
      · have heq := peek_bind_of_head (f := f) (hportion.head?_append htext hother)
        rw [heq]
        exact (hportion.again other hother).imp_right (And.imp_right (endsEarly_of_eq heq))
      · intro front back hne hchunk
        have heq := peek_bind_of_head (f := f) (head?_front htext hne hchunk)
        rcases hportion.cut front back hne hchunk with ⟨hback, hfront⟩ | hends | hnumber
        · exact .inl ⟨hback, heq.trans hfront⟩
        · exact .inr (.inl (endsEarly_of_eq heq hends))
        · exact .inr (.inr hnumber)

theorem peekToken_bind_append {pad text : List Char} (hpad : ∀ c ∈ pad, isBlank c) {c : Char}
    (hhead : text.head? = some c) (hblank : isBlank c = false) :
    (peekToken >>= f) (pad ++ text) = f (some c) text := by
  obtain ⟨tail, rfl⟩ := List.head?_eq_some_iff.mp hhead
  have hskip : blank (pad ++ c :: tail) = .ok ((), c :: tail) := by
    rw [blank, List.dropWhile_append_of_pos hpad, List.dropWhile_cons_of_neg (by simp [hblank])]
  rw [peekToken, bind_assoc, bind_of_ok _ hskip]
  rfl

theorem peekToken_bind_blank {pad : List Char} (hpad : ∀ c ∈ pad, isBlank c) :
    (peekToken >>= f) pad = f none [] := by
  have hskip : blank pad = .ok ((), []) := by
    rw [blank, List.dropWhile_eq_nil_iff.mpr hpad]
  rw [peekToken, bind_assoc, bind_of_ok _ hskip]
  rfl

-- A text has only blanks, or there is a first character that is none.
theorem blanks_or_token (text : List Char) :
    (∀ c ∈ text, isBlank c) ∨ ∃ pad c tail, text = pad ++ c :: tail ∧ (∀ c ∈ pad, isBlank c) ∧
      isBlank c = false := by
  have hsplit := List.takeWhile_append_dropWhile (p := isBlank) (l := text)
  cases hcore : text.dropWhile isBlank with
  | nil => exact .inl (List.dropWhile_eq_nil_iff.mp hcore)
  | cons c tail =>
      have hblank := List.head?_dropWhile_not isBlank text
      rw [hcore] at hsplit hblank
      exact .inr ⟨_, c, tail, hsplit.symm, fun _ => List.mem_takeWhile_imp, by simpa using hblank⟩

theorem takeWhile_blanks {pad tail : List Char} {c : Char} (hpad : ∀ c ∈ pad, isBlank c)
    (hblank : isBlank c = false) : (pad ++ c :: tail).takeWhile isBlank = pad := by
  rw [List.takeWhile_append_of_pos hpad, List.takeWhile_cons_of_neg (by simp [hblank]),
    List.append_nil]

theorem after_blanks {pad : List Char} (hpad : ∀ c ∈ pad, isBlank c) :
    Spot.outside.after pad = .outside := by
  refine Spot.after_outside fun c hc => ?_
  rintro rfl
  exact absurd (hpad '"' hc) (by decide)

-- Blanks in front belong to the chunk.
theorem Portion.behind_blanks {pad chunk rest tail : List Char} (hpad : ∀ c ∈ pad, isBlank c)
    {a : α} {c : Char} (hblank : isBlank c = false) (htext : c :: tail = chunk ++ rest)
    (h : Portion ahead .outside stop (f (some c)) chunk a rest) (hend : EndsEarly (f none) []) :
    Portion ahead .outside stop (peekToken >>= f) (pad ++ chunk) a rest := by
  constructor
  case spot => rw [Spot.after_append, after_blanks hpad, h.spot]
  case taken => exact fun hahead => List.append_ne_nil_of_right_ne_nil _ (h.taken hahead)
  case again =>
    intro other hother
    have heq := peekToken_bind_append (f := f) hpad (h.head?_append htext hother) hblank
    rw [List.append_assoc, heq]
    exact (h.again other hother).imp_right (And.imp_right (endsEarly_of_eq heq))
  case cut =>
    intro front back hne hchunk
    have hpadded : ∀ cs, (∀ c ∈ cs, isBlank c) → EndsEarly (peekToken >>= f) cs :=
      fun cs hcs => endsEarly_of_eq (peekToken_bind_blank hcs) hend
    rcases List.append_eq_append_iff.mp hchunk with ⟨more, rfl, hmore⟩ | ⟨more, rfl, -⟩
    · cases more with
      | nil => exact .inr (.inl (hpadded _ (by simpa using hpad)))
      | cons d more =>
          have hfront := head?_front htext (List.cons_ne_nil d more) hmore
          have heq := peekToken_bind_append (f := f) hpad hfront hblank
          rcases h.cut _ back (List.cons_ne_nil d more) hmore with ⟨hback, hrun⟩ | hends | hnumber
          · exact .inl ⟨hback, heq.trans hrun⟩
          · exact .inr (.inl (endsEarly_of_eq heq hends))
          · exact .inr (.inr (hnumber.prepend (after_blanks hpad)))
    · exact .inr (.inl (hpadded front fun c hc => hpad c (List.mem_append_left more hc)))

theorem sequential_peekToken (hend : EndsEarly (f none) [])
    (h : ∀ c, isBlank c = false → Follows c ahead .outside stop (f (some c))) :
    Sequential ahead .outside stop (peekToken >>= f) := by
  intro text a rest hrun
  rcases blanks_or_token text with hpad | ⟨pad, c, tail, rfl, hpad, hblank⟩
  · rw [peekToken_bind_blank hpad] at hrun
    exact absurd hrun hend.not_ok
  · rw [peekToken_bind_append hpad rfl hblank] at hrun
    obtain ⟨chunk, htext, hportion⟩ := h c hblank tail a rest hrun
    refine ⟨pad ++ chunk, ?_, hportion.behind_blanks hpad hblank htext hend, ?_⟩
    · rw [htext, List.append_assoc]
    · exact .inr (.inl (endsEarly_of_eq (peekToken_bind_blank (List.forall_mem_nil _)) hend))

end Peek

section Rounds

variable {ahead : Bool} {start stop : Spot}

-- One reader does what the other one does, as long as it finds enough text.
def Within (less more : Reader α) : Prop := ∀ text, less text = more text ∨ EndsEarly less text

theorem Within.refl (reader : Reader α) : Within reader reader := fun _ => .inl rfl

theorem within_of_ends {less : Reader α} (h : ∀ text, EndsEarly less text) (more : Reader α) :
    Within less more := fun text => .inr (h text)

theorem within_bind (reader : Reader α) {less more : α → Reader β}
    (h : ∀ a, Within (less a) (more a)) : Within (reader >>= less) (reader >>= more) := by
  intro text
  cases hrun : reader text with
  | error failure =>
      left
      simp only [bind, StateT.bind, hrun, Except.bind]
  | ok taken =>
      obtain ⟨a, rest⟩ := taken
      rw [bind_of_ok more hrun]
      refine (h a rest).imp (fun hless => ?_) fun hends => ?_
      · rw [bind_of_ok less hrun, hless]
      · exact endsEarly_of_eq (bind_of_ok less hrun) hends

theorem Within.bind {less more : Reader α} (h : Within less more) (f : α → Reader β) :
    Within (less >>= f) (more >>= f) := by
  intro text
  refine (h text).imp (fun hless => ?_) fun hends => hends.bind f
  simp only [Bind.bind, StateT.bind, hless]

theorem Within.of_ok {less more : Reader α} (h : Within less more) {text rest : List Char} {a : α}
    (hrun : less text = .ok (a, rest)) : more text = .ok (a, rest) := by
  rcases h text with heq | hends
  · rw [← heq, hrun]
  · exact absurd hrun hends.not_ok

theorem Within.endsEarly {less more : Reader α} (h : Within less more) {text : List Char}
    (hends : EndsEarly more text) : EndsEarly less text :=
  (h text).elim (fun heq => endsEarly_of_eq heq hends) id

theorem Within.cut {less more : Reader α} (h : Within less more) {a : α} {front back : List Char}
    (hcut : Cut start more a front back) : Cut start less a front back := by
  rcases hcut with ⟨rfl, hrun⟩ | hends | hnumber
  · refine (h front).imp (fun heq => ⟨rfl, ?_⟩) .inl
    rw [heq, hrun]
  · exact .inr (.inl (h.endsEarly hends))
  · exact .inr (.inr hnumber)

-- A loop with as many rounds as there are characters. More rounds than it needs change nothing, and
-- with fewer the text ends too early.
theorem sequential_get {f : Nat → Reader α} (h : ∀ n, Sequential ahead start stop (f n))
    (hwithin : ∀ {n m}, n ≤ m → Within (f n) (f m)) :
    Sequential ahead start stop (do let rest ← get; f rest.length) := by
  intro text a rest hrun
  have hloop : f text.length text = .ok (a, rest) := hrun
  obtain ⟨chunk, rfl, hportion, hstart⟩ := h _ _ a rest hloop
  refine ⟨chunk, rfl, ⟨hportion.spot, hportion.taken, fun other hother => ?_, ?_⟩, ?_⟩
  · change f (chunk ++ other).length (chunk ++ other) = _ ∨
      _ ∧ EndsEarly (f (chunk ++ other).length) (chunk ++ other)
    by_cases hlength : rest.length ≤ other.length
    · have hle : (chunk ++ rest).length ≤ (chunk ++ other).length := by
        simp only [List.length_append]
        omega
      rcases hportion.again other hother with hagain | ⟨hshort, -⟩
      · exact .inl ((hwithin hle).of_ok hagain)
      · omega
    · have hle : (chunk ++ other).length ≤ (chunk ++ rest).length := by
        simp only [List.length_append]
        omega
      have hshort : other.length < rest.length := by omega
      rcases hportion.again other hother with hagain | ⟨-, hends⟩
      · refine (hwithin hle (chunk ++ other)).imp (fun heq => ?_) fun hends => ⟨hshort, hends⟩
        rw [heq, hagain]
      · exact .inr ⟨hshort, (hwithin hle).endsEarly hends⟩
  · intro front back hne hchunk
    have hle : front.length ≤ (chunk ++ rest).length := by
      simp only [hchunk, List.length_append]
      omega
    exact (hwithin hle).cut (hportion.cut front back hne hchunk)
  · exact (hwithin (Nat.zero_le _)).cut hstart

end Rounds

end Reader

end DashboardScript.Json
