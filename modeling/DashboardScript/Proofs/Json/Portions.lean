import DashboardScript.Proofs.Json.Settling

namespace DashboardScript.Json

open Grammar

-- Where a text stops: outside of strings, inside of one, or behind a backslash in one.
inductive Spot where
  | outside
  | inside
  | escaped
  deriving DecidableEq

namespace Spot

def next : Spot → Char → Spot
  | .outside, c => if c = '"' then .inside else .outside
  | .inside, c => if c = '"' then .outside else if c = '\\' then .escaped else .inside
  | .escaped, _ => .inside

def after (start : Spot) (text : List Char) : Spot := text.foldl next start

theorem after_append (start : Spot) (first second : List Char) :
    start.after (first ++ second) = (start.after first).after second := List.foldl_append

theorem after_outside {text : List Char} (h : ∀ c ∈ text, c ≠ '"') :
    Spot.outside.after text = .outside := by
  induction text with
  | nil => rfl
  | cons c text ih =>
      obtain ⟨hc, htext⟩ := List.forall_mem_cons.mp h
      have hstep : Spot.outside.next c = .outside := if_neg hc
      rw [after, List.foldl_cons, hstep]
      exact ih htext

end Spot

-- A cut through a number. No string is open where the number begins.
inductive CutsNumber (start : Spot) : (front back : List Char) → Prop where
  | mk (n : Spelling) {before head tail behind : List Char} (hspot : start.after before = .outside)
    (htext : n.text = head ++ tail) (hhead : head ≠ []) (htail : tail ≠ []) :
    CutsNumber start (before ++ head) (tail ++ behind)

namespace CutsNumber

variable {start stop : Spot} {front back : List Char}

theorem front_ne_nil (h : CutsNumber start front back) : front ≠ [] := by
  cases h with
  | mk n _ _ hhead _ => exact List.append_ne_nil_of_right_ne_nil _ hhead

theorem back_ne_nil (h : CutsNumber start front back) : back ≠ [] := by
  cases h with
  | mk n _ _ _ htail => exact List.append_ne_nil_of_left_ne_nil htail _

theorem prepend (h : CutsNumber stop front back) {chunk : List Char}
    (hchunk : start.after chunk = stop) : CutsNumber start (chunk ++ front) back := by
  cases h with
  | @mk n before _ _ _ hspot htext hhead htail =>
      rw [← List.append_assoc]
      refine .mk n ?_ htext hhead htail
      rw [Spot.after_append, hchunk, hspot]

theorem extend (h : CutsNumber start front back) (more : List Char) :
    CutsNumber start front (back ++ more) := by
  cases h with
  | mk n hspot htext hhead htail =>
      rw [List.append_assoc]
      exact .mk n hspot htext hhead htail

end CutsNumber

namespace Reader

variable {α β : Type}

-- The reader finds that the text ends too early.
def EndsEarly (reader : Reader α) (text : List Char) : Prop :=
  ∃ f inside, reader text = .error f ∧ f.cause = .ended inside

theorem endsEarly_fail (inside : Enclosure) (text : List Char) :
    EndsEarly (fail (.ended inside) : Reader α) text := ⟨_, inside, rfl, rfl⟩

theorem endsEarly_failNext (inside : Enclosure) (text : List Char) :
    EndsEarly (failNext (.ended inside) : Reader α) text := ⟨_, inside, rfl, rfl⟩

theorem EndsEarly.bind {reader : Reader α} {text : List Char} (h : EndsEarly reader text)
    (f : α → Reader β) : EndsEarly (reader >>= f) text := by
  obtain ⟨failure, inside, hrun, hcause⟩ := h
  refine ⟨failure, inside, ?_, hcause⟩
  simp only [Bind.bind, StateT.bind, hrun, Except.bind]

theorem EndsEarly.not_ok {reader : Reader α} {text rest : List Char} {a : α}
    (h : EndsEarly reader text) : reader text ≠ .ok (a, rest) := by
  obtain ⟨failure, inside, hrun, -⟩ := h
  simp [hrun]

theorem endsEarly_of_eq {first : Reader α} {second : Reader α} {text behind : List Char}
    (h : first text = second behind) (hends : EndsEarly second behind) : EndsEarly first text := by
  obtain ⟨failure, inside, hrun, hcause⟩ := hends
  exact ⟨failure, inside, h.trans hrun, hcause⟩

theorem exists_of_bind_ok {reader : Reader α} {f : α → Reader β} {text rest : List Char} {b : β}
    (h : (reader >>= f) text = .ok (b, rest)) :
    ∃ a mid, reader text = .ok (a, mid) ∧ f a mid = .ok (b, rest) := by
  simp only [Bind.bind, StateT.bind, Except.bind] at h
  cases hrun : reader text with
  | error failure => simp [hrun] at h
  | ok taken => exact ⟨taken.1, taken.2, rfl, by simpa [hrun] using h⟩

-- What may become of a reader where the text ends behind `front`, and `back` is cut off from what
-- it takes of the whole text.
def Cut (start : Spot) (reader : Reader α) (a : α) (front back : List Char) : Prop :=
  back = [] ∧ reader front = .ok (a, []) ∨ EndsEarly reader front ∨ CutsNumber start front back

-- The reader takes the chunk and leaves the rest. The chunk and the character behind it decide on
-- that, or with `ahead` false the chunk alone. A shorter rest may leave the reader with too few
-- rounds, which counts as an early end.
structure Portion (ahead : Bool) (start stop : Spot) (reader : Reader α) (chunk : List Char) (a : α)
    (rest : List Char) : Prop where
  spot : start.after chunk = stop
  taken : ahead = false → chunk ≠ []
  again : ∀ other, (ahead = true → other.head? = rest.head?) →
    reader (chunk ++ other) = .ok (a, other) ∨
      other.length < rest.length ∧ EndsEarly reader (chunk ++ other)
  cut : ∀ front back, front ≠ [] → chunk = front ++ back → Cut start reader a front back

-- A reader that goes through any text from left to right.
def Sequential (ahead : Bool) (start stop : Spot) (reader : Reader α) : Prop :=
  ∀ text a rest, reader text = .ok (a, rest) →
    ∃ chunk, text = chunk ++ rest ∧ Portion ahead start stop reader chunk a rest ∧
      Cut start reader a [] chunk

-- Likewise through any text with this first character.
def Follows (first : Char) (ahead : Bool) (start stop : Spot) (reader : Reader α) : Prop :=
  ∀ tail a rest, reader (first :: tail) = .ok (a, rest) →
    ∃ chunk, first :: tail = chunk ++ rest ∧ Portion ahead start stop reader chunk a rest

section Bind

variable {ahead : Bool} {start mid stop : Spot} {reader : Reader α} {f : α → Reader β}

theorem Cut.bind_nil {a : α} {b : β} {first second : List Char} (h : Cut start reader a [] first)
    (hf : Cut mid (f a) b [] second) : Cut start (reader >>= f) b [] (first ++ second) := by
  rcases h with ⟨rfl, hrun⟩ | hends | hnumber
  · rcases hf with ⟨rfl, hf⟩ | hends | hnumber
    · exact .inl ⟨rfl, (bind_of_ok f hrun).trans hf⟩
    · exact .inr (.inl (endsEarly_of_eq (bind_of_ok f hrun) hends))
    · exact absurd rfl hnumber.front_ne_nil
  · exact .inr (.inl (hends.bind f))
  · exact absurd rfl hnumber.front_ne_nil

-- Where the cut is right behind what the first reader takes, the second one has nothing to read.
theorem Portion.cut_between {a : α} {b : β} {first second rest : List Char}
    (h : Portion true start mid reader first a rest) (hf : Cut mid (f a) b [] second)
    (hne : first ≠ []) : Cut start (reader >>= f) b first second := by
  rcases h.cut first [] hne (List.append_nil first).symm with ⟨-, hrun⟩ | hends | hnumber
  · rcases hf with ⟨rfl, hf⟩ | hends | hnumber
    · exact .inl ⟨rfl, (bind_of_ok f hrun).trans hf⟩
    · exact .inr (.inl (endsEarly_of_eq (bind_of_ok f hrun) hends))
    · exact absurd rfl hnumber.front_ne_nil
  · exact .inr (.inl (hends.bind f))
  · exact absurd rfl hnumber.back_ne_nil

theorem Portion.cut_first {a : α} {b : β} {first second rest front back : List Char}
    (h : Portion true start mid reader first a rest) (hne : front ≠ []) (hback : back ≠ [])
    (hfirst : first = front ++ back) : Cut start (reader >>= f) b front (back ++ second) := by
  rcases h.cut front back hne hfirst with ⟨rfl, -⟩ | hends | hnumber
  · exact absurd rfl hback
  · exact .inr (.inl (hends.bind f))
  · exact .inr (.inr (hnumber.extend second))

theorem Portion.cut_second {a : α} {b : β} {first second rest front back : List Char}
    (h : Portion true start mid reader first a (second ++ rest))
    (hf : Portion ahead mid stop (f a) second b rest) (hne : front ≠ [])
    (hsecond : second = front ++ back) :
    Cut start (reader >>= f) b (first ++ front) back := by
  obtain ⟨c, tail, rfl⟩ := List.exists_cons_of_ne_nil hne
  have hhead : (c :: tail).head? = (second ++ rest).head? := by rw [hsecond]; rfl
  rcases h.again (c :: tail) fun _ => hhead with hrun | ⟨-, hends⟩
  · rcases hf.cut _ back hne hsecond with ⟨rfl, hf⟩ | hends | hnumber
    · exact .inl ⟨rfl, (bind_of_ok f hrun).trans hf⟩
    · exact .inr (.inl (endsEarly_of_eq (bind_of_ok f hrun) hends))
    · exact .inr (.inr (hnumber.prepend h.spot))
  · exact .inr (.inl (hends.bind f))

-- Two readers in a row take two chunks in a row.
theorem Portion.bind {a : α} {b : β} {first second rest : List Char}
    (h : Portion true start mid reader first a (second ++ rest))
    (hf : Portion ahead mid stop (f a) second b rest) (hstart : Cut mid (f a) b [] second) :
    Portion ahead start stop (reader >>= f) (first ++ second) b rest := by
  constructor
  case spot => rw [Spot.after_append, h.spot, hf.spot]
  case taken => exact fun hahead => List.append_ne_nil_of_right_ne_nil _ (hf.taken hahead)
  case again =>
    intro other hother
    have hhead : (second ++ other).head? = (second ++ rest).head? := by
      cases second with
      | nil => exact hother (by simpa using mt hf.taken (not_not_intro rfl))
      | cons c second => rfl
    rw [List.append_assoc]
    rcases h.again (second ++ other) fun _ => hhead with hrun | ⟨hshort, hends⟩
    · rw [bind_of_ok f hrun]
      rcases hf.again other hother with hrun' | ⟨hshort, hends⟩
      · exact .inl hrun'
      · exact .inr ⟨hshort, endsEarly_of_eq (bind_of_ok f hrun) hends⟩
    · simp only [List.length_append] at hshort
      exact .inr ⟨by omega, hends.bind f⟩
  case cut =>
    intro front back hne htext
    rcases List.append_eq_append_iff.mp htext with ⟨more, rfl, hsecond⟩ | ⟨more, hfirst, rfl⟩
    · cases more with
      | nil =>
          rw [List.append_nil] at hne ⊢
          rw [List.nil_append] at hsecond
          exact hsecond ▸ h.cut_between hstart hne
      | cons c more => exact h.cut_second hf (List.cons_ne_nil c more) hsecond
    · cases more with
      | nil =>
          rw [List.append_nil] at hfirst
          exact hfirst ▸ h.cut_between hstart (hfirst ▸ hne)
      | cons c more => exact h.cut_first hne (List.cons_ne_nil c more) hfirst

theorem Sequential.follows (h : Sequential ahead start stop reader) (first : Char) :
    Follows first ahead start stop reader := by
  intro tail a rest hrun
  obtain ⟨chunk, htext, hportion, -⟩ := h _ a rest hrun
  exact ⟨chunk, htext, hportion⟩

theorem Follows.bind {first : Char} (h : Follows first true start mid reader)
    (hf : ∀ a, Sequential ahead mid stop (f a)) :
    Follows first ahead start stop (reader >>= f) := by
  intro tail b rest hrun
  obtain ⟨a, between, hreader, hrest⟩ := exists_of_bind_ok hrun
  obtain ⟨chunk, htext, hchunk⟩ := h tail a between hreader
  obtain ⟨second, rfl, hsecond, hstart⟩ := hf a between b rest hrest
  exact ⟨chunk ++ second, by rw [htext, List.append_assoc], hchunk.bind hsecond hstart⟩

theorem Sequential.bind (h : Sequential true start mid reader)
    (hf : ∀ a, Sequential ahead mid stop (f a)) : Sequential ahead start stop (reader >>= f) := by
  intro text b rest hrun
  obtain ⟨a, between, hreader, hrest⟩ := exists_of_bind_ok hrun
  obtain ⟨chunk, rfl, hchunk, hcut⟩ := h text a between hreader
  obtain ⟨second, rfl, hsecond, hstart⟩ := hf a between b rest hrest
  exact ⟨chunk ++ second, (List.append_assoc ..).symm, hchunk.bind hsecond hstart,
    hcut.bind_nil hstart⟩

end Bind

section Rules

variable {ahead : Bool} {start stop : Spot} {reader : Reader α}

theorem sequential_pure (start : Spot) (a : α) : Sequential true start start (pure a) := by
  rintro text _ _ ⟨⟩
  refine ⟨[], rfl, ⟨rfl, nofun, fun other _ => .inl rfl, fun front back hne htext => ?_⟩,
    .inl ⟨rfl, rfl⟩⟩
  exact absurd (List.nil_eq_append_iff.mp htext).1 hne

theorem not_ok_of_run? {text : List Char} (h : reader.run? text = none) {taken : α × List Char} :
    reader text ≠ .ok taken := by
  intro hrun
  rw [run?_of_ok hrun] at h
  cases h

-- A reader that takes no text at all.
theorem follows_of_none {first : Char} (h : ∀ tail, reader.run? (first :: tail) = none) :
    Follows first ahead start stop reader :=
  fun tail _ _ hrun => absurd hrun (not_ok_of_run? (h tail))

theorem sequential_of_none (h : ∀ text, reader.run? text = none) :
    Sequential ahead start stop reader :=
  fun text _ _ hrun => absurd hrun (not_ok_of_run? (h text))

theorem follows_advance (start : Spot) (first : Char) :
    Follows first false start (start.next first) advance := by
  rintro tail _ _ ⟨⟩
  refine ⟨[first], rfl, rfl, fun _ => List.cons_ne_nil _ _, fun other _ => .inl rfl, ?_⟩
  intro front back hne htext
  obtain ⟨rfl, rfl⟩ | ⟨rfl, rfl⟩ := List.singleton_eq_append_iff.mp htext
  · exact absurd rfl hne
  · exact .inl ⟨rfl, rfl⟩

theorem Portion.look {chunk rest : List Char} {a : α}
    (h : Portion ahead start stop reader chunk a rest) :
    Portion true start stop reader chunk a rest :=
  ⟨h.spot, nofun, fun other hother => h.again other fun _ => hother rfl, h.cut⟩

theorem Follows.look {first : Char} (h : Follows first ahead start stop reader) :
    Follows first true start stop reader := by
  intro tail a rest hrun
  obtain ⟨chunk, htext, hportion⟩ := h tail a rest hrun
  exact ⟨chunk, htext, hportion.look⟩

theorem Sequential.look (h : Sequential ahead start stop reader) :
    Sequential true start stop reader := by
  intro text a rest hrun
  obtain ⟨chunk, htext, hportion, hcut⟩ := h text a rest hrun
  exact ⟨chunk, htext, hportion.look, hcut⟩

-- What is done with a value need not take anything, and may refuse the value.
def Checks (f : α → Reader β) : Prop := ∀ a, (∃ b, f a = pure b) ∨ ∀ text, (f a).run? text = none

theorem Checks.pure_of_ok {f : α → Reader β} (h : Checks f) {a : α} {b : β} {mid rest : List Char}
    (hrun : f a mid = .ok (b, rest)) : f a = pure b ∧ mid = rest := by
  rcases h a with ⟨value, hvalue⟩ | hnone
  · rw [hvalue] at hrun
    obtain ⟨rfl, rfl⟩ := Prod.mk.inj (Except.ok.inj hrun)
    exact ⟨hvalue, rfl⟩
  · exact absurd hrun (not_ok_of_run? (hnone mid))

theorem bind_pure_of_ok {f : α → Reader β} {a : α} {b : β} (hf : f a = pure b)
    {text rest : List Char} (h : reader text = .ok (a, rest)) :
    (reader >>= f) text = .ok (b, rest) := by
  rw [bind_of_ok f h, hf, pure_run]

theorem Cut.check {f : α → Reader β} {a : α} {b : β} (hf : f a = pure b) {front back : List Char}
    (h : Cut start reader a front back) : Cut start (reader >>= f) b front back :=
  h.imp (And.imp_right (bind_pure_of_ok hf)) (Or.imp_left (EndsEarly.bind · f))

theorem Portion.check {f : α → Reader β} {a : α} {b : β} (hf : f a = pure b)
    {chunk rest : List Char} (h : Portion ahead start stop reader chunk a rest) :
    Portion ahead start stop (reader >>= f) chunk b rest where
  spot := h.spot
  taken := h.taken
  again other hother :=
    (h.again other hother).imp (bind_pure_of_ok hf) (And.imp_right (EndsEarly.bind · f))
  cut front back hne htext := (h.cut front back hne htext).check hf

theorem Follows.check {first : Char} {f : α → Reader β} (h : Follows first ahead start stop reader)
    (hf : Checks f) : Follows first ahead start stop (reader >>= f) := by
  intro tail b rest hrun
  obtain ⟨a, mid, hreader, hrest⟩ := exists_of_bind_ok hrun
  obtain ⟨hvalue, rfl⟩ := hf.pure_of_ok hrest
  obtain ⟨chunk, htext, hportion⟩ := h tail a mid hreader
  exact ⟨chunk, htext, hportion.check hvalue⟩

theorem Sequential.check {f : α → Reader β} (h : Sequential ahead start stop reader)
    (hf : Checks f) : Sequential ahead start stop (reader >>= f) := by
  intro text b rest hrun
  obtain ⟨a, mid, hreader, hrest⟩ := exists_of_bind_ok hrun
  obtain ⟨hvalue, rfl⟩ := hf.pure_of_ok hrest
  obtain ⟨chunk, htext, hportion, hstart⟩ := h text a mid hreader
  exact ⟨chunk, htext, hportion.check hvalue, hstart.check hvalue⟩

theorem checks_pure (f : α → β) : Checks fun a => (pure (f a) : Reader β) :=
  fun a => .inl ⟨f a, rfl⟩

theorem Follows.map {first : Char} (h : Follows first ahead start stop reader) (f : α → β) :
    Follows first ahead start stop (f <$> reader) := by
  rw [← bind_pure_comp]
  exact h.check (checks_pure f)

theorem Sequential.map (h : Sequential ahead start stop reader) (f : α → β) :
    Sequential ahead start stop (f <$> reader) := by
  rw [← bind_pure_comp]
  exact h.check (checks_pure f)

end Rules

end Reader

end DashboardScript.Json
