import Mathlib.Data.List.TakeWhile
import DashboardScript.Proofs.Toml.Grammar

-- What a scanner makes of the parts of a line.
namespace DashboardScript.Toml

open Grammar

namespace Scanner

section Run

variable {α β : Type}

theorem bind_of_ok {scanner : Scanner α} {text rest : List Char} {a : α} (f : α → Scanner β)
    (h : scanner text = .ok (a, rest)) : (scanner >>= f) text = f a rest := by
  simp only [bind, StateT.bind, h, Except.bind]

theorem map_of_ok {scanner : Scanner α} {text rest : List Char} {a : α} (f : α → β)
    (h : scanner text = .ok (a, rest)) : (f <$> scanner) text = .ok (f a, rest) := by
  simp only [Functor.map, StateT.map, h, bind, Except.bind, pure, Except.pure]

theorem get_run (text : List Char) : (get : Scanner (List Char)) text = .ok (text, text) := rfl

theorem set_run (text rest : List Char) : (set rest : Scanner Unit) text = .ok ((), rest) := rfl

theorem peek_run (text : List Char) : peek text = .ok (text.head?, text) := rfl

theorem advance_run (text : List Char) : advance text = .ok ((), text.tail) := rfl

theorem literal?_self (c : Char) (rest : List Char) : literal? [c] (c :: rest) = .ok (true, rest) := by
  simp [literal?]

theorem literal?_ne {c d : Char} (h : c ≠ d) (word rest : List Char) :
    literal? (c :: word) (d :: rest) = .ok (false, d :: rest) := by
  simp [literal?, h]

theorem literal?_once {c : Char} {rest : List Char} (h : rest.head? ≠ some c) :
    literal? [c, c] (c :: rest) = .ok (false, c :: rest) := by
  cases rest with
  | nil => simp [literal?]
  | cons d rest =>
      have hd : c ≠ d := fun heq => h (congrArg some heq.symm)
      simp [literal?, hd]

-- The next character fails a test, if there is one.
def Stops (test : Char → Bool) (rest : List Char) : Prop := ∀ c ∈ rest.head?, test c = false

variable {test : Char → Bool} {cs rest : List Char}

theorem stops_cons {c : Char} (h : test c = false) (rest : List Char) : Stops test (c :: rest) := by
  rintro _ ⟨⟩
  exact h

theorem dropWhile_append (hcs : ∀ c ∈ cs, test c) (hrest : Stops test rest) :
    (cs ++ rest).dropWhile test = rest := by
  rw [List.dropWhile_append_of_pos hcs]
  cases rest with
  | nil => rfl
  | cons c rest => exact List.dropWhile_cons_of_neg (by simp [hrest c rfl])

theorem takeWhile_append (hcs : ∀ c ∈ cs, test c) (hrest : Stops test rest) :
    (cs ++ rest).takeWhile test = cs := by
  rw [List.takeWhile_append_of_pos hcs]
  cases rest with
  | nil => exact List.append_nil cs
  | cons c rest => rw [List.takeWhile_cons_of_neg (by simp [hrest c rfl]), List.append_nil]

theorem run_append (hcs : ∀ c ∈ cs, test c) (hrest : Stops test rest) :
    run test (cs ++ rest) = .ok (cs, rest) := by
  rw [run, takeWhile_append hcs hrest, dropWhile_append hcs hrest]

theorem spaces_append (pad : Blanks) (hrest : Stops isSpace rest) :
    spaces (pad.val ++ rest) = .ok ((), rest) :=
  bind_of_ok _ (run_append pad.property hrest)

theorem spaces_stop (hrest : Stops isSpace rest) : spaces rest = .ok ((), rest) :=
  spaces_append ⟨[], by simp⟩ hrest

end Run

-- What may stand behind a line, and what is left behind it: a break with more lines, or nothing.
inductive Closes : List Char → List Char → Prop where
  | last : Closes [] []
  | next (b : Break) (rest : List Char) : Closes (b.text ++ rest) rest

section Ends

variable {text rest : List Char}

theorem Closes.head?_endsLine (h : Closes text rest) : ∀ c ∈ text.head?, endsLine c := by
  cases h with
  | last => rintro _ ⟨⟩
  | next b rest => cases b <;> rintro _ ⟨⟩ <;> rfl

theorem Closes.stops (h : Closes text rest) {test : Char → Bool} (hfeed : test '\n' = false)
    (hreturn : test '\r' = false) : Stops test text := by
  intro c hc
  have hline := h.head?_endsLine c hc
  simp only [endsLine, Bool.or_eq_true, beq_iff_eq] at hline
  rcases hline with rfl | rfl
  · exact hfeed
  · exact hreturn

theorem Closes.eq_nil (h : Closes [] rest) : rest = [] := by
  generalize heq : ([] : List Char) = text at h
  cases h with
  | last => rfl
  | next b rest => cases b <;> cases heq

theorem newline?_run (h : Closes text rest) : newline? text = .ok (!text.isEmpty, rest) := by
  cases h with
  | last => rfl
  | next b rest => cases b <;> rfl

-- A comment goes up to the break, whether there is one or not.
theorem comment_run (ending : Ending) (h : Closes text rest) :
    comment (ending.remarkText ++ text) = .ok ((), text) := by
  obtain ⟨pad, remark⟩ := ending
  cases remark with
  | none =>
      have hhead : text.head? ≠ some '#' := fun heq => absurd (h.head?_endsLine '#' heq) (by decide)
      refine (bind_of_ok _ (peek_run text)).trans ?_
      rw [if_neg hhead]
      rfl
  | some cs =>
      have hplain : ∀ c ∈ '#' :: cs.val, isPlain c := List.forall_mem_cons.mpr ⟨rfl, cs.property⟩
      have hends : text.head?.all endsLine := by
        rw [Option.all_eq_true_iff_get]
        exact fun hsome => h.head?_endsLine _ (Option.get_mem hsome)
      have hmark : (Ending.remarkText ⟨pad, some cs⟩ ++ text).head? = some '#' := rfl
      refine (bind_of_ok _ (peek_run _)).trans ?_
      rw [if_pos hmark]
      refine (bind_of_ok _ (run_append hplain (h.stops rfl rfl))).trans ?_
      refine (bind_of_ok _ (peek_run text)).trans ?_
      rw [hends]
      rfl

theorem remark_stops (ending : Ending) (h : Closes text rest) :
    Stops isSpace (ending.remarkText ++ text) := by
  obtain ⟨pad, remark⟩ := ending
  cases remark with
  | none => exact h.stops rfl rfl
  | some cs => exact stops_cons rfl _

theorem remark_begins (ending : Ending) (h : Closes text rest) {c : Char} {cs : List Char}
    (hbody : ending.remarkText ++ text = c :: cs) : (c == '#' || endsLine c) = true := by
  obtain ⟨pad, remark⟩ := ending
  cases remark with
  | none => rw [h.head?_endsLine c (congrArg List.head? hbody), Bool.or_true]
  | some remark => rw [← (List.cons.inj hbody).1]; rfl

theorem lineEnd_run (ending : Ending) (h : Closes text rest) :
    lineEnd (ending.text ++ text) = .ok ((), rest) := by
  rw [Ending.text, List.append_assoc]
  refine (bind_of_ok _ (spaces_append ending.pad (remark_stops ending h))).trans ?_
  refine (bind_of_ok _ (comment_run ending h)).trans ?_
  refine (bind_of_ok _ (newline?_run h)).trans ?_
  cases h with
  | last => rfl
  | next b rest => cases b <;> rfl

end Ends

section Keys

variable {rest : List Char}

-- What may follow a key.
def EndsKey (rest : List Char) : Prop :=
  (∀ c ∈ rest.head?, endsWord c) ∧ (rest.dropWhile isSpace).head? ≠ some '.'

def isWordCharacter (c : Char) : Bool := !endsWord c && c != '.'

theorem bareKey_ne {c d : Char} (hc : isBareKey c) (hd : isBareKey d = false) : c ≠ d := by
  rintro rfl
  exact absurd hc (by rw [hd]; decide)

theorem bareKey_class {c : Char} (h : isBareKey c) :
    isWordCharacter c ∧ isQuote c = false ∧ isSpace c = false := by
  have hne : ∀ d, isBareKey d = false → c ≠ d := fun _ hd => bareKey_ne h hd
  simp [isWordCharacter, endsWord, endsLine, isQuote, isSpace, hne ' ' rfl, hne '\t' rfl,
    hne '\n' rfl, hne '\r' rfl, hne ',' rfl, hne '[' rfl, hne ']' rfl, hne '\x7b' rfl,
    hne '\x7d' rfl, hne '#' rfl, hne '=' rfl, hne '.' rfl, hne '"' rfl, hne '\x27' rfl]

theorem word_begins (word : Word) (rest : List Char) :
    ∃ c tail, word.val ++ rest = c :: tail ∧ isBareKey c := by
  obtain ⟨cs, hne, hcs⟩ := word
  cases cs with
  | nil => exact absurd rfl hne
  | cons c cs => exact ⟨c, cs ++ rest, rfl, hcs c List.mem_cons_self⟩

-- A word does not begin with what would be taken otherwise.
theorem word_stops (word : Word) (rest : List Char) {test : Char → Bool}
    (h : ∀ c, isBareKey c → test c = false) : Stops test (word.val ++ rest) := by
  obtain ⟨c, tail, htext, hc⟩ := word_begins word rest
  rw [htext]
  exact stops_cons (h c hc) tail

theorem word_stops_space (word : Word) (rest : List Char) : Stops isSpace (word.val ++ rest) :=
  word_stops word rest fun _ hc => (bareKey_class hc).2.2

theorem bareName_word (word : Word) : bareName word.val = .ok word.name := by
  obtain ⟨cs, hne, hcs⟩ := word
  have hdrop : cs.dropWhile isBareKey = [] := List.dropWhile_eq_nil_iff.mpr hcs
  cases cs with
  | nil => exact absurd rfl hne
  | cons c cs =>
      simp only [bareName, hdrop]
      rfl

theorem quoted?_of_stops (h : Stops isQuote rest) : quoted? rest = .ok (none, rest) := by
  refine (bind_of_ok _ (peek_run rest)).trans ?_
  cases rest with
  | nil => rfl
  | cons c rest =>
      have hc : isQuote c = false := h c rfl
      simp only [isQuote, Bool.or_eq_false_iff, beq_eq_false_iff_ne] at hc
      simp only [List.head?_cons, Option.some.injEq, hc.1, imp_self, hc.2]
      rfl

theorem keyPart_run (word : Word) (hrest : Stops isWordCharacter rest) :
    ∃ part, keyPart (word.val ++ rest) = .ok (part, rest) ∧ part.name = .ok word.name := by
  have hquote : Stops isQuote (word.val ++ rest) :=
    word_stops word rest fun c hc => (bareKey_class hc).2.1
  have hword : ∀ c ∈ word.val, isWordCharacter c := fun c hc =>
    (bareKey_class (word.property.2 c hc)).1
  have hname : ∀ f : Blemish → Fault, (bareName word.val).mapError f = .ok word.name := fun f => by
    rw [bareName_word]
    rfl
  refine ⟨⟨.ok word.name, word.val ++ rest, Text.utf8Length word.val⟩, ?_, rfl⟩
  refine (bind_of_ok _ (get_run _)).trans ((bind_of_ok _ (quoted?_of_stops hquote)).trans ?_)
  refine (bind_of_ok _ (run_append hword hrest)).trans ((bind_of_ok _ (get_run rest)).trans ?_)
  rw [hname]
  rfl

-- Behind a word it is the dot that tells whether there are more of them.
theorem keyParts_step (word : Word) (hrest : Stops isWordCharacter rest) (most : Nat) :
    ∃ part, part.name = .ok word.name ∧ keyParts (most + 1) (word.val ++ rest) =
      (if (rest.dropWhile isSpace).head? = some '.' then do
        spaces
        advance
        let parts ← keyParts most
        pure (part :: parts)
      else pure [part] : Scanner WrittenKey) rest := by
  obtain ⟨part, hpart, hname⟩ := keyPart_run word hrest
  refine ⟨part, hname, ?_⟩
  rw [keyParts]
  refine (bind_of_ok _ (spaces_stop (word_stops_space word rest))).trans ?_
  exact (bind_of_ok _ hpart).trans (bind_of_ok _ (get_run rest))

theorem keyParts_run (key : Grammar.Key) (hrest : EndsKey rest) {most : Nat}
    (hmost : key.more.length < most) :
    ∃ written, keyParts most (key.text ++ rest) = .ok (written, rest) ∧
      written.map KeyPart.name = key.path.map .ok := by
  obtain ⟨first, more⟩ := key
  induction more generalizing first most with
  | nil =>
      obtain ⟨most, rfl⟩ := Nat.exists_eq_add_of_lt hmost
      have hstops : Stops isWordCharacter rest := fun c hc => by
        simp [isWordCharacter, hrest.1 c hc]
      obtain ⟨part, hname, hstep⟩ := keyParts_step first hstops ([].length + most)
      have htext : Grammar.Key.text ⟨first, []⟩ ++ rest = first.val ++ rest := by
        simp [Grammar.Key.text]
      refine ⟨[part], ?_, by simp [hname, Grammar.Key.path]⟩
      rw [htext, hstep, if_neg hrest.2]
      rfl
  | cons word more ih =>
      obtain ⟨most, rfl⟩ := Nat.exists_eq_add_of_lt hmost
      have hmore : more.length < more.length + 1 + most := by omega
      obtain ⟨written, hwritten, hnames⟩ := ih word hmore
      have hstops : Stops isWordCharacter ('.' :: (Grammar.Key.text ⟨word, more⟩ ++ rest)) :=
        stops_cons rfl _
      obtain ⟨part, hname, hstep⟩ := keyParts_step first hstops (more.length + 1 + most)
      have htext : Grammar.Key.text ⟨first, word :: more⟩ ++ rest =
          first.val ++ '.' :: (Grammar.Key.text ⟨word, more⟩ ++ rest) := by
        simp [Grammar.Key.text]
      refine ⟨part :: written, ?_, by simp [hname, hnames, Grammar.Key.path]⟩
      rw [htext]
      refine hstep.trans ((congrFun (if_pos rfl) _).trans ?_)
      refine (bind_of_ok _ (spaces_stop (stops_cons rfl _))).trans ?_
      exact (bind_of_ok _ (advance_run _)).trans ((bind_of_ok _ hwritten).trans rfl)

theorem key_begins (key : Grammar.Key) (rest : List Char) :
    ∃ c tail, key.text ++ rest = c :: tail ∧ isBareKey c := by
  rw [Grammar.Key.text, List.append_assoc]
  exact word_begins key.first _

theorem key_ne_bracket (pad : Blanks) (key : Grammar.Key) (rest : List Char) :
    (pad.val ++ (key.text ++ rest)).head? ≠ some '[' := by
  obtain ⟨cs, hcs⟩ := pad
  intro heq
  cases cs with
  | nil =>
      obtain ⟨c, tail, htext, hc⟩ := key_begins key rest
      rw [List.nil_append, htext] at heq
      exact bareKey_ne hc rfl (Option.some.inj heq)
  | cons c cs =>
      obtain rfl := Option.some.inj heq
      exact absurd (hcs _ List.mem_cons_self) (by decide)

theorem length_more_le (key : Grammar.Key) : key.more.length ≤ key.text.length := by
  obtain ⟨first, more⟩ := key
  induction more with
  | nil => exact Nat.zero_le _
  | cons word more ih =>
      simp only [Grammar.Key.text, List.flatMap_cons, List.length_append, List.length_cons] at ih ⊢
      omega

-- Blanks in front of a key are passed over.
theorem key_run (pad : Blanks) (key : Grammar.Key) (hrest : EndsKey rest) :
    ∃ written, Scanner.key (pad.val ++ (key.text ++ rest)) = .ok (written, rest) ∧
      written.map KeyPart.name = key.path.map .ok := by
  have hmost : key.more.length < (pad.val ++ (key.text ++ rest)).length + 1 := by
    have := length_more_le key
    simp only [List.length_append]
    omega
  obtain ⟨written, hwritten, hnames⟩ := keyParts_run key hrest hmost
  have hstops : Stops isSpace (key.text ++ rest) := by
    obtain ⟨c, tail, htext, hc⟩ := key_begins key rest
    rw [htext]
    exact stops_cons (bareKey_class hc).2.2 tail
  refine ⟨written, ?_, hnames⟩
  rw [keyParts, bind_of_ok _ (spaces_stop hstops)] at hwritten
  refine (bind_of_ok _ (get_run _)).trans ?_
  rw [keyParts, bind_of_ok _ (spaces_append pad hstops)]
  exact hwritten

end Keys

section Values

open Quoted

variable {rest : List Char}

theorem shortBody_append (cs taken rest : List Char)
    (h : ∀ c ∈ cs, isPlain c ∧ c ≠ '"' ∧ c ≠ '\\') :
    shortBody false '"' taken (cs ++ '"' :: rest) = (cs.reverse ++ taken, true, rest) := by
  induction cs generalizing taken with
  | nil => simp [shortBody]
  | cons c cs ih =>
      obtain ⟨⟨hplain, hquote, hback⟩, hcs⟩ := List.forall_mem_cons.mp h
      have hbreak : c ≠ '\n' := by
        rintro rfl
        exact absurd hplain (by decide)
      rw [List.cons_append, shortBody, if_neg hquote, ih _ hcs]
      · simp
      · exact fun heq => absurd heq hbreak
      · exact fun _ _ heq => absurd heq hback

theorem unescape_plain (cs taken : List Char)
    (h : ∀ c ∈ cs, isPlain c ∧ c ≠ '"' ∧ c ≠ '\\') :
    unescape .basic taken cs = .ok (cs.reverse ++ taken) := by
  induction cs generalizing taken with
  | nil => simp [unescape]
  | cons c cs ih =>
      obtain ⟨⟨hplain, hquote, hback⟩, hcs⟩ := List.forall_mem_cons.mp h
      have hreturn : c ≠ '\r' := by
        rintro rfl
        exact absurd hplain (by decide)
      rw [unescape, isWritable, hplain, ih _ hcs]
      · simp
      · exact hback
      · exact fun _ heq => absurd heq hreturn

-- Two quotes at the start are all of an empty text.
theorem not_long (value : Verbatim) (hrest : rest.head? ≠ some '"') :
    ['"', '"', '"'].isPrefixOf ('"' :: (value.val ++ '"' :: rest)) = false := by
  obtain ⟨cs, hcs⟩ := value
  cases cs with
  | nil =>
      cases rest with
      | nil => rfl
      | cons c rest =>
          have hc : c ≠ '"' := fun heq => hrest (congrArg some heq)
          simp [List.isPrefixOf, Ne.symm hc]
  | cons c cs =>
      have hc : c ≠ '"' := (hcs c List.mem_cons_self).2.1
      simp [List.isPrefixOf, Ne.symm hc]

theorem quoted?_run (value : Verbatim) (hrest : rest.head? ≠ some '"') :
    quoted? ('"' :: (value.val ++ '"' :: rest)) = .ok (some ⟨.basic, true, value.val⟩, rest) := by
  have hlong : literal? ['"', '"', '"'] ('"' :: (value.val ++ '"' :: rest)) =
      .ok (false, '"' :: (value.val ++ '"' :: rest)) := by
    rw [literal?, not_long value hrest]
    rfl
  have hbody := shortBody_append value.val [] rest value.property
  have hquoted : quotedBy .basic .longBasic '"' ('"' :: (value.val ++ '"' :: rest)) =
      .ok (⟨.basic, true, value.val⟩, rest) := by
    refine (bind_of_ok _ hlong).trans ((bind_of_ok _ (advance_run _)).trans ?_)
    refine (bind_of_ok _ (get_run _)).trans ?_
    simp only [TextKind.isVerbatim, Bool.false_eq_true, if_false, List.tail_cons, hbody]
    refine (bind_of_ok _ (set_run _ rest)).trans ?_
    rw [List.append_nil, List.reverse_reverse]
    rfl
  exact (bind_of_ok _ (peek_run _)).trans (map_of_ok _ hquoted)

theorem text_verbatim (value : Verbatim) :
    Quoted.text ⟨.basic, true, value.val⟩ = .ok (String.ofList value.val) := by
  have hread := unescape_plain value.val [] value.property
  rw [List.append_nil] at hread
  simp only [Quoted.text, Quoted.lines, Quoted.read, TextKind.isVerbatim, TextKind.isLong, hread]
  simp [Functor.map, Except.map, Except.mapError]

theorem value_run (value : Verbatim) (hrest : rest.head? ≠ some '"') (room : Nat) :
    Scanner.value room ('"' :: (value.val ++ '"' :: rest)) =
      .ok (.scalar (.ok (.string (String.ofList value.val))), rest) := by
  have hscalar : scalar ('"' :: (value.val ++ '"' :: rest)) =
      .ok (.scalar (.ok (.string (String.ofList value.val))), rest) := by
    refine (bind_of_ok _ (get_run _)).trans ((bind_of_ok _ (quoted?_run value hrest)).trans ?_)
    refine (bind_of_ok _ (get_run _)).trans ?_
    rw [text_verbatim]
    rfl
  have haround : ∀ inner, valueAround inner ('"' :: (value.val ++ '"' :: rest)) = _ := fun _ =>
    (bind_of_ok _ (peek_run _)).trans hscalar
  cases room <;> exact haround _

end Values

end Scanner

end DashboardScript.Toml
