import DashboardScript.Proofs.Json.Integers

-- How JSON is spelled, apart from what a reader makes of it.
namespace DashboardScript.Json.Grammar

-- What may stand between tokens.
abbrev Blanks := { cs : List Char // ∀ c ∈ cs, c ∈ [' ', '\t', '\n', '\r'] }

-- A hexadecimal digit, and whether it is a capital letter.
structure HexDigit where
  value : Fin 16
  capital : Bool
  deriving DecidableEq

def HexDigit.char (d : HexDigit) : Char :=
  let c := d.value.val.digitChar
  if d.capital then c.toUpper else c

-- The escapes of two characters, by the second one.
def shortEscapes : List (Char × Char) :=
  [('"', '"'), ('\\', '\\'), ('/', '/'), ('b', '\x08'), ('f', '\x0c'), ('n', '\n'), ('r', '\r'),
    ('t', '\t')]

-- A part of a string: a character as it is, an escape of two characters, or a code.
inductive Glyph where
  | raw (c : Char) (h : c ≠ '"' ∧ c ≠ '\\' ∧ ¬c < ' ')
  | short (mark c : Char) (h : (mark, c) ∈ shortEscapes)
  | code (a b c d : HexDigit)

namespace Glyph

def text : Glyph → List Char
  | raw c _ => [c]
  | short mark _ _ => ['\\', mark]
  | code a b c d => ['\\', 'u', a.char, b.char, c.char, d.char]

def codeOf (a b c d : HexDigit) : Nat :=
  ((a.value.val * 16 + b.value.val) * 16 + c.value.val) * 16 + d.value.val

abbrev IsLeading (code : Nat) : Prop := 0xd800 ≤ code ∧ code ≤ 0xdbff

abbrev IsTrailing (code : Nat) : Prop := 0xdc00 ≤ code ∧ code ≤ 0xdfff

-- The character of a pair of surrogates.
def paired (leading trailing : Nat) : Char :=
  Char.ofNat (0x10000 + (leading - 0xd800) * 0x400 + (trailing - 0xdc00))

-- The characters that glyphs stand for. There are none where a surrogate is not part of a pair.
def meaning : List Glyph → Option (List Char)
  | [] => some []
  | raw c _ :: gs => (c :: ·) <$> meaning gs
  | short _ c _ :: gs => (c :: ·) <$> meaning gs
  | code a b c d :: gs =>
    if IsTrailing (codeOf a b c d) then none
    else if IsLeading (codeOf a b c d) then
      match gs with
      | code x y z w :: rest =>
        if IsTrailing (codeOf x y z w) then
          (paired (codeOf a b c d) (codeOf x y z w) :: ·) <$> meaning rest
        else none
      | _ => none
    else (Char.ofNat (codeOf a b c d) :: ·) <$> meaning gs

-- A code may have letters of either case, and two of them make one character.
example : meaning [code ⟨0, false⟩ ⟨0, false⟩ ⟨6, false⟩ ⟨10, true⟩,
    code ⟨13, false⟩ ⟨8, false⟩ ⟨3, false⟩ ⟨13, false⟩,
    code ⟨13, true⟩ ⟨14, false⟩ ⟨0, false⟩ ⟨0, false⟩] = some ['j', Char.ofNat 0x1f600] := by
  decide

-- Whether a character may stand in a string as it is.
def isRaw (c : Char) : Bool := decide (c ≠ '"' ∧ c ≠ '\\' ∧ ¬c < ' ')

-- The glyphs of a text that is written as it is.
def raws (cs : List Char) (h : cs.all isRaw) : List Glyph :=
  cs.pmap raw fun c hc => of_decide_eq_true (List.all_eq_true.mp h c hc)

theorem meaning_raws {cs : List Char} (h : cs.all isRaw) : meaning (raws cs h) = some cs := by
  induction cs with
  | nil => rfl
  | cons c cs ih =>
      have hrest : cs.all isRaw = true := (Bool.and_eq_true_iff.mp h).2
      change (c :: ·) <$> meaning (raws cs hrest) = some (c :: cs)
      rw [ih hrest]
      rfl

end Glyph

-- The text between the quotes of a string.
def inside (gs : List Glyph) : List Char := gs.flatMap Glyph.text

def quotedText (gs : List Glyph) : List Char := '"' :: (inside gs ++ ['"'])

abbrev Digits := { ds : List Char // ds ≠ [] ∧ ∀ d ∈ ds, d.isDigit }

structure Exponent where
  capital : Bool
  -- whether it is a minus
  sign : Option Bool
  digits : Digits

def Exponent.text (e : Exponent) : List Char :=
  (if e.capital then 'E' else 'e') ::
    ((e.sign.elim [] fun minus => [if minus then '-' else '+']) ++ e.digits.val)

-- A number as it is spelled.
structure Spelling where
  negative : Bool
  whole : { ds : List Char // WholeDigits ds }
  fraction : Option Digits
  exponent : Option Exponent

namespace Spelling

def fractionText (n : Spelling) : List Char := n.fraction.elim [] fun ds => '.' :: ds.val

def exponentText (n : Spelling) : List Char := n.exponent.elim [] Exponent.text

def text (n : Spelling) : List Char :=
  (if n.negative then ['-'] else []) ++ (n.whole.val ++ (n.fractionText ++ n.exponentText))

end Spelling

-- An item of an array, with the blanks around it.
structure ItemText where
  before : Blanks
  value : List Char
  after : Blanks

def ItemText.text (item : ItemText) : List Char := item.before.val ++ (item.value ++ item.after.val)

-- A member of an object, with the blanks between its tokens.
structure MemberText where
  before : Blanks
  key : List Glyph
  gap : Blanks
  lead : Blanks
  value : List Char
  after : Blanks

namespace MemberText

-- The colon and the value, with the blanks before them.
def fromColon (m : MemberText) : List Char := m.gap.val ++ ':' :: (m.lead.val ++ m.value)

def text (m : MemberText) : List Char :=
  m.before.val ++ (quotedText m.key ++ (m.fromColon ++ m.after.val))

-- The key as it is meant.
def key? (m : MemberText) : Option String := (Glyph.meaning m.key).map String.ofList

end MemberText

-- Pieces with a comma between them. Behind another piece the first one has a comma, too.
def separated (first : Bool) : List (List Char) → List Char
  | [] => []
  | piece :: pieces => (if first then [] else [',']) ++ (piece ++ separated false pieces)

def bracketedText (pad : Blanks) (items : List ItemText) : List Char :=
  '[' :: (pad.val ++ (separated true (items.map ItemText.text) ++ [']']))

def bracedText (pad : Blanks) (ms : List MemberText) : List Char :=
  '\x7b' :: (pad.val ++ (separated true (ms.map MemberText.text) ++ ['\x7d']))

-- The text of a value that nests so many arrays and objects at most.
inductive IsValue : (depth : Nat) → List Char → Prop where
  | null (depth : Nat) : IsValue depth ['n', 'u', 'l', 'l']
  | boolean (depth : Nat) (b : Bool) : IsValue depth (if b then "true" else "false").toList
  | number (depth : Nat) (n : Spelling) : IsValue depth n.text
  | string (depth : Nat) (gs : List Glyph) : IsValue depth (quotedText gs)
  | array {depth : Nat} (pad : Blanks) {items : List ItemText}
    (h : ∀ item ∈ items, IsValue depth item.value) : IsValue (depth + 1) (bracketedText pad items)
  | object {depth : Nat} (pad : Blanks) {ms : List MemberText}
    (h : ∀ m ∈ ms, IsValue depth m.value) : IsValue (depth + 1) (bracedText pad ms)

theorem IsValue.mono {depth deeper : Nat} {text : List Char} (h : IsValue depth text)
    (hle : depth ≤ deeper) : IsValue deeper text := by
  induction h generalizing deeper with
  | null => exact .null deeper
  | boolean _ b => exact .boolean deeper b
  | number _ n => exact .number deeper n
  | string _ gs => exact .string deeper gs
  | array pad _ ih =>
      cases deeper with
      | zero => omega
      | succ deeper => exact .array pad fun i hi => ih i hi (Nat.le_of_succ_le_succ hle)
  | object pad _ ih =>
      cases deeper with
      | zero => omega
      | succ deeper => exact .object pad fun m hm => ih m hm (Nat.le_of_succ_le_succ hle)

-- Of finitely many values one nests deepest.
theorem exists_depth {α : Type} {items : List α} {text : α → List Char}
    (h : ∀ i ∈ items, ∃ depth, IsValue depth (text i)) :
    ∃ depth, ∀ i ∈ items, IsValue depth (text i) := by
  induction items with
  | nil => exact ⟨0, List.forall_mem_nil _⟩
  | cons i items ih =>
      obtain ⟨⟨first, hfirst⟩, hrest⟩ := List.forall_mem_cons.mp h
      obtain ⟨rest, hrest⟩ := ih hrest
      refine ⟨max first rest, List.forall_mem_cons.mpr ⟨?_, fun j hj => ?_⟩⟩
      · exact hfirst.mono (Nat.le_max_left first rest)
      · exact (hrest j hj).mono (Nat.le_max_right first rest)

end DashboardScript.Json.Grammar
