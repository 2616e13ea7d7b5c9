import Mathlib.Data.List.Forall2
import DashboardScript.Proofs.Toml.Scanning

-- What a scanner makes of the lines of a document.
namespace DashboardScript.Toml

open Grammar

namespace Scanner

section Lines

variable {text rest : List Char}

theorem ending_ne_quote (ending : Ending) (h : Closes text rest) :
    (ending.text ++ text).head? ≠ some '"' := by
  obtain ⟨⟨pad, hpad⟩, remark⟩ := ending
  intro heq
  cases pad with
  | nil =>
      cases remark with
      | none => exact absurd (h.head?_endsLine '"' heq) (by decide)
      | some cs => exact absurd heq (by simp [Ending.text, Ending.remarkText])
  | cons c pad =>
      obtain rfl := Option.some.inj heq
      exact absurd (hpad _ List.mem_cons_self) (by decide)

theorem endsKey_blanks (gap : Blanks) {c : Char} (rest : List Char) (hends : endsWord c)
    (hspace : isSpace c = false) (hdot : c ≠ '.') : EndsKey (gap.val ++ c :: rest) := by
  obtain ⟨cs, hcs⟩ := gap
  refine ⟨?_, ?_⟩
  · cases cs with
    | nil =>
        rintro _ ⟨⟩
        exact hends
    | cons d cs =>
        rintro _ ⟨⟩
        simp [endsWord, hcs d List.mem_cons_self]
  · rw [dropWhile_append hcs (stops_cons hspace rest)]
    simp [hdot]

-- A line says what it is written to say.
def Says (statement : Statement) (line : Line) : Prop :=
  match statement, line with
  | .header path, .table key => key.map KeyPart.name = path.map .ok
  | .entry path text, .entry key value =>
    key.map KeyPart.name = path.map .ok ∧ value = .scalar (.ok (.string text))
  | _, _ => False

theorem header_run (pad : Blanks) (key : Grammar.Key) (gap : Blanks) (ending : Ending)
    (h : Closes text rest) :
    ∃ written, header .header
        (pad.val ++ (key.text ++ (gap.val ++ ']' :: (ending.text ++ text)))) = .ok (written, rest) ∧
      written.map KeyPart.name = key.path.map .ok := by
  obtain ⟨written, hwritten, hnames⟩ := key_run pad key
    (endsKey_blanks gap (ending.text ++ text) (c := ']') rfl rfl (by decide))
  refine ⟨written, ?_, hnames⟩
  refine (bind_of_ok _ hwritten).trans ((bind_of_ok _ (get_run _)).trans ?_)
  refine (bind_of_ok _ (spaces_append gap (stops_cons rfl _))).trans ?_
  refine (bind_of_ok _ (literal?_self ']' _)).trans ?_
  exact (bind_of_ok _ (lineEnd_run ending h)).trans rfl

theorem entry_run (key : Grammar.Key) (gap pad : Blanks) (value : Verbatim) (ending : Ending)
    (h : Closes text rest) :
    ∃ line, entry (key.text ++ (gap.val ++ '=' :: (pad.val ++
        '"' :: (value.val ++ '"' :: (ending.text ++ text))))) = .ok (line, rest) ∧
      Says (.entry key.path (String.ofList value.val)) line := by
  obtain ⟨written, hwritten, hnames⟩ := key_run ⟨[], by simp⟩ key
    (endsKey_blanks gap (pad.val ++ '"' :: (value.val ++ '"' :: (ending.text ++ text)))
      (c := '=') rfl rfl (by decide))
  refine ⟨.entry written (.scalar (.ok (.string (String.ofList value.val)))), ?_, hnames, rfl⟩
  refine (bind_of_ok _ hwritten).trans ?_
  refine (bind_of_ok _ (spaces_append gap (stops_cons rfl _))).trans ?_
  refine (bind_of_ok _ (literal?_self '=' _)).trans ?_
  refine (bind_of_ok _ (spaces_append pad (stops_cons rfl _))).trans ?_
  refine (bind_of_ok _ (peek_run _)).trans ?_
  refine (bind_of_ok _ (value_run value (ending_ne_quote ending h) maxDepth)).trans ?_
  exact (bind_of_ok _ (lineEnd_run ending h)).trans rfl

theorem line_blank (ending : Ending) (h : Closes text rest) :
    Scanner.line (ending.text ++ text) = .ok (none, rest) := by
  have hend := lineEnd_run ⟨⟨[], by simp⟩, ending.remark⟩ h
  change lineEnd (ending.remarkText ++ text) = _ at hend
  rw [Ending.text, List.append_assoc]
  refine (bind_of_ok _ (spaces_append ending.pad (remark_stops ending h))).trans ?_
  refine (bind_of_ok _ (peek_run _)).trans ?_
  cases hbody : ending.remarkText ++ text with
  | nil =>
      obtain rfl := (List.append_eq_nil_iff.mp hbody).2
      obtain rfl := h.eq_nil
      rfl
  | cons c cs =>
      have hc := remark_begins ending h hbody
      rw [List.head?_cons]
      simp only [hc, if_true]
      rw [hbody] at hend
      exact (bind_of_ok _ hend).trans rfl

-- A line that begins with a word is an entry.
theorem line_entry (lead : Blanks) {c : Char} {cs : List Char} (hc : isBareKey c) {said : Line}
    (h : entry (c :: cs) = .ok (said, rest)) :
    Scanner.line (lead.val ++ c :: cs) = .ok (some said, rest) := by
  have hne : ∀ d, isBareKey d = false → c ≠ d := fun _ hd => bareKey_ne hc hd
  have hmark : (c == '#' || endsLine c) = false := by
    simp [endsLine, hne '#' rfl, hne '\n' rfl, hne '\r' rfl]
  have hother : (c == ',' || c == '\x7b' || c == '\x7d') = false := by
    simp [hne ',' rfl, hne '\x7b' rfl, hne '\x7d' rfl]
  refine (bind_of_ok _ (spaces_append lead (stops_cons (bareKey_class hc).2.2 cs))).trans ?_
  refine (bind_of_ok _ (peek_run _)).trans ?_
  rw [List.head?_cons]
  simp only [hmark, Bool.false_eq_true, if_false]
  refine (bind_of_ok _ (literal?_ne (hne '[' rfl).symm _ cs)).trans ?_
  refine (bind_of_ok _ (literal?_ne (hne '[' rfl).symm _ cs)).trans ?_
  rw [if_neg (by decide), if_neg (by simp [hne ']' rfl]), hother]
  exact map_of_ok _ h

theorem line_run (line : LineText) (h : Closes text rest) :
    ∃ said, Scanner.line (line.text ++ text) = .ok (said, rest) ∧
      Option.Rel Says line.statement? said := by
  cases line with
  | blank ending => exact ⟨none, line_blank ending h, .none⟩
  | header lead pad key gap ending =>
      obtain ⟨written, hwritten, hnames⟩ := header_run pad key gap ending h
      refine ⟨some (.table written), ?_, .some hnames⟩
      simp only [LineText.text, List.append_assoc, List.cons_append]
      refine (bind_of_ok _ (spaces_append lead (stops_cons rfl _))).trans ?_
      refine (bind_of_ok _ (peek_run _)).trans ?_
      refine (bind_of_ok _ (literal?_once (key_ne_bracket pad key _))).trans ?_
      refine (bind_of_ok _ (literal?_self '[' _)).trans ?_
      exact map_of_ok _ hwritten
  | entry lead key gap pad value ending =>
      obtain ⟨said, hsaid, hmeant⟩ := entry_run key gap pad value ending h
      obtain ⟨c, cs, htext, hc⟩ := key_begins key (gap.val ++ '=' :: (pad.val ++
        '"' :: (value.val ++ '"' :: (ending.text ++ text))))
      rw [htext] at hsaid
      refine ⟨some said, ?_, .some hmeant⟩
      simp only [LineText.text, List.append_assoc, List.cons_append]
      rw [htext]
      exact line_entry lead hc hsaid

-- Where a text is over behind a line, one more round finds nothing.
theorem lines_step {said : Option Line} (h : Scanner.line text = .ok (said, rest)) {most : Nat}
    (hmost : 0 < most) (taken : List Line) :
    lines (most + 1) taken text = lines most (said.toList ++ taken) rest := by
  rw [lines]
  refine (bind_of_ok _ h).trans ((bind_of_ok _ (peek_run rest)).trans ?_)
  cases rest with
  | cons c rest => rfl
  | nil =>
      obtain ⟨most, rfl⟩ := Nat.exists_eq_add_of_lt hmost
      rfl

theorem forall₂_toList {statement : Option Statement} {said : Option Line}
    (h : Option.Rel Says statement said) : List.Forall₂ Says statement.toList said.toList := by
  cases h with
  | none => exact .nil
  | some h => exact .cons h .nil

theorem lines_run (ls : List (LineText × Break)) (last : LineText) {most : Nat}
    (hmost : ls.length < most) (taken : List Line) :
    ∃ said, lines most taken (Document.linesText ls last) = .ok (said.reverse ++ taken, []) ∧
      List.Forall₂ Says (Document.said ls last) said := by
  induction ls generalizing most taken with
  | nil =>
      obtain ⟨most, rfl⟩ := Nat.exists_eq_add_of_lt hmost
      obtain ⟨said, hline, hmeant⟩ := line_run last .last
      rw [List.append_nil] at hline
      refine ⟨said.toList, ?_, forall₂_toList hmeant⟩
      rw [Document.linesText, List.flatMap_nil, List.nil_append, lines]
      refine (bind_of_ok _ hline).trans ((bind_of_ok _ (peek_run [])).trans ?_)
      cases said <;> rfl
  | cons line ls ih =>
      obtain ⟨most, rfl⟩ := Nat.exists_eq_add_of_lt hmost
      have hlength : ls.length < (line :: ls).length + most := by
        rw [List.length_cons]
        omega
      have hpositive : 0 < (line :: ls).length + most := Nat.zero_lt_of_lt hlength
      obtain ⟨first, hfirst, hmeant⟩ := line_run line.1 (.next line.2 (Document.linesText ls last))
      obtain ⟨said, hlines, hrest⟩ := ih hlength (first.toList ++ taken)
      have htext : Document.linesText (line :: ls) last =
          line.1.text ++ (line.2.text ++ Document.linesText ls last) := by
        simp [Document.linesText]
      have hsaid : Document.said (line :: ls) last =
          line.1.statement?.toList ++ Document.said ls last := by
        simp [Document.said]
      refine ⟨first.toList ++ said, ?_, hsaid ▸ List.rel_append (forall₂_toList hmeant) hrest⟩
      rw [htext, lines_step hfirst hpositive, hlines]
      cases first <;> simp

end Lines

end Scanner

theorem length_lines_lt (ls : List (LineText × Break)) (last : LineText) :
    ls.length < (Document.linesText ls last).length + 1 := by
  have hbreak : ∀ b : Break, 0 < b.text.length := fun b => by cases b <;> decide
  induction ls with
  | nil => exact Nat.succ_pos _
  | cons line ls ih =>
      have := hbreak line.2
      simp only [Document.linesText, List.flatMap_cons, List.length_append, List.length_cons]
        at ih ⊢
      omega

-- A document is laid out in lines that say what it is written to say.
theorem layOut_document (document : Document) (h : document.text.head? ≠ some '\ufeff') :
    ∃ said, layOut (String.ofList document.text) = .ok said ∧
      List.Forall₂ Scanner.Says document.statements said := by
  have hmost := length_lines_lt document.lines document.last
  obtain ⟨said, hlines, hmeant⟩ := Scanner.lines_run document.lines document.last hmost []
  refine ⟨said, ?_, hmeant⟩
  rw [Document.text] at h ⊢
  simp only [layOut, String.toList_ofList]
  split
  · rename_i rest htext
    exact absurd (by rw [htext]; rfl) h
  · rw [hlines, List.append_nil]
    simp [bind, Except.bind, pure, Except.pure]

end DashboardScript.Toml
