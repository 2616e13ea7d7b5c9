import DashboardScript.Proofs.Dashboard.Members
import DashboardScript.Proofs.Json.Spellings
import DashboardScript.Proofs.Script.Query

namespace DashboardScript

open Json Json.Grammar Json.Grammar.Glyph Script RecordType

section Grid

variable {r : RecordType} {ms : List AnyMember}

-- A field sees the value of the only member under its key, wherever that stands.
theorem given_of_perm {known : List (String × List Char)}
    (h : ((texts ms).filter fun p => p.1 ∈ r.keys).Perm known) {slot : Slot r.Carrier}
    (hslot : slot ∈ r.slots) {text : List Char} (hknown : slot.field.values known = [text]) :
    r.given slot ms = (slot.field.value.within (Decoder.maxDepth - 1)).value? text := by
  have hkey : (slot.field.within (Decoder.maxDepth - 1)).key ∈ r.keys :=
    List.mem_map.mpr ⟨slot, hslot, rfl⟩
  have hvalues : ((slot.field.within (Decoder.maxDepth - 1)).values (texts ms)).Perm [text] := by
    rw [← hknown, ← Field.values_filter hkey]
    exact (h.filter _).map _
  rw [given, Field.valueOf?, List.perm_singleton.mp hvalues]
  rfl

theorem exists_word_iff (n : Spelling) (room : Nat) :
    (∃ w, (Decoder.word.within room).value? n.text = some w) ↔ IsWord n.text := by
  simp only [Decoder.value?_word_eq_some_iff]
  constructor
  · exact fun ⟨_, h, _⟩ => h
  · intro h
    have hlt : Nat.ofDigitChars 10 n.text 0 < UInt32.size := by
      have hsize : UInt32.size = 4294967296 := rfl
      have hle := h.2
      omega
    exact ⟨UInt32.ofNat _, h, UInt32.toNat_ofNat_of_lt' hlt⟩

theorem toString_of_value? {n : Spelling} {room : Nat} {w : UInt32}
    (h : (Decoder.word.within room).value? n.text = some w) :
    toString w = String.ofList n.text := by
  obtain ⟨hn, hvalue⟩ := (Decoder.value?_word_eq_some_iff n room w).mp h
  exact hn.toString_eq hvalue

-- A place on the grid is read from four words, in any order and with whatever else beside them, and
-- is written with the digits that it was read from.
theorem GridPos.ofJson_numbers (h w x y : Spelling) (before pad after : Blanks)
    (ms : List AnyMember)
    (hms : ((texts ms).filter fun p => p.1 ∈ ["h", "w", "x", "y"]).Perm
      [("h", h.text), ("w", w.text), ("x", x.text), ("y", y.text)]) :
    ((∃ pos, ofJson (objectText before pad after ms) = .ok pos) ↔
      IsWord h.text ∧ IsWord w.text ∧ IsWord x.text ∧ IsWord y.text) ∧
    ∀ pos, ofJson (objectText before pad after ms) = .ok pos →
      pos.literal = "\x7bh: " ++ String.ofList h.text ++ ", w: " ++ String.ofList w.text ++
        ", x: " ++ String.ofList x.text ++ ", y: " ++ String.ofList y.text ++ "\x7d" := by
  -- none of the four fields depends on the others or on where its member stands
  have hread : ∀ slot ∈ gridPos.slots, ∀ text, slot.field.values
      [("h", h.text), ("w", w.text), ("x", x.text), ("y", y.text)] = [text] →
        gridPos.given slot ms = (slot.field.value.within (Decoder.maxDepth - 1)).value? text :=
    fun slot hslot text => given_of_perm (r := gridPos) hms hslot
  simp only [slots, List.forall_mem_cons] at hread
  obtain ⟨hh, hw, hx, hy, -⟩ := hread
  replace hh := hh h.text (by simp [Field.values, required])
  replace hw := hw w.text (by simp [Field.values, required])
  replace hx := hx x.text (by simp [Field.values, required])
  replace hy := hy y.text (by simp [Field.values, required])
  constructor
  · refine (gridPos.exists_decode_objectText_iff before pad after ms).trans ?_
    simp only [slots, List.forall_mem_cons, hh, hw, hx, hy]
    refine and_congr (exists_word_iff h _) (and_congr (exists_word_iff w _)
      (and_congr (exists_word_iff x _) ?_))
    exact (and_iff_left (List.forall_mem_nil _)).trans (exists_word_iff y _)
  · intro pos hpos
    have hparts := gridPos.given_of_decode before pad after ms hpos
    simp only [slots, List.forall_mem_cons, hh, hw, hx, hy] at hparts
    obtain ⟨hparth, hpartw, hpartx, hparty, -⟩ := hparts
    rw [literal, ← toString_of_value? hparth, ← toString_of_value? hpartw,
      ← toString_of_value? hpartx, ← toString_of_value? hparty]
    rfl

-- The greatest word and the number after it, among members in the opposite order and one more.
theorem GridPos.ofJson_numbers_at_limit :
    (∃ pos, ofJson "\x7b\"y\":4294967295,\"x\":0,\"w\":24,\"z\":1,\"h\":8\x7d" = .ok pos ∧
      pos.literal = "\x7bh: 8, w: 24, x: 0, y: 4294967295\x7d") ∧
    ¬∃ pos, ofJson "\x7b\"y\":4294967296,\"x\":0,\"w\":24,\"z\":1,\"h\":8\x7d" = .ok pos := by
  let pad : Blanks := ⟨[], by simp⟩
  let member (key : String) (hkey : key.toList.all Glyph.isRaw) (n : Nat) : AnyMember :=
    .plain key hkey (Spelling.ofNat n).text ⟨0, .number 0 _⟩
  let members (y : Nat) : List AnyMember :=
    [member "y" rfl y, member "x" rfl 0, member "w" rfl 24, member "z" rfl 1, member "h" rfl 8]
  have hms (y : Nat) : ((texts (members y)).filter fun p => p.1 ∈ ["h", "w", "x", "y"]).Perm
      [("h", (Spelling.ofNat 8).text), ("w", (Spelling.ofNat 24).text),
        ("x", (Spelling.ofNat 0).text), ("y", (Spelling.ofNat y).text)] :=
    List.reverse_perm [("h", (Spelling.ofNat 8).text), ("w", (Spelling.ofNat 24).text),
        ("x", (Spelling.ofNat 0).text), ("y", (Spelling.ofNat y).text)]
  have hread (y : Nat) := ofJson_numbers (.ofNat 8) (.ofNat 24) (.ofNat 0) (.ofNat y) pad pad pad
    (members y) (hms y)
  constructor
  · have haccepted := (hread 4294967295).1.mpr
      ⟨(Spelling.isWord_ofNat_iff 8).mpr (by decide),
        (Spelling.isWord_ofNat_iff 24).mpr (by decide),
        (Spelling.isWord_ofNat_iff 0).mpr (by decide),
        (Spelling.isWord_ofNat_iff 4294967295).mpr (by decide)⟩
    obtain ⟨pos, hpos⟩ := haccepted
    exact ⟨pos, hpos, (hread 4294967295).2 pos hpos⟩
  · intro haccepted
    have hlimit := (Spelling.isWord_ofNat_iff _).mp ((hread 4294967296).1.mp haccepted).2.2.2
    exact absurd hlimit (by decide)

end Grid

-- Whether a member stands under such a key with such a text as its value.
def AnyMember.Holds (m : AnyMember) (key : String) (text : List Char) : Prop :=
  m.name = key ∧ m.value = text

-- Whether its value is a string that means such a text, in one of its spellings.
def AnyMember.Says (m : AnyMember) (key s : String) : Prop :=
  ∃ gs, m.Holds key (quotedText gs) ∧ Glyph.Writes gs s.toList

namespace Target

open QueryParameter (call)

theorem eq_of_parts {first second : Target}
    (h : ∀ slot ∈ target.slots, slot.part first = slot.part second) : first = second := by
  cases first
  cases second
  simpa [slots, required, nullable] using h

-- A query within a frame is all that the frame says and what its member says under the key.
theorem ofJson_around {key : String} (frame : Frame target key) :
    ∃ base : Target, ∀ (m : AnyMember) (query : Target), m.name = key →
      (∀ slot ∈ target.slots,
        (slot.field.key ≠ key → slot.part query = slot.part base) ∧
        (slot.field.key = key →
          (slot.field.within (Decoder.maxDepth - 1)).value.value? m.value =
            some (slot.part query))) →
      ofJson (frame.around m) = .ok query := by
  obtain ⟨base, hbase⟩ := frame.exists_base
  refine ⟨base, fun m query hname hquery => ?_⟩
  obtain ⟨read, hread, hparts⟩ :=
    hbase m hname fun slot hslot hkey => ⟨_, (hquery slot hslot).2 hkey⟩
  have heq : read = query := by
    refine eq_of_parts fun slot hslot => ?_
    by_cases hkey : slot.field.key = key
    · exact Option.some.inj
        (((hparts slot hslot).2 hkey).symm.trans ((hquery slot hslot).2 hkey))
    · exact ((hparts slot hslot).1 hkey).trans ((hquery slot hslot).1 hkey).symm
  rw [← heq]
  exact hread

section Factor

theorem supplied_of_factor (style : LiteralStyle) (base : Target) (n : Number) :
    ({ base with intervalFactor := some n } : Target).supplied style =
      base.argumentsFor style [.format, .legendFormat] ++
        (.intervalFactor, styled style n.text) ::
          base.argumentsFor style [.hide, .instant, .interval] := by
  exact argumentsFor_middle style { base with intervalFactor := some n } (.number rfl)
    [.format, .legendFormat] [.hide, .instant, .interval]

theorem ofJson_factor (frame : Frame target "intervalFactor") :
    ∃ base : Target, ∀ (m : AnyMember) (token : IntegerToken),
      m.Holds "intervalFactor" token.text →
        ofJson (frame.around m) =
          .ok { base with intervalFactor := some (.integer token.value) } := by
  obtain ⟨base, hbase⟩ := ofJson_around frame
  refine ⟨base, fun m token hm => ?_⟩
  obtain ⟨hname, hvalue⟩ := hm
  have hread := Decoder.value?_optional_token token (Decoder.maxDepth - 1)
  rw [← hvalue] at hread
  exact hbase m _ hname (by simp [slots, required, nullable, Field.within, hread])

-- A whole number of at most 64 bits stands in the call of a query as it stands in the text of the
-- query, and numbers that are written in different ways make different calls.
theorem intervalFactor_verbatim (frame : Frame target "intervalFactor") (style : LiteralStyle) :
    ∃ (expr : String) (before behind : List (QueryParameter × String)),
      (∀ (m : AnyMember) (token : IntegerToken), m.Holds "intervalFactor" token.text →
        ∃ query : Target, ofJson (frame.around m) = .ok query ∧
          query.intervalFactor = some (.integer token.value) ∧
          query.fragment style = call expr
            (before ++ (.intervalFactor, styled style (String.ofList token.text)) :: behind)) ∧
      ∀ (m n : AnyMember) (first second : IntegerToken) (query other : Target),
        m.Holds "intervalFactor" first.text → n.Holds "intervalFactor" second.text →
          ofJson (frame.around m) = .ok query → ofJson (frame.around n) = .ok other →
            first.text ≠ second.text → query.fragment style ≠ other.fragment style := by
  obtain ⟨base, hbase⟩ := ofJson_factor frame
  have hcall : ∀ token : IntegerToken,
      ({ base with intervalFactor := some (.integer token.value) } : Target).fragment style =
        call base.expr (base.argumentsFor style [.format, .legendFormat] ++
          (.intervalFactor, styled style (String.ofList token.text)) ::
            base.argumentsFor style [.hide, .instant, .interval]) := by
    intro token
    rw [fragment_eq_call, supplied_of_factor, token.text_integer_value]
  refine ⟨base.expr, base.argumentsFor style [.format, .legendFormat],
    base.argumentsFor style [.hide, .instant, .interval], fun m token hm => ?_, ?_⟩
  · exact ⟨_, hbase m token hm, rfl, hcall token⟩
  · intro m n first second query other hm hn hquery hother hne heq
    rw [hbase m first hm] at hquery
    rw [hbase n second hn] at hother
    obtain rfl := Except.ok.inj hquery
    obtain rfl := Except.ok.inj hother
    -- both calls have the factor in the same place
    rw [hcall, hcall] at heq
    exact hne (String.ofList_inj.mp (styled_injective style (QueryParameter.call_argument_inj heq)))

-- The least and the greatest number that are written as they stand.
theorem intervalFactor_verbatim_at_bounds :
    ∃ (expr : String) (before behind : List (QueryParameter × String)) (low high : Target),
      ofJson "\x7b\"expr\":\"up\",\"intervalFactor\":-9223372036854775808\x7d" = .ok low ∧
      ofJson "\x7b\"expr\":\"up\",\"intervalFactor\":18446744073709551615\x7d" = .ok high ∧
      low.fragment .quoted =
        call expr (before ++ (.intervalFactor, "'-9223372036854775808'") :: behind) ∧
      high.fragment .quoted =
        call expr (before ++ (.intervalFactor, "'18446744073709551615'") :: behind) ∧
      low.fragment .quoted ≠ high.fragment .quoted := by
  let pad : Blanks := ⟨[], by simp⟩
  let up := quotedText (Glyph.raws ['u', 'p'] rfl)
  have hnull : ofJson "\x7b\"expr\":\"up\",\"intervalFactor\":null\x7d" =
      .ok ({ expr := "up" } : Target) := rfl
  let frame : Frame target "intervalFactor" :=
    { before := pad, pad := pad, after := pad, back := []
      front := [.plain "expr" rfl up ⟨0, .string 0 _⟩]
      accepts := ⟨.plain "intervalFactor" rfl "null".toList ⟨0, .null 0⟩, rfl, _, hnull⟩ }
  let member (token : IntegerToken) : AnyMember := .plain "intervalFactor" rfl token.text
    (token.spelling_text ▸ ⟨0, .number 0 token.spelling⟩)
  let least : IntegerToken :=
    { negative := true, digits := ⟨_, wholeDigits_toDigits 9223372036854775808⟩
      plainZero := by decide, low := by decide, high := by decide }
  let greatest : IntegerToken :=
    { negative := false, digits := ⟨_, wholeDigits_toDigits 18446744073709551615⟩
      plainZero := fun _ => rfl, low := by decide, high := by decide }
  have hlowText : styled .quoted (String.ofList least.text) = "'-9223372036854775808'" := by decide
  have hhighText : styled .quoted (String.ofList greatest.text) = "'18446744073709551615'" := by
    decide
  obtain ⟨expr, before, behind, hwritten, hdiffer⟩ := intervalFactor_verbatim frame .quoted
  obtain ⟨low, hlow, -, hleast⟩ := hwritten (member least) least ⟨rfl, rfl⟩
  obtain ⟨high, hhigh, -, hgreatest⟩ := hwritten (member greatest) greatest ⟨rfl, rfl⟩
  rw [hlowText] at hleast
  rw [hhighText] at hgreatest
  have hne := hdiffer (member least) (member greatest) least greatest low high ⟨rfl, rfl⟩ ⟨rfl, rfl⟩
    hlow hhigh (by decide)
  exact ⟨expr, before, behind, low, high, hlow, hhigh, hleast, hgreatest, hne⟩

end Factor

section Expression

theorem ofJson_expr (frame : Frame target "expr") :
    ∃ base : Target, ∀ (m : AnyMember) (s : String), m.Says "expr" s →
      ofJson (frame.around m) = .ok { base with expr := s } := by
  obtain ⟨base, hbase⟩ := ofJson_around frame
  refine ⟨base, fun m s hm => ?_⟩
  obtain ⟨gs, ⟨hname, hvalue⟩, hwrites⟩ := hm
  have hread := Decoder.value?_quotedText hwrites (Decoder.maxDepth - 1)
  rw [← hvalue, String.ofList_toList] at hread
  exact hbase m _ hname (by simp [slots, required, nullable, Field.within, hread])

-- However its characters are spelled, an expression stands between the quotes of the call as it is
-- meant, and calls differ just where their expressions do.
theorem expr_verbatim (frame : Frame target "expr") (style : LiteralStyle) :
    ∃ arguments : List (QueryParameter × String),
      (∀ (m : AnyMember) (s : String), m.Says "expr" s →
        ∃ query : Target, ofJson (frame.around m) = .ok query ∧ query.expr = s ∧
          query.fragment style = call s arguments) ∧
      ∀ (m n : AnyMember) (first second : String) (query other : Target),
        m.Says "expr" first → n.Says "expr" second →
          ofJson (frame.around m) = .ok query → ofJson (frame.around n) = .ok other →
            (query.fragment style = other.fragment style ↔ first = second) := by
  obtain ⟨base, hbase⟩ := ofJson_expr frame
  have hcall : ∀ s : String, ({ base with expr := s } : Target).fragment style =
      call s (base.supplied style) := fun s => fragment_eq_call style { base with expr := s }
  refine ⟨base.supplied style, fun m s hm => ⟨_, hbase m s hm, rfl, hcall s⟩, ?_⟩
  intro m n first second query other hm hn hquery hother
  rw [hbase m first hm] at hquery
  rw [hbase n second hn] at hother
  obtain rfl := Except.ok.inj hquery
  obtain rfl := Except.ok.inj hother
  rw [hcall, hcall]
  exact ⟨QueryParameter.call_expr_inj, fun h => h ▸ rfl⟩

-- A character beyond the codes of four digits by a pair with letters of either case, and as it is,
-- before a quotation mark and the end of a line.
theorem expr_verbatim_at_pair :
    ∃ (arguments : List (QueryParameter × String)) (query other : Target),
      ofJson "\x7b\"expr\":\"\\uD83d\\uDe00\\\"\\n\",\"hide\":false\x7d" = .ok query ∧
      ofJson "\x7b\"expr\":\"😀\\u0022\\u000A\",\"hide\":false\x7d" = .ok other ∧
      query.fragment .quoted = call "😀\"\n" arguments ∧
      query.fragment .quoted = other.fragment .quoted := by
  let pad : Blanks := ⟨[], by simp⟩
  have hempty : ofJson "\x7b\"expr\":\"\",\"hide\":false\x7d" =
      .ok ({ expr := "", hide := some false } : Target) := rfl
  let frame : Frame target "expr" :=
    { before := pad, pad := pad, after := pad, front := []
      back := [.plain "hide" rfl "false".toList ⟨0, .boolean 0 false⟩]
      accepts := ⟨.plain "expr" rfl (quotedText []) ⟨0, .string 0 _⟩, rfl, _, hempty⟩ }
  let member (gs : List Glyph) : AnyMember := .plain "expr" rfl (quotedText gs) ⟨0, .string 0 gs⟩
  have hpair : WritesChar [code ⟨13, true⟩ ⟨8, false⟩ ⟨3, false⟩ ⟨13, false⟩,
      code ⟨13, true⟩ ⟨14, false⟩ ⟨0, false⟩ ⟨0, false⟩] '😀' :=
    .pair (by decide) (by decide) (by decide)
  have hcodes : Writes _ "😀\"\n".toList :=
    .cons hpair (.cons (@WritesChar.short '"' '"' (by decide))
      (.cons (@WritesChar.short 'n' '\n' (by decide)) .nil))
  have hraw : Writes _ "😀\"\n".toList :=
    .cons (.raw (by decide))
      (.cons (@WritesChar.code ⟨0, false⟩ ⟨0, false⟩ ⟨2, false⟩ ⟨2, false⟩ _ rfl)
        (.cons (@WritesChar.code ⟨0, false⟩ ⟨0, false⟩ ⟨0, false⟩ ⟨10, true⟩ _ rfl) .nil))
  obtain ⟨arguments, hwritten, hiff⟩ := expr_verbatim frame .quoted
  obtain ⟨query, hquery, -, hfragment⟩ := hwritten (member _) _ ⟨_, ⟨rfl, rfl⟩, hcodes⟩
  obtain ⟨other, hother, -, -⟩ := hwritten (member _) _ ⟨_, ⟨rfl, rfl⟩, hraw⟩
  have hsame := (hiff (member _) (member _) _ _ query other ⟨_, ⟨rfl, rfl⟩, hcodes⟩
    ⟨_, ⟨rfl, rfl⟩, hraw⟩ hquery hother).mpr rfl
  exact ⟨arguments, query, other, hquery, hother, hfragment, hsame⟩

end Expression

end Target

end DashboardScript
