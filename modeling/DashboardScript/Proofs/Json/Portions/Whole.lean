import DashboardScript.Proofs.Json.Portions.Decoders
import DashboardScript.Proofs.Json.Positions

namespace DashboardScript.Json

open Reader
open Text (utf8Length)

namespace Reader

variable {text : List Char}

theorem finish_of_blanks (h : ∀ c ∈ text, isBlank c) : finish text = .ok ((), []) :=
  peekToken_bind_blank h

theorem finish_of_token {pad tail : List Char} {c : Char} (hpad : ∀ c ∈ pad, isBlank c)
    (hblank : isBlank c = false) :
    finish (pad ++ c :: tail) = .error ⟨.trailingCharacters, utf8Length (c :: tail), true⟩ :=
  peekToken_bind_append hpad rfl hblank

theorem blanks_of_finish {rest : List Char} {u : Unit} (h : finish text = .ok (u, rest)) :
    ∀ c ∈ text, isBlank c := by
  rcases blanks_or_token text with hpad | ⟨pad, c, tail, rfl, hpad, hblank⟩
  · exact hpad
  · rw [finish_of_token hpad hblank] at h
    cases h

end Reader

namespace Decoder

variable {α : Type} {decoder : Decoder α}

-- What is decoded from a text is read from its front, and only blanks are left.
theorem decode_eq_ok_iff {text : String} {a : α} :
    decoder.decode text = .ok a ↔
      ∃ rest, decoder maxDepth text.toList = .ok (a, rest) ∧ ∀ c ∈ rest, isBlank c := by
  constructor
  · intro h
    rw [decode, parse] at h
    split at h
    case h_2 => cases h
    case h_1 b rest hrun =>
      obtain rfl := Except.ok.inj h
      obtain ⟨a, mid, hread, hmid⟩ := exists_of_bind_ok hrun
      obtain ⟨u, behind, hfinish, hbehind⟩ := exists_of_bind_ok hmid
      obtain ⟨rfl, -⟩ := Prod.mk.inj (Except.ok.inj hbehind)
      exact ⟨mid, hread, blanks_of_finish hfinish⟩
  · rintro ⟨rest, hread, hrest⟩
    rw [decode, parse, bind_of_ok _ hread, bind_of_ok _ (finish_of_blanks hrest), pure_run]

theorem decode_of_endsEarly {text : String} (h : EndsEarly (decoder maxDepth) text.toList) :
    ∃ e inside, decoder.decode text = .error e ∧ e.cause = .ended inside := by
  obtain ⟨f, inside, hrun, hcause⟩ := h.bind fun a => do
    finish
    pure a
  refine ⟨f.error text.toList, inside, ?_, hcause⟩
  rw [decode, parse, hrun]

-- Behind a whole text there may be blanks. Anything else is refused where it begins.
theorem decode_append (h : Sequential false .outside .outside (decoder maxDepth)) {text : String}
    {a : α} (htext : decoder.decode text = .ok a) (more : String) :
    decoder.decode (text ++ more) =
      if more.toList.all isBlank then .ok a
      else .error ⟨.trailingCharacters,
        .behind (text.toList ++ more.toList.takeWhile isBlank)⟩ := by
  obtain ⟨rest, hread, hrest⟩ := decode_eq_ok_iff.mp htext
  obtain ⟨chunk, hchunk, hportion, -⟩ := h _ _ _ hread
  have hagain : decoder maxDepth (text ++ more).toList = .ok (a, rest ++ more.toList) := by
    rw [String.toList_append, hchunk, List.append_assoc]
    refine (hportion.again _ nofun).resolve_right ?_
    rintro ⟨hshort, -⟩
    simp only [List.length_append] at hshort
    omega
  split
  case isTrue hmore =>
    refine decode_eq_ok_iff.mpr ⟨_, hagain, fun c hc => ?_⟩
    rcases List.mem_append.mp hc with hc | hc
    · exact hrest c hc
    · exact List.all_eq_true.mp hmore c hc
  case isFalse hmore =>
    rcases blanks_or_token more.toList with hpad | ⟨pad, c, tail, hcore, hpad, hblank⟩
    · exact absurd (List.all_eq_true.mpr hpad) hmore
    · have hline : c ≠ '\n' := by
        rintro rfl
        cases hblank
      have hpads : ∀ c ∈ rest ++ pad, isBlank c := List.forall_mem_append.mpr ⟨hrest, hpad⟩
      have htoList : (text ++ more).toList = (text.toList ++ pad) ++ c :: tail := by
        rw [String.toList_append, hcore, List.append_assoc]
      rw [hcore, ← List.append_assoc] at hagain
      have hrun : (do let a ← decoder maxDepth; finish; pure a : Reader α) (text ++ more).toList =
          .error ⟨.trailingCharacters, utf8Length (c :: tail), true⟩ := by
        refine (bind_of_ok _ hagain).trans ?_
        simp only [bind, StateT.bind, finish_of_token hpads hblank, Except.bind]
      rw [decode, parse, hrun, hcore, takeWhile_blanks hpad hblank]
      dsimp only
      rw [htoList, Failure.error_next hline]

-- A text that is accepted is not one with its end cut off, unless that end is blank.
theorem decode_cut (h : Sequential false .outside .outside (decoder maxDepth)) {front back : String}
    {a : α} (htext : decoder.decode (front ++ back) = .ok a)
    (hback : ∃ c ∈ back.toList, isBlank c = false) : ∃ e, decoder.decode front = .error e := by
  cases hfront : decoder.decode front with
  | error e => exact ⟨e, rfl⟩
  | ok b =>
      obtain ⟨c, hc, hblank⟩ := hback
      have hall : ¬back.toList.all isBlank := fun hall => by
        rw [List.all_eq_true.mp hall c hc] at hblank
        cases hblank
      rw [decode_append h hfront, if_neg hall] at htext
      cases htext

-- Where a text is cut that ends with no blank, what is in front of the cut either ends early or
-- ends with the beginning of a number.
theorem endsEarly_or_cutsNumber (h : Sequential false .outside .outside (decoder maxDepth))
    {front back : String} {a : α} (htext : decoder.decode (front ++ back) = .ok a) {c : Char}
    (hlast : back.toList.getLast? = some c) (hblank : isBlank c = false) :
    EndsEarly (decoder maxDepth) front.toList ∨ CutsNumber .outside front.toList back.toList := by
  obtain ⟨rest, hread, hrest⟩ := decode_eq_ok_iff.mp htext
  obtain ⟨chunk, hchunk, hportion, hstart⟩ := h _ _ _ hread
  rw [String.toList_append] at hchunk
  have hnil : rest = [] := by
    have hwhole := congrArg List.getLast? hchunk
    rw [List.getLast?_append, List.getLast?_append, hlast] at hwhole
    cases hend : rest.getLast? with
    | none => exact List.getLast?_eq_none_iff.mp hend
    | some d =>
        rw [hend] at hwhole
        obtain rfl := Option.some.inj hwhole
        exact absurd (hrest c (List.mem_of_getLast? hend)) (by simp [hblank])
  subst hnil
  rw [List.append_nil] at hchunk
  have hcut : Cut .outside (decoder maxDepth) a front.toList back.toList := by
    cases hfront : front.toList with
    | nil =>
        rw [hfront, List.nil_append] at hchunk
        exact hchunk ▸ hstart
    | cons d more => exact hportion.cut _ _ (List.cons_ne_nil d more) (hfront ▸ hchunk.symm)
  rcases hcut with ⟨hnil, -⟩ | hends | hnumber
  · rw [hnil] at hlast
    cases hlast
  · exact .inl hends
  · exact .inr hnumber

end Decoder

end DashboardScript.Json
