import DashboardScript.Proofs.Dashboard.Acceptance
import DashboardScript.Proofs.Json.Portions.Whole

namespace DashboardScript

open Json Json.Grammar Json.Reader Json.Decoder

theorem RecordType.sequential_decoder (r : RecordType) (room : Nat) :
    Sequential false .outside .outside (r.shape.decoder room) :=
  Shape.sequential_decoder (r.every_fields closed_orderly) room

theorem exists_last_of_append {front back : String} (hback : back ≠ "")
    (hlast : ∀ c ∈ (front ++ back).toList.getLast?, c ∉ [' ', '\t', '\n', '\r']) :
    ∃ c, back.toList.getLast? = some c ∧ isBlank c = false := by
  obtain ⟨c, hc⟩ : ∃ c, back.toList.getLast? = some c := by
    rw [← Option.isSome_iff_exists, List.getLast?_isSome]
    exact fun hnil => hback (String.toList_injective hnil)
  have hlast := hlast c (by rw [String.toList_append, List.getLast?_append, hc]; rfl)
  exact ⟨c, hc, Bool.eq_false_iff.mpr (mt isBlank_iff.mp hlast)⟩

namespace Dashboard

-- The text of a dashboard ends where it is complete. Behind it there may be blanks, and anything
-- else is refused at its first byte. So a text that ends with no blank is not accepted without its
-- end.
theorem ofJson_ends {text : String} {d : Dashboard} (h : ofJson text = .ok d) :
    (∀ pad : Blanks, ofJson (text ++ String.ofList pad.val) = .ok d) ∧
    (∀ more : String, (∃ c ∈ more.toList, c ∉ [' ', '\t', '\n', '\r']) →
      ∃ (pad : Blanks) (c : Char) (tail : List Char), more.toList = pad.val ++ c :: tail ∧
        c ∉ [' ', '\t', '\n', '\r'] ∧
        ∃ e, ofJson (text ++ more) = .error e ∧ e.cause = .trailingCharacters ∧
          e.cause.category = .syntactic ∧ e.position = .behind (text.toList ++ pad.val)) ∧
    ∀ front back : String, front ++ back = text → back ≠ "" →
      (∀ c ∈ text.toList.getLast?, c ∉ [' ', '\t', '\n', '\r']) →
        ∃ e, ofJson front = .error e := by
  have hsequential := RecordType.dashboard.sequential_decoder maxDepth
  have happend := decode_append hsequential h
  refine ⟨fun pad => ?_, fun more hmore => ?_, fun front back htext hback hlast => ?_⟩
  · have hpad := happend (String.ofList pad.val)
    rwa [String.toList_ofList, if_pos (List.all_eq_true.mpr fun _ => isBlank_of_mem)] at hpad
  · obtain ⟨c, hc, hblank⟩ := hmore
    rcases blanks_or_token more.toList with hpad | ⟨pad, c, tail, hsplit, hpad, hblank⟩
    · exact absurd (isBlank_iff.mp (hpad c hc)) hblank
    · have hall : ¬more.toList.all isBlank := by simp [hsplit, hblank]
      have herror := happend more
      rw [if_neg hall, hsplit, takeWhile_blanks hpad hblank] at herror
      refine ⟨⟨pad, fun c hc => isBlank_iff.mp (hpad c hc)⟩, c, tail, hsplit, ?_, _, herror, rfl,
        rfl, rfl⟩
      rw [← isBlank_iff, hblank]
      exact Bool.false_ne_true
  · subst htext
    obtain ⟨c, hc, hblank⟩ := exists_last_of_append hback hlast
    exact decode_cut hsequential h ⟨c, List.mem_of_getLast? hc, hblank⟩

-- A complete array, with blanks behind it, with a bracket on the next line, and cut short.
theorem ofJson_ends_at_title :
    ofJson "[\"x\"]" = .ok { title := some "x" } ∧
    ofJson ("[\"x\"]" ++ String.ofList [' ', '\n']) = .ok { title := some "x" } ∧
    (∃ (pad : Blanks) (c : Char) (tail : List Char), " \n ]".toList = pad.val ++ c :: tail ∧
      c ∉ [' ', '\t', '\n', '\r'] ∧
      ∃ e, ofJson ("[\"x\"]" ++ " \n ]") = .error e ∧ e.cause = .trailingCharacters ∧
        e.cause.category = .syntactic ∧ e.position = .behind ("[\"x\"]".toList ++ pad.val)) ∧
    ∃ e, ofJson "[\"x\"" = .error e := by
  have hwhole : ofJson "[\"x\"]" = .ok { title := some "x" } := rfl
  obtain ⟨hblanks, hmore, hfront⟩ := ofJson_ends hwhole
  refine ⟨hwhole, hblanks ⟨[' ', '\n'], by simp⟩, hmore " \n ]" ⟨']', by decide, by decide⟩, ?_⟩
  exact hfront "[\"x\"" "]" rfl (by decide) (by simp)

end Dashboard

end DashboardScript
