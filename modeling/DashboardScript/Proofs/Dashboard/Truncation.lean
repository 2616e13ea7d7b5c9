import DashboardScript.Proofs.Dashboard.Ending
import DashboardScript.Proofs.Json.Sufficing.Decoders

namespace DashboardScript

open Json Json.Grammar Json.Reader Json.Decoder

theorem RecordType.decisive_decoder (r : RecordType) : r.shape.decoder.Decisive :=
  Shape.decisive_decoder (r.every_fields closed_decisive)

-- A cut right behind a quote goes through no number.
theorem Json.CutsNumber.ne_quote {start : Spot} {front back : List Char}
    (h : CutsNumber start front back) : ∀ c ∈ front.getLast?, c ≠ '"' := by
  cases h with
  | @mk n before head tail behind _ htext hhead _ =>
      intro c hc
      obtain ⟨d, hd⟩ := Option.isSome_iff_exists.mp (List.getLast?_isSome.mpr hhead)
      rw [List.getLast?_append, hd, Option.some_or] at hc
      obtain rfl := Option.some.inj hc
      refine text_ne_quote n d ?_
      rw [htext]
      exact List.mem_append_left tail (List.mem_of_getLast? hd)

theorem Json.Cause.message_ended (inside : Enclosure) :
    (Cause.ended inside).message = "EOF while parsing " ++ inside.phrase := rfl

theorem Json.Error.message_of_ended {e : Json.Error} {inside : Enclosure}
    (h : e.cause = .ended inside) : ∃ more, e.message = "EOF while parsing " ++ more := by
  rw [Json.Error.message, h, Cause.message_ended, String.append_assoc, String.append_assoc,
    String.append_assoc, String.append_assoc]
  exact ⟨_, rfl⟩

namespace Dashboard

-- Without its end the text of a dashboard is refused, for being too short unless a number is cut. A
-- whole value is never too short, whether it is a dashboard or not.
theorem ofJson_truncated :
    (∀ (text : String) (d : Dashboard), ofJson text = .ok d →
      (∀ c ∈ text.toList.getLast?, c ∉ [' ', '\t', '\n', '\r']) →
        ∀ front back : String, front ++ back = text → back ≠ "" →
          ∃ e, ofJson front = .error e ∧
            (¬CutsNumber .outside front.toList back.toList →
              e.cause.category = .truncated ∧ ∃ more, e.message = "EOF while parsing " ++ more)) ∧
    ∀ (depth : Nat) (text : List Char), IsValue depth text →
      ∀ (before after : Blanks) (e : Json.Error),
        ofJson (String.ofList (before.val ++ (text ++ after.val))) = .error e →
          e.cause.category ≠ .truncated := by
  constructor
  · rintro _ d h hlast front back rfl hback
    have hsequential := RecordType.dashboard.sequential_decoder maxDepth
    obtain ⟨c, hc, hblank⟩ := exists_last_of_append hback hlast
    obtain ⟨e, he⟩ := decode_cut hsequential h ⟨c, List.mem_of_getLast? hc, hblank⟩
    refine ⟨e, he, fun hnumber => ?_⟩
    have hends := (endsEarly_or_cutsNumber hsequential h hc hblank).resolve_right hnumber
    obtain ⟨_, inside, hended, hcause⟩ := decode_of_endsEarly hends
    obtain rfl := Except.error.inj (he.symm.trans hended)
    exact ⟨by rw [hcause]; rfl, Error.message_of_ended hcause⟩
  · intro depth text hvalue before after e
    exact decode_not_truncated RecordType.dashboard.decisive_decoder hvalue before after

-- A text that is cut within a string is too short. One that is cut within a number is refused, too.
theorem ofJson_truncated_at_title :
    ofJson "[\"x\",15]" = .ok { title := some "x", schemaVersion := some 15 } ∧
    (∃ e, ofJson "[\"" = .error e ∧ e.cause.category = .truncated ∧
      ∃ more, e.message = "EOF while parsing " ++ more) ∧
    (∃ e, ofJson "[\"x\",1" = .error e) ∧
    ∃ e, ofJson (String.ofList ([' '] ++ ("true".toList ++ [' ']))) = .error e ∧
      e.cause.category ≠ .truncated := by
  have hwhole : ofJson "[\"x\",15]" = .ok { title := some "x", schemaVersion := some 15 } := rfl
  have hcut := ofJson_truncated.1 _ _ hwhole (by simp)
  refine ⟨hwhole, ?_, ?_, _, rfl,
    ofJson_truncated.2 0 _ (.boolean 0 true) ⟨[' '], by simp⟩ ⟨[' '], by simp⟩ _ rfl⟩
  · obtain ⟨e, he, hshort⟩ := hcut "[\"" "x\",15]" rfl (by decide)
    exact ⟨e, he, hshort fun hnumber => hnumber.ne_quote '"' (by decide) rfl⟩
  · obtain ⟨e, he, -⟩ := hcut "[\"x\",1" "5]" rfl (by decide)
    exact ⟨e, he⟩

end Dashboard

end DashboardScript
