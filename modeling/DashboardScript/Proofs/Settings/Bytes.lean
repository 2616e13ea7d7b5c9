import DashboardScript.Proofs.Conversion.Trace
import DashboardScript.Settings.Load

-- The bytes of a text that begins with a character of one byte.
namespace DashboardScript.Settings

section Lists

theorem toList_loop_eq (bytes : ByteArray) (i : Nat) (taken : List UInt8) :
    ByteArray.toList.loop bytes i taken = taken.reverse ++ bytes.data.toList.drop i := by
  fun_induction ByteArray.toList.loop bytes i taken with
  | case1 i taken h ih =>
      have hi : i < bytes.data.toList.length := h
      have hget : bytes.get! i = bytes.data.toList[i] := by simp [ByteArray.get!, h]
      rw [ih, List.drop_eq_getElem_cons hi, hget, List.reverse_cons, List.append_assoc]
      rfl
  | case2 i taken h =>
      rw [List.drop_eq_nil_of_le (by simpa using h), List.append_nil]

theorem toList_eq (bytes : ByteArray) : bytes.toList = bytes.data.toList := toList_loop_eq bytes 0 []

end Lists

-- The first character, if there is one, takes a single byte.
def Narrow (text : List Char) : Prop := ∀ c ∈ text.head?, c.toNat < 128

section Narrow

variable {first second : List Char}

theorem narrow_nil : Narrow [] := by
  rintro _ ⟨⟩

theorem narrow_cons {c : Char} (h : c.toNat < 128) (rest : List Char) : Narrow (c :: rest) := by
  rintro _ ⟨⟩
  exact h

theorem narrow_append (hfirst : ∀ c ∈ first, c.toNat < 128) (hsecond : Narrow second) :
    Narrow (first ++ second) := by
  cases first with
  | nil => exact hsecond
  | cons c first => exact narrow_cons (hfirst c List.mem_cons_self) _

theorem Narrow.ne_mark (h : Narrow first) : first.head? ≠ some '\ufeff' := fun heq =>
  absurd (h '\ufeff' heq) (by decide)

-- Such a text has no byte-order mark.
theorem dropMark_toUTF8 (h : Narrow first) :
    dropMark (String.ofList first).toUTF8 = (String.ofList first).toUTF8 := by
  refine if_neg fun hmark => ?_
  rw [toList_eq] at hmark
  cases first with
  | nil => cases hmark
  | cons c rest =>
      have hc : c.toNat < 128 := h c rfl
      have hbytes : (String.ofList (c :: rest)).toUTF8 =
          (UInt8.ofNat c.toNat :: rest.flatMap String.utf8EncodeChar).toByteArray := by
        have hencode : String.utf8EncodeChar c = [UInt8.ofNat c.toNat] :=
          if_pos (show c.val.toNat ≤ 127 from Nat.le_of_lt_succ hc)
        rw [String.toUTF8, String.toByteArray_ofList, List.utf8Encode, List.flatMap_cons, hencode]
        rfl
      have hfirst : UInt8.ofNat c.toNat = 0xef := by
        rw [hbytes] at hmark
        simpa using congrArg List.head? hmark
      have hsize : c.toNat < UInt8.size := Nat.lt_trans hc (by decide)
      have hnat : c.toNat = 0xef := by
        rw [← UInt8.toNat_ofNat_of_lt' hsize, hfirst]
        rfl
      omega

theorem ofBytes_toUTF8 (h : Narrow first)
    (entries : String → Except Fault (List (String × Tree))) :
    ofBytes entries (String.ofList first).toUTF8 = ofText entries (String.ofList first) := by
  rw [ofBytes, dropMark_toUTF8 h, Text.ofBytes, Conversion.fromUTF8?_toUTF8]

end Narrow

end DashboardScript.Settings
