import Concordance.Text.Utf8

namespace Concordance

theorem toList_loop_eq (bytes : ByteArray) (i : Nat) (taken : List UInt8) :
    ByteArray.toList.loop bytes i taken = taken.reverse ++ bytes.data.toList.drop i := by
  have hs : bytes.data.size = bytes.size := rfl
  induction hk : bytes.size - i generalizing i taken with
  | zero =>
    rw [ByteArray.toList.loop, if_neg (by omega), List.drop_eq_nil_of_le (by simp; omega)]
    simp
  | succ k ih =>
    have hi : i < bytes.data.size := by omega
    have hg : bytes.get! i = bytes.data[i] := getElem!_pos bytes.data i hi
    have hd : bytes.data.toList.drop i = bytes.data[i] :: bytes.data.toList.drop (i + 1) :=
      List.drop_eq_getElem_cons (by simpa using hi)
    rw [ByteArray.toList.loop, if_pos (by omega), ih (i + 1) _ (by omega), hg, hd]
    simp

theorem encodeText_eq (s : String) : encodeText s = s.toByteArray.data.toList := by
  rw [encodeText, ByteArray.toList, toList_loop_eq]
  simp

theorem decodeText?_eq_some {bytes : List UInt8} {s : String} :
    decodeText? bytes = some s ↔ encodeText s = bytes := by
  rw [encodeText_eq]
  unfold decodeText? String.fromUTF8?
  constructor
  · intro h
    split at h
    · cases h
      rfl
    · cases h
  · rintro rfl
    exact dif_pos s.isValidUTF8

theorem decodeText?_encodeText (s : String) : decodeText? (encodeText s) = some s :=
  decodeText?_eq_some.2 rfl

theorem spell_encodeText (s : String) : spell (encodeText s) = spellText s := by
  rw [spell, decodeText?_encodeText]

theorem encodeText_append (s t : String) : encodeText (s ++ t) = encodeText s ++ encodeText t := by
  simp [encodeText_eq, String.toByteArray_append]

theorem encodeText_singleton (c : Char) :
    encodeText (String.ofList [c]) = String.utf8EncodeChar c := by
  simp [encodeText_eq, List.utf8Encode]

theorem eq_newline_of_getLast? {c : Char} (h : (String.utf8EncodeChar c).getLast? = some 10) :
    c = '\n' := by
  unfold String.utf8EncodeChar at h
  have hbyte : ∀ n : Nat, UInt8.ofNat n = 10 → n % 256 = 10 := fun n hn => by
    simpa using congrArg UInt8.toNat hn
  have hlow : ∀ n : Nat, UInt8.ofNat (n % 64 + 128) ≠ 10 := fun n hn => by
    have := hbyte _ hn
    omega
  dsimp only at h
  split at h
  · have hn := hbyte _ (Option.some.inj h)
    have hc : c.toNat = '\n'.toNat := by
      show c.val.toNat = 10
      omega
    exact Char.toNat_inj.1 hc
  · split at h
    · exact absurd (Option.some.inj h) (hlow _)
    · split at h
      · exact absurd (Option.some.inj h) (hlow _)
      · exact absurd (Option.some.inj h) (hlow _)

theorem decodeText?_newline (bytes : List UInt8) :
    decodeText? (bytes ++ [10]) = (decodeText? bytes).map (· ++ "\n") := by
  refine Option.ext fun t => ?_
  simp only [Option.map_eq_some_iff, decodeText?_eq_some]
  constructor
  · intro h
    rcases List.eq_nil_or_concat t.toList with hn | ⟨cs, c, hc⟩
    · have ht : t = "" := by simpa using hn
      rw [ht, encodeText_eq] at h
      simp at h
    · have ht : t = String.ofList cs ++ String.ofList [c] := by
        rw [← String.ofList_append, ← List.concat_eq_append, ← hc, String.ofList_toList]
      rw [ht, encodeText_append, encodeText_singleton] at h
      have hl : (String.utf8EncodeChar c).getLast? = some 10 := by
        have hl := congrArg List.getLast? h
        rwa [List.getLast?_concat, List.getLast?_append,
          List.getLast?_eq_some_getLast String.utf8EncodeChar_ne_nil, Option.some_or,
          ← List.getLast?_eq_some_getLast] at hl
      obtain rfl := eq_newline_of_getLast? hl
      exact ⟨String.ofList cs, (List.append_inj' h rfl).1, ht.symm⟩
  · rintro ⟨s, rfl, rfl⟩
    rw [encodeText_append]
    exact congrArg _ (encodeText_singleton '\n')

end Concordance
