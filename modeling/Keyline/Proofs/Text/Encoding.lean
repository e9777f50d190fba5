import Keyline.Text.Utf8

/-!
# Texts and their bytes

The bytes that read as a text are those it is written with, and no others. A byte below 0x80 stands
for its own character only: it is never part of a longer one.
-/
namespace Keyline.Utf8

theorem le_or_right (a b : UInt8) : b ≤ a ||| b := by
  rw [UInt8.le_iff_toNat_le, UInt8.toNat_or]
  exact Nat.right_le_or

theorem eq_singleton_of_mem {b : UInt8} {c : Char} (hb : b < 0x80)
    (h : b ∈ String.utf8EncodeChar c) : String.utf8EncodeChar c = [b] := by
  -- every byte of a longer character has its highest bit set
  have high (a m : UInt8) (hm : 0x80 ≤ m) : b ≠ a ||| m := by
    rintro rfl
    exact absurd (UInt8.le_trans hm (le_or_right a m)) (UInt8.not_le.2 hb)
  have hpos := c.utf8Size_pos
  have hle := c.utf8Size_le_four
  obtain hs | hs | hs | hs : c.utf8Size = 1 ∨ c.utf8Size = 2 ∨ c.utf8Size = 3 ∨ c.utf8Size = 4 := by
    omega
  · rw [String.utf8EncodeChar_eq_singleton hs, List.mem_singleton] at h
    rw [String.utf8EncodeChar_eq_singleton hs, h]
  · rw [String.utf8EncodeChar_eq_cons_cons hs] at h
    simp [high] at h
  · rw [String.utf8EncodeChar_eq_cons_cons_cons hs] at h
    simp [high] at h
  · rw [String.utf8EncodeChar_eq_cons_cons_cons_cons hs] at h
    simp [high] at h

theorem utf8EncodeChar_injective {c d : Char}
    (h : String.utf8EncodeChar c = String.utf8EncodeChar d) : c = d := by
  have hc := next?_append c []
  rw [h, next?_append d []] at hc
  simpa using hc.symm

theorem eq_of_mem_utf8EncodeChar {b : UInt8} {c d : Char} (hb : b < 0x80)
    (hd : String.utf8EncodeChar d = [b]) (h : b ∈ String.utf8EncodeChar c) : c = d :=
  utf8EncodeChar_injective ((eq_singleton_of_mem hb h).trans hd.symm)

/-- The byte of an ASCII character occurs where the character does. -/
theorem mem_encodeChars_iff {b : UInt8} {d : Char} (hb : b < 0x80)
    (hd : String.utf8EncodeChar d = [b]) {cs : List Char} : b ∈ encodeChars cs ↔ d ∈ cs := by
  rw [encodeChars, List.mem_flatMap]
  constructor
  · rintro ⟨c, hc, h⟩
    exact eq_of_mem_utf8EncodeChar hb hd h ▸ hc
  · intro h
    exact ⟨d, h, by rw [hd]; exact List.mem_singleton_self b⟩

theorem encodeChars_concat (cs : List Char) (c : Char) :
    encodeChars (cs ++ [c]) = encodeChars cs ++ String.utf8EncodeChar c := by
  simp [encodeChars]

theorem getLast?_encodeChars_iff {b : UInt8} {d : Char} (hb : b < 0x80)
    (hd : String.utf8EncodeChar d = [b]) {cs : List Char} :
    (encodeChars cs).getLast? = some b ↔ cs.getLast? = some d := by
  rcases List.eq_nil_or_concat cs with rfl | ⟨cs, c, rfl⟩
  · simp [encodeChars]
  · have hne : String.utf8EncodeChar c ≠ [] := by simp
    rw [List.concat_eq_append, encodeChars_concat, List.getLast?_concat, Option.some_inj,
      List.getLast?_append, List.getLast?_eq_some_getLast hne, Option.some_or, Option.some_inj]
    constructor
    · intro h
      exact eq_of_mem_utf8EncodeChar hb hd (h ▸ List.getLast_mem hne)
    · rintro rfl
      simp [hd]

theorem eq_append_of_next? {bs rest : Bytes} {c : Char} (h : next? bs = some (c, rest)) :
    bs = String.utf8EncodeChar c ++ rest := by
  obtain ⟨d, hd, hp⟩ := Option.map_eq_some_iff.1 h
  obtain ⟨rfl, rfl⟩ := Prod.mk.inj hp
  obtain ⟨l, hl⟩ := ByteArray.exists_of_utf8DecodeChar?_eq_some hd
  have hl' : l = l.data.toList.toByteArray := by
    apply ByteArray.ext
    simp
  rw [hl', ← List.toByteArray_append, List.toByteArray_inj] at hl
  have hbs : bs = String.utf8EncodeChar d ++ (l.data.toList ++ bs.drop 4) := by
    rw [← List.append_assoc, ← hl, List.take_append_drop]
  have hdrop := congrArg (List.drop (String.utf8EncodeChar d).length) hbs
  rw [List.drop_left, String.length_utf8EncodeChar] at hdrop
  rwa [hdrop]

theorem encodeChars_split (bs : Bytes) : encodeChars (split bs).1 ++ (split bs).2 = bs := by
  induction bs using split.induct with
  | case1 bs h =>
    rw [split]
    split
    · rfl
    · next h' => simp [h] at h'
  | case2 bs c rest h cs bad hs ih =>
    obtain rfl := eq_append_of_next? h
    rw [split_append]
    rw [hs] at ih
    simpa [encodeChars, hs] using ih

theorem decode?_eq_some_iff {bs : Bytes} {s : String} : decode? bs = some s ↔ bs = encode s := by
  constructor
  · intro h
    have hbs := encodeChars_split bs
    rw [decode?] at h
    split at h
    · next cs hs =>
      cases h
      rw [hs] at hbs
      simpa [encode] using hbs.symm
    · simp at h
  · rintro rfl
    exact decode?_encode s

theorem decodeLossy_encodeChars (cs : List Char) : decodeLossy (encodeChars cs) = cs := by
  induction cs with
  | nil =>
    rw [decodeLossy]
    split
    · next h => simp [encodeChars, next?_nil] at h
    · simp [encodeChars]
  | cons c cs ih =>
    have hc : encodeChars (c :: cs) = String.utf8EncodeChar c ++ encodeChars cs := rfl
    rw [hc, decodeLossy]
    split
    · next h =>
      rw [next?_append] at h
      cases h
      rw [ih]
    · next h => simp at h

end Keyline.Utf8
