import Keyline.AppendLog
import Keyline.Client
import Keyline.Proofs.Text.Encoding

/-!
# Lines and what they stand for

A text without a line feed is one line, and lines put one behind the other are cut apart where they
were joined. Of such a text a carriage return at the end is all that may get lost on the way.
-/
namespace Keyline

/-- Takes off one carriage return at the end of a text. -/
def chomp (s : String) : String :=
  if s.toList.getLast? = some '\r' then String.ofList s.toList.dropLast else s

theorem not_mem_chomp {c : Char} {s : String} (h : c ∉ s.toList) : c ∉ (chomp s).toList := by
  rw [chomp]
  split
  · rw [String.toList_ofList]
    exact fun hc => h (List.dropLast_subset _ hc)
  · exact h

namespace Utf8

theorem lineFeed_mem_encode_iff {s : String} : Wire.lineFeed ∈ encode s ↔ '\n' ∈ s.toList :=
  mem_encodeChars_iff (by decide) (by decide)

theorem lineFeed_not_mem_encode {s : String} (h : '\n' ∉ s.toList) :
    Wire.lineFeed ∉ encode s := by
  rw [lineFeed_mem_encode_iff]
  exact h

theorem not_mem_of_decode? {bs : Bytes} {s : String} (h : decode? bs = some s)
    (hbs : Wire.lineFeed ∉ bs) : '\n' ∉ s.toList := by
  rw [decode?_eq_some_iff.1 h, lineFeed_mem_encode_iff] at hbs
  exact hbs

end Utf8

namespace Wire

theorem trim_encode (s : String) : trim (Utf8.encode s) = Utf8.encode (chomp s) := by
  have hlast : (Utf8.encode s).getLast? = some carriageReturn ↔ s.toList.getLast? = some '\r' :=
    Utf8.getLast?_encodeChars_iff (by decide) (by decide)
  rw [trim, chomp]
  by_cases h : s.toList.getLast? = some '\r'
  · obtain ⟨cs, hcs⟩ := List.getLast?_eq_some_iff.1 h
    have hr : String.utf8EncodeChar '\r' = [carriageReturn] := by decide
    rw [if_pos (hlast.2 h), if_pos h, Utf8.encode, hcs, Utf8.encodeChars_concat, hr,
      List.dropLast_concat, List.dropLast_concat, Utf8.encode, String.toList_ofList]
  · rw [if_neg (not_congr hlast |>.2 h), if_neg h]

theorem not_mem_trim {b : UInt8} {line : Bytes} (h : b ∉ line) : b ∉ trim line := by
  rw [trim]
  split
  · exact fun hb => h (List.dropLast_subset _ hb)
  · exact h

theorem cut_append {l : Bytes} (h : lineFeed ∉ l) (r : Bytes) :
    cut (l ++ lineFeed :: r) = (l, some r) := by
  induction l with
  | nil => simp [cut]
  | cons b l ih =>
    obtain ⟨hb, hl⟩ : lineFeed ≠ b ∧ lineFeed ∉ l := by simpa using h
    rw [List.cons_append, cut, if_neg (Ne.symm hb), ih hl]

/-- A cut takes a stream apart at its first line feed, or finds none. -/
theorem cut_spec (s : Bytes) : lineFeed ∉ (cut s).1 ∧
    ((cut s).2 = none ∧ s = (cut s).1 ∨
      ∃ r, (cut s).2 = some r ∧ s = (cut s).1 ++ lineFeed :: r) := by
  induction s with
  | nil => simp [cut]
  | cons b s ih =>
    rw [cut]
    split
    · next h => simp [h]
    · next h =>
      obtain ⟨hl, hr⟩ := ih
      refine ⟨by simp [hl, Ne.symm h], ?_⟩
      rcases hr with ⟨hn, hs⟩ | ⟨r, hr, hs⟩
      · exact .inl ⟨hn, congrArg (b :: ·) hs⟩
      · exact .inr ⟨r, hr, congrArg (b :: ·) hs⟩

theorem lines_append {l : Bytes} (h : lineFeed ∉ l) (r : Bytes) :
    lines (l ++ lineFeed :: r) = l :: lines r := by
  induction l with
  | nil => simp [lines]
  | cons b l ih =>
    obtain ⟨hb, hl⟩ : lineFeed ≠ b ∧ lineFeed ∉ l := by simpa using h
    rw [List.cons_append, lines, if_neg (Ne.symm hb), ih hl]

theorem lines_rest {l : Bytes} (h : lineFeed ∉ l) (h0 : l ≠ []) : lines l = [l] := by
  induction l with
  | nil => exact absurd rfl h0
  | cons b l ih =>
    obtain ⟨hb, hl⟩ : lineFeed ≠ b ∧ lineFeed ∉ l := by simpa using h
    rw [lines, if_neg (Ne.symm hb)]
    by_cases hn : l = []
    · subst hn
      rfl
    · rw [ih hl hn]

theorem whole_frame (s : String) : whole (frame s) = (frame s, []) := by
  rw [frame]
  induction Utf8.encode s with
  | nil => simp [whole]
  | cons b l ih => simp [whole, ih]

theorem line_eq_frame (raw : String) : AppendLog.line raw = frame raw := by
  rw [AppendLog.line, Utf8.encode_append, frame]
  congr 1

theorem lines_flatMap {ls : List Bytes} (h : ∀ l ∈ ls, lineFeed ∉ l) :
    lines (ls.flatMap (· ++ [lineFeed])) = ls := by
  induction ls with
  | nil => rfl
  | cons l ls ih =>
    obtain ⟨hl, hls⟩ := List.forall_mem_cons.1 h
    rw [List.flatMap_cons, List.append_assoc, List.singleton_append, lines_append hl, ih hls]

/-- Texts that were framed one after the other are cut apart again. -/
theorem lines_flatMap_frame {ss : List String} (h : ∀ s ∈ ss, '\n' ∉ s.toList) :
    lines (ss.flatMap frame) = ss.map Utf8.encode := by
  have hss : ss.flatMap frame = (ss.map Utf8.encode).flatMap (· ++ [lineFeed]) := by
    rw [List.flatMap_map]
    rfl
  rw [hss, lines_flatMap]
  intro l hl
  obtain ⟨s, hs, rfl⟩ := List.mem_map.1 hl
  exact Utf8.lineFeed_not_mem_encode (h s hs)

/-- A piece of a stream is whole lines and the start of another. -/
theorem exists_whole (s : Bytes) :
    ∃ ls : List Bytes, (whole s).1 = ls.flatMap (· ++ [lineFeed]) ∧ ∀ l ∈ ls, lineFeed ∉ l := by
  induction s with
  | nil => exact ⟨[], rfl, nofun⟩
  | cons b s ih =>
    obtain ⟨ls, hls, hfree⟩ := ih
    rw [whole]
    by_cases hb : b = lineFeed
    · rw [if_neg (by simp [hb])]
      exact ⟨[] :: ls, by simp [hb, hls], List.forall_mem_cons.2 ⟨List.not_mem_nil, hfree⟩⟩
    · cases ls with
      | nil =>
        rw [if_pos ⟨hls, hb⟩]
        exact ⟨[], rfl, nofun⟩
      | cons l ls =>
        obtain ⟨hl, hrest⟩ := List.forall_mem_cons.1 hfree
        rw [if_neg (by simp [hls])]
        refine ⟨(b :: l) :: ls, by simp [hls], List.forall_mem_cons.2 ⟨?_, hrest⟩⟩
        simp [hl, Ne.symm hb]

theorem count_frame {s : String} (h : '\n' ∉ s.toList) : (frame s).count lineFeed = 1 := by
  have hs := Utf8.lineFeed_not_mem_encode h
  rw [frame, List.count_append, List.count_eq_zero_of_not_mem hs, List.count_singleton_self]

end Wire

/-- What a client reads of a response of one line is the response but for a carriage return. -/
theorem Client.response_frame {s : String} (h : '\n' ∉ s.toList) (rest : Bytes) :
    response (Wire.frame s ++ rest) = .ok (chomp s, rest) := by
  have hs := Utf8.lineFeed_not_mem_encode h
  rw [response, Wire.frame, List.append_assoc, List.singleton_append, if_neg (by simp),
    Wire.cut_append hs, Wire.trim_encode, Utf8.encode, Utf8.decodeLossy_encodeChars,
    String.ofList_toList]
  rfl

end Keyline
