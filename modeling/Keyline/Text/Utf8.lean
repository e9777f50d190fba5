/-!
# UTF-8

Texts and the bytes that stand for them. Reading a character undoes writing one, whatever
follows, so a text is recovered from its bytes; bytes that are no text are cut at the first
place where no character starts.

Keys and file names are ordered by their bytes. The order is linear: of two texts one comes
before the other unless they are equal.
-/
namespace Keyline

abbrev Bytes := List UInt8

namespace Utf8

def encodeChars (cs : List Char) : Bytes := cs.flatMap String.utf8EncodeChar

def encode (s : String) : Bytes := encodeChars s.toList

/-- Reads the character that the bytes start with. -/
def next? (bs : Bytes) : Option (Char × Bytes) :=
  ((bs.take 4).toByteArray.utf8DecodeChar? 0).map fun c => (c, bs.drop c.utf8Size)

theorem length_lt_of_next? {bs rest : Bytes} {c : Char} (h : next? bs = some (c, rest)) :
    rest.length < bs.length := by
  obtain ⟨d, hd, hp⟩ := Option.map_eq_some_iff.1 h
  obtain ⟨rfl, rfl⟩ := Prod.mk.inj hp
  have hle := ByteArray.le_size_of_utf8DecodeChar?_eq_some hd
  have hpos := Char.utf8Size_pos d
  simp only [List.size_toByteArray, List.length_take] at hle
  simp only [List.length_drop]
  omega

@[simp] theorem next?_append (c : Char) (bs : Bytes) :
    next? (String.utf8EncodeChar c ++ bs) = some (c, bs) := by
  have h4 := Char.utf8Size_le_four c
  have hlen := String.length_utf8EncodeChar c
  have htake : (String.utf8EncodeChar c ++ bs).take 4 =
      String.utf8EncodeChar c ++ bs.take (4 - c.utf8Size) := by
    rw [List.take_append, hlen, List.take_of_length_le (by omega)]
  have hdrop : (String.utf8EncodeChar c ++ bs).drop c.utf8Size = bs := by
    rw [← hlen]
    exact List.drop_left
  rw [next?, htake, List.toByteArray_append, ByteArray.utf8DecodeChar?_utf8EncodeChar_append,
    Option.map_some, hdrop]

/-- Characters up to the first place where none starts, and the bytes from there on. -/
def split (bs : Bytes) : List Char × Bytes :=
  match _h : next? bs with
  | none => ([], bs)
  | some (c, rest) => let (cs, bad) := split rest; (c :: cs, bad)
termination_by bs.length
decreasing_by exact length_lt_of_next? _h

theorem next?_nil : next? [] = none := by decide

@[simp] theorem split_nil : split [] = ([], []) := by
  rw [split]
  split
  · rfl
  · next h => simp [next?_nil] at h

@[simp] theorem split_append (c : Char) (bs : Bytes) :
    split (String.utf8EncodeChar c ++ bs) = (c :: (split bs).1, (split bs).2) := by
  rw [split]
  split
  · next h => simp at h
  · next h =>
    rw [next?_append] at h
    cases h
    rfl

@[simp] theorem split_encodeChars (cs : List Char) : split (encodeChars cs) = (cs, []) := by
  induction cs with
  | nil => exact split_nil
  | cons c cs ih =>
    change split (String.utf8EncodeChar c ++ encodeChars cs) = _
    rw [split_append, ih]

/-- Reads the bytes of a text; `none` if they stand for no text. -/
def decode? (bs : Bytes) : Option String :=
  match split bs with
  | (cs, []) => some (String.ofList cs)
  | _ => none

@[simp] theorem decode?_encode (s : String) : decode? (encode s) = some s := by
  simp [decode?, encode]

theorem encode_injective {s t : String} (h : encode s = encode t) : s = t := by
  have := congrArg decode? h
  simpa using this

@[simp] theorem encode_append (s t : String) : encode (s ++ t) = encode s ++ encode t := by
  simp [encode, encodeChars]

/-- Number of bytes at the start that form the longest beginning of a character, at least one. -/
def brokenLength : Bytes → Nat
  | a :: b :: c :: _ =>
    if continues a b then (if 0xF0 ≤ a ∧ tail c then 3 else 2) else 1
  | [a, b] => if continues a b then 2 else 1
  | _ => 1
where
  tail (b : UInt8) : Bool := 0x80 ≤ b && b ≤ 0xBF
  /-- Whether `b` may come second in a character of three or four bytes that starts with `a`. -/
  continues (a b : UInt8) : Bool :=
    if a = 0xE0 then 0xA0 ≤ b && b ≤ 0xBF
    else if a = 0xED then 0x80 ≤ b && b ≤ 0x9F
    else if a = 0xF0 then 0x90 ≤ b && b ≤ 0xBF
    else if a = 0xF4 then 0x80 ≤ b && b ≤ 0x8F
    else 0xE1 ≤ a && a ≤ 0xF3 && tail b

theorem brokenLength_pos (bs : Bytes) : 0 < brokenLength bs := by
  unfold brokenLength
  split
  · split
    · split <;> omega
    · omega
  · split <;> omega
  · omega

/-- Reads a text from any bytes; a broken character becomes U+FFFD. -/
def decodeLossy (bs : Bytes) : List Char :=
  match _h : next? bs with
  | some (c, rest) => c :: decodeLossy rest
  | none => if _hn : bs = [] then [] else '\uFFFD' :: decodeLossy (bs.drop (brokenLength bs))
termination_by bs.length
decreasing_by
  · exact length_lt_of_next? _h
  · have := brokenLength_pos bs
    have := List.length_pos_iff.2 _hn
    simp only [List.length_drop]
    omega

end Utf8

namespace Text

/-- Whether the bytes of `s` come before those of `t`. -/
def Before (s t : String) : Prop := Utf8.encode s < Utf8.encode t

instance : DecidableRel Before := fun s t =>
  inferInstanceAs (Decidable (Utf8.encode s < Utf8.encode t))

instance irrefl_byte_lt : Std.Irrefl (fun a b : UInt8 => a < b) := ⟨UInt8.lt_irrefl⟩

instance asymm_byte_lt : Std.Asymm (fun a b : UInt8 => a < b) := ⟨fun _ _ => UInt8.lt_asymm⟩

instance trans_byte_lt :
    Trans (fun a b : UInt8 => a < b) (fun a b => a < b) (fun a b => a < b) :=
  ⟨UInt8.lt_trans⟩

instance trichotomous_byte_lt : Std.Trichotomous (fun a b : UInt8 => a < b) :=
  ⟨fun _ _ h h' => UInt8.le_antisymm (UInt8.not_lt.1 h') (UInt8.not_lt.1 h)⟩

theorem Before.irrefl (s : String) : ¬ Before s s := List.lt_irrefl _

theorem Before.trans {s t u : String} (h : Before s t) (h' : Before t u) : Before s u :=
  List.lt_trans h h'

theorem Before.asymm {s t : String} (h : Before s t) : ¬ Before t s :=
  fun h' => Before.irrefl s (h.trans h')

theorem Before.ne {s t : String} (h : Before s t) : s ≠ t :=
  fun e => Before.irrefl t (e ▸ h)

theorem eq_of_not_before {s t : String} (h : ¬ Before s t) (h' : ¬ Before t s) : s = t :=
  Utf8.encode_injective (List.le_antisymm (List.not_lt.1 h') (List.not_lt.1 h))

theorem before_or_eq_or_before (s t : String) : Before s t ∨ s = t ∨ Before t s := by
  by_cases h : Before s t
  · exact .inl h
  · by_cases h' : Before t s
    · exact .inr (.inr h')
    · exact .inr (.inl (eq_of_not_before h h'))

end Text

end Keyline
