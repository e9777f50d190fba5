import Mathlib.Algebra.Group.Nat.Defs
import Keyline.Proofs.Files.Places
import Keyline.Snapshots.Archive

/-!
# Names in byte order

A name is that of a snapshot if digits of a number below 2^64 stand before the ending. Names compare
like their digits in a dictionary: as the numbers do that come from filling the shorter digits up
with zeros, and where these are equal the shorter digits come first. Names of one length therefore
compare like their timestamps.
-/
namespace Keyline.Snapshots

def number (ds : List Char) : Nat := Nat.ofDigitChars 10 ds 0

def nameOf (ds : List Char) : String := String.ofList (ds ++ ending.toList)

theorem number_cons (d : Char) (ds : List Char) :
    number (d :: ds) = (d.toNat - 48) * 10 ^ ds.length + number ds := by
  unfold number
  rw [Nat.ofDigitChars_cons, Nat.ofDigitChars_eq_ofDigitChars_zero]
  simp [Nat.mul_comm]

theorem toNat_of_isDigit {c : Char} (h : c.isDigit = true) : 48 ≤ c.toNat ∧ c.toNat ≤ 57 := by
  simp only [Char.isDigit, Bool.and_eq_true, decide_eq_true_eq] at h
  exact ⟨h.1, h.2⟩

theorem number_lt {ds : List Char} (h : ∀ c ∈ ds, c.isDigit = true) :
    number ds < 10 ^ ds.length := by
  induction ds with
  | nil => simp [number]
  | cons d ds ih =>
    have hd := toNat_of_isDigit (h d List.mem_cons_self)
    have hds := ih fun c hc => h c (List.mem_cons_of_mem _ hc)
    have hm : (d.toNat - 48) * 10 ^ ds.length ≤ 9 * 10 ^ ds.length :=
      Nat.mul_le_mul_right _ (by omega)
    rw [number_cons, List.length_cons, Nat.pow_succ]
    omega

theorem number_toDigits (n : Nat) : number (Nat.toDigits 10 n) = n :=
  Nat.ofDigitChars_ten_toDigits

theorem isDigit_toDigits {n : Nat} {c : Char} (h : c ∈ Nat.toDigits 10 n) : c.isDigit = true :=
  Nat.isDigit_of_mem_toDigits (by decide) (by decide) h

theorem fileName_eq_nameOf (n : Nat) : fileName n = nameOf (Nat.toDigits 10 n) := by
  apply String.toList_inj.1
  simp [fileName, nameOf]

theorem beforeEnding_eq_some_iff {last cs ds : List Char} :
    beforeEnding last cs = some ds ↔ cs = ds ++ last := by
  rw [beforeEnding]
  split
  · next h =>
    obtain ⟨es, rfl⟩ := List.isSuffixOf_iff_suffix.1 h
    simp
  · next h =>
    simp only [reduceCtorEq, false_iff]
    rintro rfl
    exact h (List.isSuffixOf_iff_suffix.2 (List.suffix_append ds last))

theorem timestamp?_eq_some_iff {name : String} {n : Nat} :
    timestamp? name = some n ↔ ∃ ds, name = nameOf ds ∧ ds ≠ [] ∧
      (∀ c ∈ ds, c.isDigit = true) ∧ number ds = n ∧ n < 2 ^ 64 := by
  have hname (ds : List Char) : name.toList = ds ++ ending.toList ↔ name = nameOf ds := by
    rw [nameOf, ← String.toList_inj, String.toList_ofList]
  rw [timestamp?]
  cases hb : beforeEnding ending.toList name.toList with
  | none =>
    simp only [reduceCtorEq, false_iff, not_exists, not_and]
    rintro ds hds
    rw [beforeEnding_eq_some_iff.2 ((hname ds).2 hds)] at hb
    simp at hb
  | some es =>
    have hes := beforeEnding_eq_some_iff.1 hb
    constructor
    · intro h
      dsimp only at h
      split at h
      · next hd =>
        split at h
        · next hlt =>
          cases h
          exact ⟨es, (hname es).1 hes, hd.1, List.all_eq_true.1 hd.2, rfl, hlt⟩
        · simp at h
      · simp at h
    · rintro ⟨ds, hds, h0, hd, rfl, hlt⟩
      rw [← hname, hes] at hds
      obtain rfl := List.append_cancel_right hds
      dsimp only
      rw [if_pos ⟨h0, List.all_eq_true.2 hd⟩]
      exact if_pos hlt

theorem timestamp?_fileName {n : Nat} (h : n < 2 ^ 64) : timestamp? (fileName n) = some n :=
  timestamp?_eq_some_iff.2 ⟨_, fileName_eq_nameOf n, Nat.toDigits_ne_nil,
    fun _ hc => isDigit_toDigits hc, number_toDigits n, h⟩

theorem isName_nameOf {ds : List Char} (h : ∀ c ∈ ds, c.isDigit = true) :
    Path.IsName (nameOf ds) := by
  constructor
  · intro e
    have := congrArg String.toList e
    simp [nameOf, ending] at this
  · intro hm
    rw [nameOf, String.toList_ofList, List.mem_append] at hm
    rcases hm with hm | hm
    · exact absurd (h _ hm) (by decide)
    · exact absurd hm (by decide)

theorem isName_fileName (n : Nat) : Path.IsName (fileName n) := by
  rw [fileName_eq_nameOf]
  exact isName_nameOf fun _ => isDigit_toDigits

theorem nameOf_injective {ds es : List Char} (h : nameOf ds = nameOf es) : ds = es :=
  List.append_cancel_right (String.ofList_injective h)

theorem utf8EncodeChar_of_isDigit {c : Char} (h : c.isDigit = true) :
    String.utf8EncodeChar c = [c.val.toUInt8] := by
  apply String.utf8EncodeChar_eq_singleton
  have := (toNat_of_isDigit h).2
  have hv : c.val ≤ 0x7f := UInt32.le_iff_toNat_le.2 (Nat.le_trans this (by decide))
  simp [Char.utf8Size, hv]

theorem toNat_toUInt8_of_isDigit {c : Char} (h : c.isDigit = true) :
    c.val.toUInt8.toNat = c.toNat := by
  have := (toNat_of_isDigit h).2
  rw [UInt32.toNat_toUInt8]
  exact Nat.mod_eq_of_lt (Nat.lt_of_le_of_lt this (by decide))

theorem byte_lt_iff {c d : Char} (hc : c.isDigit = true) (hd : d.isDigit = true) :
    c.val.toUInt8 < d.val.toUInt8 ↔ c.toNat - 48 < d.toNat - 48 := by
  have h1 := toNat_of_isDigit hc
  have h2 := toNat_of_isDigit hd
  rw [UInt8.lt_iff_toNat_lt, toNat_toUInt8_of_isDigit hc, toNat_toUInt8_of_isDigit hd]
  omega

theorem byte_inj {c d : Char} (hc : c.isDigit = true) (hd : d.isDigit = true) :
    c.val.toUInt8 = d.val.toUInt8 ↔ c.toNat - 48 = d.toNat - 48 := by
  have h1 := toNat_of_isDigit hc
  have h2 := toNat_of_isDigit hd
  rw [← UInt8.toNat_inj, toNat_toUInt8_of_isDigit hc, toNat_toUInt8_of_isDigit hd]
  omega

theorem encode_nameOf {ds : List Char} (h : ∀ c ∈ ds, c.isDigit = true) :
    Utf8.encode (nameOf ds) = ds.map (fun c => c.val.toUInt8) ++ Utf8.encode ending := by
  rw [nameOf, Utf8.encode, Utf8.encodeChars, String.toList_ofList, List.flatMap_append]
  congr 1
  induction ds with
  | nil => rfl
  | cons d ds ih =>
    rw [List.flatMap_cons, utf8EncodeChar_of_isDigit (h d List.mem_cons_self),
      ih fun c hc => h c (List.mem_cons_of_mem _ hc)]
    rfl

/-- The number of digits that are filled up with zeros behind to a length. -/
def padded (ds : List Char) (length : Nat) : Nat := number ds * 10 ^ (length - ds.length)

theorem padded_cons (d : Char) (ds : List Char) (l : Nat) :
    padded (d :: ds) (l + 1) = (d.toNat - 48) * 10 ^ max ds.length l + padded ds l := by
  have hm : max ds.length l = ds.length + (l - ds.length) := by omega
  unfold padded
  rw [number_cons, List.length_cons, Nat.add_sub_add_right, Nat.add_mul, Nat.mul_assoc,
    ← Nat.pow_add, hm]

theorem padded_lt {ds : List Char} (h : ∀ c ∈ ds, c.isDigit = true) (l : Nat) :
    padded ds l < 10 ^ max ds.length l := by
  have hm : max ds.length l = ds.length + (l - ds.length) := by omega
  rw [padded, hm, Nat.pow_add]
  exact Nat.mul_lt_mul_of_pos_right (number_lt h) (Nat.pow_pos (by decide))

/-- A leading digit decides, and where it is the same the rest does. -/
theorem digit_order {a b x y m : Nat} (hx : x < m) (hy : y < m) :
    (a * m + x < b * m + y ↔ a < b ∨ (a = b ∧ x < y)) ∧
      (a * m + x = b * m + y ↔ a = b ∧ x = y) := by
  rcases Nat.lt_trichotomy a b with h | rfl | h
  · have : (a + 1) * m ≤ b * m := Nat.mul_le_mul_right _ h
    rw [Nat.succ_mul] at this
    constructor <;> constructor <;> omega
  · constructor <;> constructor <;> omega
  · have : (b + 1) * m ≤ a * m := Nat.mul_le_mul_right _ h
    rw [Nat.succ_mul] at this
    constructor <;> constructor <;> omega

theorem ending_lt_digit {c : Char} (h : c.isDigit = true) (r : Bytes) :
    Utf8.encode ending < c.val.toUInt8 :: r := by
  obtain ⟨e, he⟩ : ∃ e, Utf8.encode ending = 45 :: e := ⟨_, by rfl⟩
  have hb : (45 : UInt8) < c.val.toUInt8 := by
    rw [UInt8.lt_iff_toNat_lt, toNat_toUInt8_of_isDigit h]
    exact Nat.lt_of_lt_of_le (by decide) (toNat_of_isDigit h).1
  rw [he]
  exact List.cons_lt_cons_iff.2 (.inl hb)

/-- Names in byte order. The ending starts with a byte below those of the digits, so digits that
go on come later. -/
theorem before_nameOf_iff {ds es : List Char} (hd : ∀ c ∈ ds, c.isDigit = true)
    (he : ∀ c ∈ es, c.isDigit = true) :
    Text.Before (nameOf ds) (nameOf es) ↔ padded ds es.length < padded es ds.length ∨
      (padded ds es.length = padded es ds.length ∧ ds.length < es.length) := by
  rw [Text.Before, encode_nameOf hd, encode_nameOf he]
  induction ds generalizing es with
  | nil =>
    cases es with
    | nil => simp [padded, List.lt_irrefl]
    | cons e es =>
      have hlt := ending_lt_digit (he e List.mem_cons_self)
        (es.map (fun c => c.val.toUInt8) ++ Utf8.encode ending)
      rw [List.map_nil, List.nil_append, List.map_cons, List.cons_append]
      simp only [hlt, true_iff, padded, number, Nat.ofDigitChars_nil, Nat.zero_mul,
        List.length_nil, List.length_cons]
      omega
  | cons d ds ih =>
    cases es with
    | nil =>
      have hlt := List.lt_asymm (ending_lt_digit (hd d List.mem_cons_self)
        (ds.map (fun c => c.val.toUInt8) ++ Utf8.encode ending))
      rw [List.map_nil, List.nil_append, List.map_cons, List.cons_append, iff_false_left hlt]
      simp [padded, number]
    | cons e es =>
      have hd' := hd d List.mem_cons_self
      have he' := he e List.mem_cons_self
      have hds := fun c hc => hd c (List.mem_cons_of_mem _ hc)
      have hes := fun c hc => he c (List.mem_cons_of_mem _ hc)
      have hx := padded_lt hds es.length
      have hy := padded_lt hes ds.length
      rw [Nat.max_comm] at hy
      obtain ⟨hlt, heq⟩ := digit_order (a := d.toNat - 48) (b := e.toNat - 48) hx hy
      rw [List.map_cons, List.map_cons, List.cons_append, List.cons_append, List.cons_lt_cons_iff,
        byte_lt_iff hd' he', byte_inj hd' he', ih hds hes, List.length_cons, List.length_cons,
        padded_cons, padded_cons, Nat.max_comm es.length, hlt, heq]
      omega

theorem before_nameOf_iff_of_length {ds es : List Char} (hd : ∀ c ∈ ds, c.isDigit = true)
    (he : ∀ c ∈ es, c.isDigit = true) (h : ds.length = es.length) :
    Text.Before (nameOf ds) (nameOf es) ↔ number ds < number es := by
  rw [before_nameOf_iff hd he]
  simp [padded, h]

theorem nameOrder_nameOf_iff {ds es : List Char} (hd : ∀ c ∈ ds, c.isDigit = true)
    (he : ∀ c ∈ es, c.isDigit = true) (h : ds.length = es.length) :
    Archive.nameOrder (nameOf ds) (nameOf es) = true ↔ number ds ≤ number es := by
  have behind := before_nameOf_iff_of_length he hd h.symm
  rw [Text.Before] at behind
  rw [Archive.nameOrder, decide_eq_true_eq, ← List.not_lt, behind, Nat.not_lt]

/-- Names stand for timestamps: a timestamp is read back from the path that it gives a snapshot, a
name has one exactly if it is digits of a number below 2^64 before the ending, and names with
equally many digits are in order exactly if their numbers are. -/
theorem names_stand_for_timestamps :
    (∀ (dir : Path) (n : Nat), n < 2 ^ 64 →
      (dir.child (fileName n)).names.getLast?.bind timestamp? = some n) ∧
    (∀ (name : String) (n : Nat), timestamp? name = some n ↔ ∃ ds : List Char,
      name = String.ofList ds ++ "-snapshot.json" ∧ ds ≠ [] ∧ (∀ c ∈ ds, c.isDigit = true) ∧
        number ds = n ∧ n < 2 ^ 64) ∧
    ∀ ds es : List Char, (∀ c ∈ ds, c.isDigit = true) → (∀ c ∈ es, c.isDigit = true) →
      ds.length = es.length →
        (Archive.nameOrder (nameOf ds) (nameOf es) = true ↔ number ds ≤ number es) ∧
        (Text.Before (nameOf ds) (nameOf es) ↔ number ds < number es) := by
  have spelled (ds : List Char) : nameOf ds = String.ofList ds ++ "-snapshot.json" := by
    rw [nameOf, String.ofList_append, String.ofList_toList, ending]
  refine ⟨?_, ?_, ?_⟩
  · intro dir n h
    rw [Path.names_child (isName_fileName n), List.getLast?_concat]
    exact timestamp?_fileName h
  · intro name n
    simp only [timestamp?_eq_some_iff, spelled]
  · intro ds es hd he h
    exact ⟨nameOrder_nameOf_iff hd he h, before_nameOf_iff_of_length hd he h⟩

/-- The last timestamp there is, one with zeros in front, and nine before ten. -/
theorem names_stand_for_nine_and_ten :
    let dir : Path := ⟨"/d/snapshots"⟩
    let ds : List Char := ['0', '0', '9']
    let es : List Char := ['0', '1', '0']
    2 ^ 64 - 1 < 2 ^ 64 ∧
      (dir.child (fileName (2 ^ 64 - 1))).names.getLast?.bind timestamp? = some (2 ^ 64 - 1) ∧
      timestamp? "009-snapshot.json" = some 9 ∧
      (∀ c ∈ ds, c.isDigit = true) ∧ (∀ c ∈ es, c.isDigit = true) ∧ ds.length = es.length ∧
      Archive.nameOrder (nameOf ds) (nameOf es) = true ∧ Text.Before (nameOf ds) (nameOf es) := by
  intro dir ds es
  obtain ⟨path, name, order⟩ := names_stand_for_timestamps
  have hd : ∀ c ∈ ds, c.isDigit = true := List.all_eq_true.1 rfl
  have he : ∀ c ∈ es, c.isDigit = true := List.all_eq_true.1 rfl
  obtain ⟨first, behind⟩ := order ds es hd he rfl
  exact ⟨by decide, path dir (2 ^ 64 - 1) (by decide),
    (name _ _).2 ⟨ds, by decide, by decide, hd, by decide, by decide⟩, hd, he, rfl,
    first.2 (by decide), behind.2 (by decide)⟩

end Keyline.Snapshots
