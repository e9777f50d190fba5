import Keyline.Json.Text
import Keyline.Number.Binary64
import Keyline.Text.Utf8

/-!
# JSON tokens

A document is cut into tokens from left to right. Where no token starts the cut ends with the
token `bad`, so that a reader of tokens meets faults of wording and faults of content in the
order in which they stand in the document.
-/
namespace Keyline.Json

inductive Token
  | beginList | endList | beginObject | endObject | comma | colon
  | null
  | bool (b : Bool)
  | integer (n : Int)
  /-- A number that is no 64-bit integer, as its text. -/
  | real (text : String)
  | string (s : String)
  | bad
  deriving Repr, DecidableEq

/-- The parts of a number as written. -/
structure Numeral where
  negative : Bool
  whole : List Char
  fraction : List Char
  exponent : Option (Bool × List Char)
  deriving Repr, DecidableEq

namespace Numeral

def digits (cs : List Char) : List Char × List Char :=
  (cs.takeWhile Char.isDigit, cs.dropWhile Char.isDigit)

theorem length_digits_snd_le (cs : List Char) : (digits cs).2.length ≤ cs.length :=
  (List.dropWhile_sublist _).length_le

def readSign : List Char → Bool × List Char
  | '-' :: r => (true, r)
  | r => (false, r)

/-- At least one digit, and no zero in front of others. -/
def readWhole (cs : List Char) : Option (List Char × List Char) :=
  match digits cs with
  | ([], _) => none
  | ('0' :: _ :: _, _) => none
  | (ds, r) => some (ds, r)

def readFraction : List Char → Option (List Char × List Char)
  | '.' :: r =>
    match digits r with
    | ([], _) => none
    | (ds, r') => some (ds, r')
  | r => some ([], r)

def readExponentSign : List Char → Bool × List Char
  | '-' :: r => (true, r)
  | '+' :: r => (false, r)
  | r => (false, r)

def readExponent : List Char → Option (Option (Bool × List Char) × List Char)
  | c :: r =>
    if c = 'e' ∨ c = 'E' then
      match digits (readExponentSign r).2 with
      | ([], _) => none
      | (ds, r') => some (some ((readExponentSign r).1, ds), r')
    else some (none, c :: r)
  | [] => some (none, [])

def read (cs : List Char) : Option (Numeral × List Char) := do
  let (negative, r) := readSign cs
  let (whole, r) ← readWhole r
  let (fraction, r) ← readFraction r
  let (exponent, r) ← readExponent r
  some (⟨negative, whole, fraction, exponent⟩, r)

/-- Appends digits to a number while it stays below 2^64; gives how many were left out. -/
def absorb (n : Nat) : List Char → Nat × Nat
  | [] => (n, 0)
  | d :: ds =>
    let n' := n * 10 + (d.toNat - '0'.toNat)
    if n' < UInt64.size then absorb n' ds else (n, ds.length + 1)

theorem length_readSign_le (cs : List Char) : (readSign cs).2.length ≤ cs.length := by
  unfold readSign
  split <;> simp

theorem length_readExponentSign_le (cs : List Char) :
    (readExponentSign cs).2.length ≤ cs.length := by
  unfold readExponentSign
  split <;> simp

theorem length_digits_lt {cs ds r : List Char} {d : Char} (h : digits cs = (d :: ds, r)) :
    r.length < cs.length := by
  obtain ⟨h1, rfl⟩ := Prod.mk.inj h
  have := congrArg List.length (List.takeWhile_append_dropWhile (p := Char.isDigit) (l := cs))
  simp only [h1, List.length_append, List.length_cons] at this
  omega

theorem length_lt_of_readWhole {cs ds r : List Char} (h : readWhole cs = some (ds, r)) :
    r.length < cs.length := by
  unfold readWhole at h
  split at h
  · simp at h
  · simp at h
  · next ds' r' hne _ hd =>
    cases h
    cases hds : ds with
    | nil => exact absurd hds hne
    | cons d ds => exact length_digits_lt (hds ▸ hd)

theorem length_le_of_readFraction {cs ds r : List Char} (h : readFraction cs = some (ds, r)) :
    r.length ≤ cs.length := by
  unfold readFraction at h
  split at h
  · next r' =>
    split at h
    · simp at h
    · cases h
      next hd =>
      have := length_digits_snd_le r'
      simp only [hd] at this
      simp only [List.length_cons]
      omega
  · cases h
    exact Nat.le_refl _

theorem length_le_of_readExponent {cs r : List Char} {e : Option (Bool × List Char)}
    (h : readExponent cs = some (e, r)) : r.length ≤ cs.length := by
  unfold readExponent at h
  split at h
  · next c r' =>
    split at h
    · split at h
      · simp at h
      · cases h
        next hd =>
        have h1 := length_digits_snd_le (readExponentSign r').2
        have h2 := length_readExponentSign_le r'
        simp only [hd] at h1
        simp only [List.length_cons]
        omega
    · cases h
      exact Nat.le_refl _
  · cases h
    exact Nat.le_refl _

theorem length_lt_of_read {cs r : List Char} {m : Numeral} (h : read cs = some (m, r)) :
    r.length < cs.length := by
  simp only [read, Option.bind_eq_bind, Option.bind_eq_some_iff] at h
  obtain ⟨⟨w, r1⟩, h1, ⟨f, r2⟩, h2, ⟨e, r3⟩, h3, h4⟩ := h
  cases h4
  have h0 := length_readSign_le cs
  replace h1 := length_lt_of_readWhole h1
  replace h2 := length_le_of_readFraction h2
  replace h3 := length_le_of_readExponent h3
  dsimp only at *
  omega

def value (ds : List Char) : Nat := Nat.ofDigitChars 10 ds 0

def decimal (m : Numeral) : Binary64.Decimal :=
  let (s, missed) := absorb 0 m.whole
  let (s, dropped) := absorb s m.fraction
  let read := m.fraction.length - dropped
  let shift : Int := match m.exponent with
    | none => 0
    | some (negative, ds) => if negative then -(value ds : Int) else value ds
  ⟨m.negative, s, missed - read + shift⟩

/-- Without fraction and exponent a number is an integer if 64 bits hold it; minus zero is not. -/
def integer? (m : Numeral) : Option Int :=
  if m.fraction = [] ∧ m.exponent = none then
    let n := value m.whole
    if m.negative then
      if 0 < n ∧ n ≤ UInt64.size / 2 then some (-(n : Int)) else none
    else if n < UInt64.size then some n else none
  else none

/-- A number too large for binary64 is no token. -/
def token (m : Numeral) : Option Token :=
  match m.integer? with
  | some n => some (.integer n)
  | none => (Binary64.ofDecimal? m.decimal).map fun f => .real (Binary64.text f)

end Numeral

namespace Token

def isSpace (c : Char) : Bool := c = ' ' || c = '\n' || c = '\t' || c = '\r'

def behind (word cs : List Char) : Option (List Char) :=
  if word.isPrefixOf cs then some (cs.drop word.length) else none

/-- The token at the start of a text, and the rest behind it. -/
def next? : List Char → Option (Token × List Char)
  | [] => none
  | c :: r =>
    match c with
    | '[' => some (.beginList, r)
    | ']' => some (.endList, r)
    | '\x7b' => some (.beginObject, r)
    | '\x7d' => some (.endObject, r)
    | ',' => some (.comma, r)
    | ':' => some (.colon, r)
    | 'n' => (behind ['u', 'l', 'l'] r).map (.null, ·)
    | 't' => (behind ['r', 'u', 'e'] r).map (.bool true, ·)
    | 'f' => (behind ['a', 'l', 's', 'e'] r).map (.bool false, ·)
    | '"' => (Text.read r).map fun p => (.string p.1, p.2)
    | c =>
      match Numeral.read (c :: r) with
      | some (m, rest) => m.token.map (·, rest)
      | none => none

theorem length_le_of_behind {word cs r : List Char} (h : behind word cs = some r) :
    r.length ≤ cs.length := by
  unfold behind at h
  split at h
  · cases h
    simp
  · simp at h

theorem length_lt_of_next? {cs r : List Char} {t : Token} (h : next? cs = some (t, r)) :
    r.length < cs.length := by
  have word {w s : List Char} {u : Token} (hw : (behind w s).map (u, ·) = some (t, r)) :
      r.length < s.length + 1 := by
    obtain ⟨r', hr, hp⟩ := Option.map_eq_some_iff.1 hw
    cases hp
    exact Nat.lt_succ_of_le (length_le_of_behind hr)
  unfold next? at h
  split at h
  · simp at h
  · rw [List.length_cons]
    split at h
    iterate 6
      · cases h
        exact Nat.lt_succ_self _
    · exact word h
    · exact word h
    · exact word h
    · obtain ⟨p, hr, hp⟩ := Option.map_eq_some_iff.1 h
      cases hp
      exact Nat.lt_succ_of_lt (Text.length_lt_of_read hr)
    · split at h
      · next m rest hr =>
        obtain ⟨t', -, hp⟩ := Option.map_eq_some_iff.1 h
        cases hp
        simpa using Numeral.length_lt_of_read hr
      · simp at h

/-- Tokens of a text, with blanks between them skipped. -/
def scan (cs : List Char) : List Token :=
  match _h : next? (cs.dropWhile isSpace) with
  | some (t, r) => t :: scan r
  | none => if cs.all isSpace then [] else [.bad]
termination_by cs.length
decreasing_by
  have := length_lt_of_next? _h
  have := (List.dropWhile_sublist isSpace (l := cs)).length_le
  omega

/-- Tokens of a file; bytes that are no text count as `bad` where they start. -/
def ofBytes (bs : Bytes) : List Token :=
  let (cs, broken) := Utf8.split bs
  scan cs ++ if broken = [] then [] else [.bad]

end Token
end Keyline.Json
