/-!
# JSON strings

`escape` writes a text as the inside of a JSON string: quotes, backslashes and the characters
below U+0020 are escaped, and nothing else. `read` accepts every escape of the format and undoes
`escape`.
-/
namespace Keyline.Json.Text

def hexDigit (n : Nat) : Char := Nat.digitChar n

def escapeChar (c : Char) : List Char :=
  match c with
  | '"' => ['\\', '"']
  | '\\' => ['\\', '\\']
  | '\x08' => ['\\', 'b']
  | '\t' => ['\\', 't']
  | '\n' => ['\\', 'n']
  | '\x0c' => ['\\', 'f']
  | '\r' => ['\\', 'r']
  | c =>
    if c.toNat < 0x20 then
      ['\\', 'u', '0', '0', hexDigit (c.toNat / 16), hexDigit (c.toNat % 16)]
    else [c]

def escape (cs : List Char) : List Char := cs.flatMap escapeChar

/-- A character of a string as written: the character itself or a UTF-16 unit. -/
inductive Piece
  | char (c : Char)
  | unit (n : Nat)
  deriving Repr, DecidableEq

def hexValue? (c : Char) : Option Nat :=
  if '0' ≤ c ∧ c ≤ '9' then some (c.toNat - '0'.toNat)
  else if 'a' ≤ c ∧ c ≤ 'f' then some (c.toNat - 'a'.toNat + 10)
  else if 'A' ≤ c ∧ c ≤ 'F' then some (c.toNat - 'A'.toNat + 10)
  else none

def unit? (a b c d : Char) : Option Nat :=
  match hexValue? a, hexValue? b, hexValue? c, hexValue? d with
  | some a, some b, some c, some d => some (((a * 16 + b) * 16 + c) * 16 + d)
  | _, _, _, _ => none

def ofLetter? (c : Char) : Option Char :=
  match c with
  | '"' => some '"'
  | '\\' => some '\\'
  | '/' => some '/'
  | 'b' => some '\x08'
  | 'f' => some '\x0c'
  | 'n' => some '\n'
  | 'r' => some '\r'
  | 't' => some '\t'
  | _ => none

/-- Cuts a string behind its opening quote into pieces, up to the closing quote. -/
def pieces : List Char → Option (List Piece × List Char)
  | [] => none
  | '"' :: r => some ([], r)
  | '\\' :: 'u' :: a :: b :: c :: d :: r =>
    match unit? a b c d, pieces r with
    | some n, some (ps, rest) => some (.unit n :: ps, rest)
    | _, _ => none
  | '\\' :: e :: r =>
    match ofLetter? e, pieces r with
    | some c, some (ps, rest) => some (.char c :: ps, rest)
    | _, _ => none
  | c :: r =>
    if c.toNat < 0x20 ∨ c = '\\' then none
    else match pieces r with
      | some (ps, rest) => some (.char c :: ps, rest)
      | none => none

def isHigh (n : Nat) : Bool := 0xD800 ≤ n && n ≤ 0xDBFF

def isLow (n : Nat) : Bool := 0xDC00 ≤ n && n ≤ 0xDFFF

/-- Joins surrogate pairs; `high` is a first half that waits for its second. -/
def join (high : Option Nat) : List Piece → Option (List Char)
  | [] => if high.isNone then some [] else none
  | .char c :: ps => if high.isNone then (join none ps).map (c :: ·) else none
  | .unit n :: ps =>
    match high with
    | some h =>
      if isLow n then
        (join none ps).map (Char.ofNat (0x10000 + (h - 0xD800) * 0x400 + (n - 0xDC00)) :: ·)
      else none
    | none =>
      if isHigh n then join (some n) ps
      else if isLow n then none
      else (join none ps).map (Char.ofNat n :: ·)

/-- Reads a string behind its opening quote, with what follows the closing one. -/
def read (cs : List Char) : Option (String × List Char) :=
  match pieces cs with
  | none => none
  | some (ps, rest) => (join none ps).map fun s => (String.ofList s, rest)

theorem length_lt_of_pieces {cs rest : List Char} {ps : List Piece}
    (h : pieces cs = some (ps, rest)) : rest.length < cs.length := by
  fun_induction pieces cs generalizing ps with
  | case1 => simp at h
  | case2 r => simp_all
  | case3 a b c d r n ps' rest' hp hu ih =>
    simp only [Option.some.injEq, Prod.mk.injEq] at h
    obtain ⟨-, rfl⟩ := h
    have := ih hp
    simp only [List.length_cons]
    omega
  | case4 => simp at h
  | case5 e r _ c ps' rest' hp hu ih =>
    simp only [Option.some.injEq, Prod.mk.injEq] at h
    obtain ⟨-, rfl⟩ := h
    have := ih hp
    simp only [List.length_cons]
    omega
  | case6 => simp at h
  | case7 => simp at h
  | case8 c r _ _ _ hc ps' rest' hp ih =>
    simp only [Option.some.injEq, Prod.mk.injEq] at h
    obtain ⟨-, rfl⟩ := h
    have := ih hp
    simp only [List.length_cons]
    omega
  | case9 => simp at h

theorem length_lt_of_read {cs rest : List Char} {s : String} (h : read cs = some (s, rest)) :
    rest.length < cs.length := by
  unfold read at h
  split at h
  · simp at h
  · next ps r hp =>
    obtain ⟨t, -, ht⟩ := Option.map_eq_some_iff.1 h
    obtain ⟨-, rfl⟩ := Prod.mk.inj ht
    exact length_lt_of_pieces hp

/-- The piece that `pieces` finds where `escapeChar c` stands. -/
def pieceOf (c : Char) : Piece :=
  if c.toNat < 0x20 ∧ (escapeChar c).length = 6 then .unit c.toNat else .char c

theorem hexValue?_hexDigit : ∀ n : Fin 16, hexValue? (hexDigit n) = some n.val := by decide

theorem pieces_escapeChar (c : Char) (cs : List Char) :
    pieces (escapeChar c ++ cs) = (pieces cs).map fun r => (pieceOf c :: r.1, r.2) := by
  unfold pieceOf
  unfold escapeChar
  split
  case h_8 h1 h2 h3 h4 h5 h6 h7 =>
    split
    · next hc =>
      have hd (n : Nat) (hn : n < 16) : hexValue? (hexDigit n) = some n :=
        hexValue?_hexDigit ⟨n, hn⟩
      have h16 : c.toNat / 16 * 16 + c.toNat % 16 = c.toNat := by omega
      have hu : unit? '0' '0' (hexDigit (c.toNat / 16)) (hexDigit (c.toNat % 16)) =
          some c.toNat := by
        simp [unit?, hd _ (show c.toNat / 16 < 16 by omega), hd _ (show c.toNat % 16 < 16 by omega),
          show hexValue? '0' = some 0 by decide, h16]
      simp only [List.cons_append, List.nil_append, pieces, hu]
      cases pieces cs <;> simp [hc]
    · next hc =>
      have hp : pieces (c :: cs) = match pieces cs with
          | some (ps, rest) => some (.char c :: ps, rest)
          | none => none := by
        rw [pieces]
        · rw [if_neg (not_or.2 ⟨hc, h2⟩)]
        · exact fun h => h1 h
        · rintro _ _ _ _ _ h
          exact absurd h h2
        · rintro _ _ h
          exact absurd h h2
      rw [List.singleton_append, hp]
      cases pieces cs <;> simp
  all_goals
    rename_i h
    simp [pieces, ofLetter?]
    cases pieces cs <;> simp

theorem join_pieceOf (c : Char) (ps : List Piece) :
    join none (pieceOf c :: ps) = (join none ps).map (c :: ·) := by
  unfold pieceOf
  split
  · next h =>
    have hh : isHigh c.toNat = false := by simp [isHigh]; omega
    have hl : isLow c.toNat = false := by simp [isLow]; omega
    simp [join, hh, hl, Char.ofNat_toNat]
  · simp [join]

theorem pieces_escape (cs rest : List Char) :
    pieces (escape cs ++ '"' :: rest) = some (cs.map pieceOf, rest) := by
  induction cs with
  | nil => simp [escape, pieces]
  | cons c cs ih =>
    rw [show escape (c :: cs) = escapeChar c ++ escape cs from rfl, List.append_assoc,
      pieces_escapeChar, ih]
    rfl

theorem join_map_pieceOf (cs : List Char) : join none (cs.map pieceOf) = some cs := by
  induction cs with
  | nil => rfl
  | cons c cs ih => rw [List.map_cons, join_pieceOf, ih]; rfl

/-- Reading undoes escaping, whatever follows the closing quote. -/
theorem read_escape (s : String) (rest : List Char) :
    read (escape s.toList ++ '"' :: rest) = some (s, rest) := by
  simp [read, pieces_escape, join_map_pieceOf]

end Keyline.Json.Text
