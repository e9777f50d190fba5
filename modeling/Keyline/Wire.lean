import Keyline.Text.Utf8

/-!
# Lines on the wire

What is sent in either direction is cut into lines at line feeds; bytes behind the last one are a
line too. A carriage return at the end of a line is taken off.
-/
namespace Keyline.Wire

def lineFeed : UInt8 := 10

def carriageReturn : UInt8 := 13

/-- The bytes before the first line feed and, if there is one, those behind it. -/
def cut : Bytes → Bytes × Option Bytes
  | [] => ([], none)
  | b :: bs => if b = lineFeed then ([], some bs) else (b :: (cut bs).1, (cut bs).2)

/-- The lines of a stream, without their line feeds. -/
def lines : Bytes → List Bytes
  | [] => []
  | b :: bs =>
    if b = lineFeed then [] :: lines bs
    else
      match lines bs with
      | l :: ls => (b :: l) :: ls
      | [] => [[b]]

/-- The whole lines at the start of a stream, and the bytes behind the last line feed. -/
def whole : Bytes → Bytes × Bytes
  | [] => ([], [])
  | b :: bs =>
    if (whole bs).1 = [] ∧ b ≠ lineFeed then ([], b :: (whole bs).2)
    else (b :: (whole bs).1, (whole bs).2)

/-- Takes off one carriage return at the end of a line. -/
def trim (line : Bytes) : Bytes :=
  if line.getLast? = some carriageReturn then line.dropLast else line

def frame (s : String) : Bytes := Utf8.encode s ++ [lineFeed]

theorem whole_append (s : Bytes) : (whole s).1 ++ (whole s).2 = s := by
  induction s with
  | nil => rfl
  | cons b bs ih =>
    unfold whole
    split
    · next h => simpa [h.1] using ih
    · simpa using ih

theorem lineFeed_not_mem_whole (s : Bytes) : lineFeed ∉ (whole s).2 := by
  induction s with
  | nil => simp [whole]
  | cons b bs ih =>
    unfold whole
    split
    · next h => simpa [ih] using Ne.symm h.2
    · exact ih

end Keyline.Wire
