/-!
# Positions in bytes

Positions in a text count the bytes of its UTF-8 form. This file measures a list of characters in
bytes and cuts it at a byte position, which succeeds only on the border between two characters.
-/

namespace CardFilter

/-- The number of bytes that the characters take. -/
def byteLength : List Char → Nat
  | [] => 0
  | c :: cs => c.utf8Size + byteLength cs

@[simp] theorem byteLength_nil : byteLength [] = 0 := rfl

@[simp] theorem byteLength_cons (c : Char) (cs : List Char) :
    byteLength (c :: cs) = c.utf8Size + byteLength cs := rfl

@[simp] theorem byteLength_append (cs ds : List Char) :
    byteLength (cs ++ ds) = byteLength cs + byteLength ds := by
  induction cs with
  | nil => simp
  | cons c cs ih => simp [ih, Nat.add_assoc]

/-- **Cuts at a byte position**: what stands before and after it, or nothing when the position
lies inside a character or past the end. -/
def cutAtByte? : Nat → List Char → Option (List Char × List Char)
  | 0, cs => some ([], cs)
  | _ + 1, [] => none
  | n + 1, c :: cs =>
    if c.utf8Size ≤ n + 1 then
      (cutAtByte? (n + 1 - c.utf8Size) cs).map fun (before, after) => (c :: before, after)
    else none

/-- The column of a byte position: the number of characters before it. A position past the end
counts as the end, and one inside a character as its own byte count. -/
def columnOf (text : List Char) (position : Nat) : Nat :=
  let clamped := min position (byteLength text)
  match cutAtByte? clamped text with
  | some (before, _) => before.length
  | none => clamped

end CardFilter
