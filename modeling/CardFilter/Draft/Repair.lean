import CardFilter.Draft.Term

/-!
# Gaps that typing aids insert

When a key with its comparison has been inserted, many input fields add a blank, and what is typed
next lands in a term of its own. The repair finds a gap between such a key and a name that is being
typed, and takes the gap out, so that the name becomes the value. A selection in the text moves
with it.
-/

namespace CardFilter.Draft

/-- A chunk that is a key and a complete comparison, with nothing after it. -/
def isDanglingKey (text : String) : Bool :=
  match (Term.ofText text).content with
  | .keyed _ (.complete _) (.bare value) => value.toList.isEmpty
  | _ => false

/-- A chunk that is a name being typed: no mark before it, and no closed quotes around it. -/
def isNameFragment (text : String) : Bool :=
  let t := Term.ofText text
  !t.negated && match t.content with
    | .name false (.bare _) | .name false (.unterminated _ _) => true
    | _ => false

/-- The gaps to take out, in text order: those between a dangling key and a name fragment. -/
def strandedGaps : List Piece → List Piece
  | p :: g :: q :: rest =>
    if p.kind == .chunk && g.kind == .gap && q.kind == .chunk
        && isDanglingKey p.text && isNameFragment q.text then
      g :: strandedGaps (g :: q :: rest)
    else strandedGaps (g :: q :: rest)
  | _ => []

/-- A selection in a text: two byte positions, in either order. -/
structure Selection where
  /-- Where the selection was begun. -/
  anchor : Nat
  /-- Where the cursor is. -/
  focus : Nat
  deriving DecidableEq, Repr

/-- A byte position after a gap has been taken out: one inside the gap moves to its start. -/
def shiftPosition (gap : Piece) (position : Nat) : Nat :=
  if gap.stop ≤ position then position - (gap.stop - gap.start)
  else if gap.start < position then gap.start
  else position

/-- A selection after a gap has been taken out. -/
def Selection.shift (gap : Piece) (s : Selection) : Selection :=
  ⟨shiftPosition gap s.anchor, shiftPosition gap s.focus⟩

/-- The characters outside the gap, where the first one is at the byte position `position`. -/
def eraseGap (gap : Piece) (position : Nat) : List Char → List Char
  | [] => []
  | c :: rest =>
    let after := eraseGap gap (position + c.utf8Size) rest
    if gap.start ≤ position && position < gap.stop then after else c :: after

/-- **The repair**: the text without its stranded gaps, and the selection moved along. The last gap
is taken out first, so that the positions of the others stay true. -/
def repair (text : String) (selection : Selection) : String × Selection :=
  let (cs, selection) := (strandedGaps (pieces text)).foldr
    (fun gap (cs, selection) => (eraseGap gap 0 cs, selection.shift gap)) (text.toList, selection)
  (String.ofList cs, selection)

end CardFilter.Draft
