import CardFilter.Text.Lines
import CardFilter.Text.Search

/-!
# Text on a terminal

Titles are bold, what matters less is dim, and what asks for attention is yellow. The typed text is
shown bold and yellow inside a candidate.
-/

namespace CardFilter.CommandLine

/-- Bold from here. -/
def boldCode : String := "\x1b[1m"

/-- Yellow from here. -/
def yellowCode : String := "\x1b[33m"

/-- Dim from here. -/
def dimCode : String := "\x1b[2m"

/-- Plain from here. -/
def plainCode : String := "\x1b[0m"

/-- The text in bold. -/
def bold (s : String) : String := boldCode ++ s ++ plainCode

/-- The text in yellow. -/
def yellow (s : String) : String := yellowCode ++ s ++ plainCode

/-- The text dimmed. -/
def dim (s : String) : String := dimCode ++ s ++ plainCode

/-- **The text with a range of its characters in bold yellow.** What of the range lies beyond the
text does not show, and an empty range changes nothing. -/
def highlight (s : String) (range : Option CharRange) : String :=
  match range with
  | none => s
  | some r =>
    let cs := s.toList
    if r.start < r.stop ∧ r.start < cs.length then
      String.ofList (cs.take r.start) ++ boldCode ++ yellowCode
        ++ String.ofList ((cs.take r.stop).drop r.start) ++ plainCode
        ++ String.ofList (cs.drop r.stop)
    else s

/-- The text on a line. -/
def line (s : String) : String := s ++ "\n"

/-- The text on a line under a title. -/
def lineUnder (s : String) : String := line ("   " ++ s)

/-- The lines of a text under a title; empty ones stay empty. -/
def indented (s : String) : String :=
  "\n".intercalate ((linesOf s).map fun l => if l.toList.isEmpty then l else "   " ++ l)

/-- The blanks that fill a text up to a width. -/
def filling (width : Nat) (s : String) : String :=
  String.ofList (List.replicate (width - s.toList.length) ' ')

/-- The text at the left of a width. -/
def padRight (width : Nat) (s : String) : String := s ++ filling width s

/-- The text at the right of a width. -/
def padLeft (width : Nat) (s : String) : String := filling width s ++ s

end CardFilter.CommandLine
