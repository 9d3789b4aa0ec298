import CardFilter.Text.Utf8

/-!
# File paths

A path is a row of bytes with slashes in it. Mostly it is the UTF-8 form of a text, as what a
settings file names always is; but a file system has other paths too, and these have no text
(`CardFilter.FilePath.text?`).

A path keeps its spelling: nothing is taken out when paths are joined. Where paths are compared, and
where the parent of one is taken, empty parts and single dots do not count, but for a single dot at
the start of a relative path.
-/

namespace CardFilter

/-- A path as it is spelled. -/
structure FilePath where
  /-- Its bytes. -/
  bytes : List UInt8
  deriving DecidableEq, Repr, Inhabited

namespace FilePath

/-- The path that a text spells. -/
def ofText (text : String) : FilePath :=
  ⟨utf8 text⟩

/-- The text that spells the path; there is none where its bytes are not UTF-8. -/
def text? (p : FilePath) : Option String :=
  ofUtf8? p.bytes

theorem text?_eq_some_iff {p : FilePath} {text : String} :
    p.text? = some text ↔ p = ofText text := by
  rw [text?, ofUtf8?_eq_some_iff, ofText, FilePath.mk.injEq]

@[simp] theorem text?_ofText (text : String) : (ofText text).text? = some text :=
  text?_eq_some_iff.mpr rfl

/-- The path as it is shown. -/
def display (p : FilePath) : String :=
  shownUtf8 p.bytes

/-- What stands between two slashes. -/
abbrev Segment : Type := List UInt8

/-- The byte that separates segments, `/`. -/
def slash : UInt8 := 0x2F

/-- The byte of a dot, `.`. -/
def dot : UInt8 := 0x2E

/-- The segment that leads to the directory above. -/
def upward : Segment := [dot, dot]

/-- What stands between the slashes. -/
def splitAtSlashes : List UInt8 → List Segment
  | [] => [[]]
  | b :: rest =>
    if b = slash then [] :: splitAtSlashes rest
    else match splitAtSlashes rest with
      | [] => [[b]]
      | part :: parts => (b :: part) :: parts

/-- The parts of the path between its slashes, empty ones included. -/
def segments (p : FilePath) : List Segment :=
  splitAtSlashes p.bytes

/-- The path begins at the root of the file system. -/
def isAbsolute (p : FilePath) : Bool :=
  p.bytes.head? = some slash

/-- The segment stands for no step: it is empty or a single dot. -/
def isIdle (segment : Segment) : Bool :=
  segment == [] || segment == [dot]

/-- The segments before those that may be idle: the root, or a single dot at the start. -/
def anchor (p : FilePath) : List Segment :=
  match p.segments with
  | first :: _ => if p.isAbsolute || first == [dot] then [first] else []
  | [] => []

/-- The segments after the anchor. -/
def body (p : FilePath) : List Segment :=
  p.segments.drop p.anchor.length

/-- The steps of the path, which are what paths are compared by. -/
def steps (p : FilePath) : List Segment :=
  p.anchor ++ p.body.filter fun s => !isIdle s

/-- Two paths are the same but for idle segments. -/
def sameAs (p q : FilePath) : Bool :=
  p.isAbsolute == q.isAbsolute && p.steps == q.steps

/-- The segments without the idle ones at the end. -/
def dropIdleEnd (segments : List Segment) : List Segment :=
  (segments.reverse.dropWhile isIdle).reverse

/-- The path that segments write. -/
def ofSegments (segments : List Segment) : FilePath :=
  ⟨[slash].intercalate segments⟩

/-- **The path of the directory** that holds what the path names; there is none for the root and
for the empty path. -/
def parent? (p : FilePath) : Option FilePath :=
  match (dropIdleEnd p.body).reverse with
  | [] => if p.isAbsolute || p.anchor.isEmpty then none else some ⟨[]⟩
  | _ :: before =>
    let kept := dropIdleEnd before.reverse
    if p.isAbsolute && kept.isEmpty then some ⟨[slash]⟩ else some (ofSegments (p.anchor ++ kept))

/-- **The path `q` taken from the directory `p`**: `q` itself if it is absolute. -/
def join (p q : FilePath) : FilePath :=
  if q.isAbsolute || p.bytes.isEmpty then q
  else if p.bytes.getLast? = some slash then ⟨p.bytes ++ q.bytes⟩
  else ⟨p.bytes ++ slash :: q.bytes⟩

theorem length_dropIdleEnd_le (segments : List Segment) :
    (dropIdleEnd segments).length ≤ segments.length := by
  simpa [dropIdleEnd] using (List.dropWhile_sublist (l := segments.reverse) isIdle).length_le

/-- The directories from the body of a path upwards, nearest first, each as the segments that are
left of the body. -/
def bodiesUpward (body : List Segment) : List (List Segment) :=
  match _h : (dropIdleEnd body).reverse with
  | [] => []
  | _ :: before => dropIdleEnd before.reverse :: bodiesUpward (dropIdleEnd before.reverse)
termination_by body.length
decreasing_by
  have hbefore := length_dropIdleEnd_le before.reverse
  have hbody := length_dropIdleEnd_le body
  have hlength := congrArg List.length _h
  simp only [List.length_reverse, List.length_cons] at *
  omega

/-- **The path and every directory above it**, nearest first. -/
def ancestors (p : FilePath) : List FilePath :=
  p :: (bodiesUpward p.body).map (fun kept =>
      if p.isAbsolute && kept.isEmpty then ⟨[slash]⟩ else ofSegments (p.anchor ++ kept))
    ++ (if p.anchor == [[dot]] then [⟨[]⟩] else [])

end FilePath

end CardFilter
