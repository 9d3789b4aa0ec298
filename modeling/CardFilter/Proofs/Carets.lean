import CardFilter.Proofs.FaultCauses
import CardFilter.Proofs.InBounds

/-!
# Where the caret of a report stands

The report of a failed reading shows the text, and on a line of its own behind it a caret for the
place of the error. This file says which place that is
(`CardFilter.Filter.pointsInto_of_parseWith`).

* There is a place, **unless the text is blank**. The reader of terms has a fault without a place,
  for want of any token; but it is never called without one.
* The place is a border between characters, so that the text can be cut there: **the caret is
  indented by this cut**, which is to say by the characters before it, and never by the numbers that
  stand in for a cut that fails.
* An error in a group **points into the group**: behind the parenthesis that opens it, and not
  behind the one that closes it. Only a group without members is reported at the first of the two.

The indentation is meant to put the caret under the character at the place. It counts the characters
of all lines, though, and the caret comes behind all of them. So the caret stands **under the
character just if the text is one line** (`CardFilter.QueryError.isUnder_iff`); in
`CardFilter.Filter.not_isUnder_of_two_lines` it stands under nothing.
-/

namespace CardFilter

/-! ### Lines and columns -/

/-- A spot of a text that is shown. -/
structure Spot where
  /-- The line, counted from 0. -/
  line : Nat
  /-- The column on this line, counted from 0. -/
  column : Nat
  deriving DecidableEq, Repr

namespace Spot

/-- Where a text starts. -/
def origin : Spot := ⟨0, 0⟩

/-- The spot behind a character. -/
def next (s : Spot) (c : Char) : Spot :=
  if c = '\n' then ⟨s.line + 1, 0⟩ else ⟨s.line, s.column + 1⟩

/-- **The spot behind some characters.** -/
def after (s : Spot) (cs : List Char) : Spot :=
  cs.foldl next s

/-- The spot is straight under the other: on the next line, in the same column. -/
def IsUnder (s t : Spot) : Prop :=
  s.line = t.line + 1 ∧ s.column = t.column

instance (s t : Spot) : Decidable (s.IsUnder t) :=
  inferInstanceAs (Decidable (_ ∧ _))

variable {s : Spot} {cs : List Char}

theorem after_append (s : Spot) (cs ds : List Char) :
    s.after (cs ++ ds) = (s.after cs).after ds :=
  List.foldl_append

theorem after_newline (s : Spot) (cs : List Char) :
    s.after ('\n' :: cs) = Spot.after ⟨s.line + 1, 0⟩ cs :=
  rfl

theorem line_after (s : Spot) (cs : List Char) : (s.after cs).line = s.line + cs.count '\n' := by
  induction cs generalizing s with
  | nil => rfl
  | cons c cs ih =>
    have hstep : s.after (c :: cs) = (s.next c).after cs := rfl
    rw [hstep, ih, List.count_cons, next]
    split
    · rename_i hc
      rw [if_pos (beq_iff_eq.mpr hc)]
      simp only
      omega
    · rename_i hc
      rw [if_neg (by simpa using hc)]
      rfl

/-- On one line, every character is one column. -/
theorem column_after (h : '\n' ∉ cs) : (s.after cs).column = s.column + cs.length := by
  induction cs generalizing s with
  | nil => rfl
  | cons c cs ih =>
    have hstep : s.after (c :: cs) = (s.next c).after cs := rfl
    rw [List.mem_cons, not_or] at h
    rw [hstep, ih h.2, next, if_neg (Ne.symm h.1), List.length_cons]
    simp only
    omega

/-- A line end takes the column back, behind which there is room for fewer characters. -/
theorem column_after_lt (h : '\n' ∈ cs) : (s.after cs).column < cs.length := by
  induction cs generalizing s with
  | nil => cases h
  | cons c cs ih =>
    have hstep : s.after (c :: cs) = (s.next c).after cs := rfl
    rw [hstep, List.length_cons]
    by_cases hrest : '\n' ∈ cs
    · exact Nat.lt_succ_of_lt (ih hrest)
    · obtain rfl : c = '\n' := ((List.mem_cons.mp h).resolve_right hrest).symm
      rw [column_after hrest, next, if_pos rfl]
      simp only
      omega

/-- **What stands under what.** Two texts follow one another, a line end, and an indentation that is
as long as the first of them and `indent` more. The spot behind all this is straight under that
between the texts just if the texts are on one line, which starts `indent` columns to the left. -/
theorem isUnder_iff {cs ds : List Char} {indent : Nat} (h : s.column = indent) :
    ((s.after (cs ++ ds ++ '\n' :: List.replicate (cs.length + indent) ' ')).IsUnder (s.after cs)
      ↔ '\n' ∉ cs ++ ds) := by
  have hblanks : '\n' ∉ List.replicate (cs.length + indent) ' ' := by
    simp [List.mem_replicate]
  rw [after_append, after_newline, IsUnder, line_after, line_after, line_after,
    column_after hblanks, List.count_eq_zero.mpr hblanks, List.length_replicate,
    List.count_append, ← List.count_eq_zero, List.count_append]
  dsimp only
  constructor
  · rintro ⟨hline, hcolumn⟩
    by_cases hfirst : '\n' ∈ cs
    · have hlt := column_after_lt (s := s) hfirst
      omega
    · rw [List.count_eq_zero.mpr hfirst] at hline ⊢
      omega
  · intro hnone
    have hfirst : '\n' ∉ cs := List.count_eq_zero.mp (Nat.eq_zero_of_add_eq_zero_right hnone)
    rw [column_after hfirst]
    omega

end Spot

/-! ### The report -/

/-- What the report shows before the text. -/
def QueryError.lead (e : QueryError) : List Char :=
  ("filter syntax error: " ++ e.message ++ "\n  ").toList

/-- The text is indented by two blanks. -/
theorem QueryError.column_lead (e : QueryError) : (Spot.origin.after e.lead).column = 2 := by
  have hlead : e.lead = "filter syntax error: ".toList ++ e.message.toList ++ ['\n', ' ', ' '] := by
    simp [lead]
  rw [hlead, Spot.after_append]
  rfl

/-- **The caret stands under the character just if the text is one line.** -/
theorem QueryError.isUnder_iff (e : QueryError) (before after : List Char) :
    ((Spot.origin.after (e.lead ++ (before ++ after ++
        '\n' :: List.replicate (before.length + 2) ' '))).IsUnder
      (Spot.origin.after (e.lead ++ before)) ↔ '\n' ∉ before ++ after) := by
  rw [Spot.after_append Spot.origin e.lead, Spot.after_append Spot.origin e.lead]
  exact Spot.isUnder_iff e.column_lead

/-- The report with its caret, where the text can be cut. The text is indented by two blanks. -/
theorem QueryError.display_eq_of_cut {e : QueryError} {position : Nat} {before after : List Char}
    (hposition : e.position = some position) (hquery : e.query.toList = before ++ after)
    (hbefore : byteLength before = position) :
    e.display = "filter syntax error: " ++ e.message ++ "\n  " ++ e.query ++ "\n" ++
      (String.ofList (List.replicate (before.length + 2) ' ') ++ "^" ++ "\n") ++
      e.hint.elim "" ("hint: " ++ ·) := by
  have hle : position ≤ byteLength e.query.toList := by
    rw [hquery, byteLength_append]
    omega
  have hcut : cutAtByte? position e.query.toList = some (before, after) :=
    cutAtByte?_eq_some_iff.mpr ⟨hquery, hbefore⟩
  have hcolumn : columnOf e.query.toList position = before.length := by
    rw [columnOf, Nat.min_eq_left hle, hcut]
  unfold display
  rw [hposition]
  simp only [caretLine, hcolumn]
  cases e.hint <;> rfl

/-- **An error that points into its text**, which was read with the vocabulary. -/
structure QueryError.PointsInto (v : Vocabulary) (text : String) (e : QueryError) : Prop where
  /-- The error holds the text. -/
  query_eq : e.query = text
  /-- There is no position exactly if the text is blank. -/
  position_eq_none_iff : e.position = none ↔ ∀ c ∈ text.toList, isBlank c = true
  /-- A position lies in the text, on the border of a character, and the caret of the report is
  indented by as many characters as this character has before it, and by two more. -/
  caret : ∀ position, e.position = some position → position ≤ byteLength text.toList ∧
    ∃ before after, text.toList = before ++ after ∧ byteLength before = position ∧
      cutAtByte? position text.toList = some (before, after) ∧
      e.display = "filter syntax error: " ++ e.message ++ "\n  " ++ text ++ "\n" ++
        (String.ofList (List.replicate (before.length + 2) ' ') ++ "^" ++ "\n") ++
        e.hint.elim "" ("hint: " ++ ·)
  /-- In the report, the text stands behind the lead, and the caret on the line behind the text. It
  stands straight under the character at the position just if the text is one line. -/
  under : ∀ before after, text.toList = before ++ after → e.position = some (byteLength before) →
    ∃ rest, e.display.toList = e.lead ++ (before ++ after ++
        '\n' :: List.replicate (before.length + 2) ' ') ++ '^' :: rest ∧
      ((Spot.origin.after (e.lead ++ (before ++ after ++
          '\n' :: List.replicate (before.length + 2) ' '))).IsUnder
        (Spot.origin.after (e.lead ++ before)) ↔ '\n' ∉ text.toList)
  /-- Where the text splits into tokens, and the error is that of reading the text of a group among
  them, it points behind the parenthesis that opens the group, at most as far as the one that closes
  it; and at the first one if the group is empty. -/
  group : ∀ ts negated body start, Token.tokens text = .ok ts → ⟨.group body, start⟩ ∈ ts →
    Filter.readGroup v negated start body = .error e.cause →
    ∃ before after position, text.toList = before ++ '(' :: (body.toList ++ ')' :: after) ∧
      byteLength before = start ∧ e.position = some position ∧
      ((∀ c ∈ body.toList, isBlank c = true) → position = start) ∧
      ((∃ c ∈ body.toList, isBlank c = false) →
        start < position ∧ position ≤ start + 1 + byteLength body.toList)

namespace Filter

variable {v : Vocabulary} {text body : String} {e : QueryError} {start : Nat} {negated : Bool}
  {ts : List Token}

theorem position_eq_none_iff_blanks (h : parseWith v text = .error e) :
    e.position = none ↔ Blanks text.toList := by
  rcases parseWith_eq_error_cases h with ⟨hblanks, hcause⟩ | ⟨hblanks, hcause⟩
  · refine iff_of_true ?_ hblanks
    rw [QueryError.position, hcause]
    rfl
  · obtain ⟨position, hposition⟩ := hcause.exists_position
    refine iff_of_false (fun hnone => ?_) hblanks
    cases hnone.symm.trans hposition

/-- **An error in a group points into the group.** -/
theorem exists_position_of_readGroup {cause : SyntaxError} (htokens : Token.tokens text = .ok ts)
    (hg : (⟨.group body, start⟩ : Token) ∈ ts)
    (h : readGroup v negated start body = .error cause) :
    ∃ before after position, text.toList = before ++ '(' :: (body.toList ++ ')' :: after) ∧
      byteLength before = start ∧ cause.position = some position ∧
      (Blanks body.toList → position = start) ∧
      (¬Blanks body.toList → start < position ∧ position ≤ start + 1 + byteLength body.toList) := by
  obtain ⟨before, after, htext, hstart⟩ := (Token.tokensFrom_eq_ok_iff.mp htokens).exists_group hg
  obtain ⟨position, hposition⟩ := (cause_of_readGroup h).exists_position
  refine ⟨before, after, position, htext, by rw [hstart, Nat.zero_add], hposition, ?_⟩
  rcases place_of_readGroup h hposition with ⟨hblanks, rfl⟩ | ⟨hblanks, hborder⟩
  · exact ⟨fun _ => rfl, fun hnot => absurd hblanks hnot⟩
  · obtain ⟨hfirst, hlast⟩ := hborder.bounds
    exact ⟨fun hall => absurd hall hblanks, fun _ => ⟨hfirst, hlast⟩⟩

/-- **Every error of the strict reading points into the text.** -/
theorem pointsInto_of_parseWith (h : parseWith v text = .error e) : e.PointsInto v text where
  query_eq := query_of_parseWith h
  position_eq_none_iff := position_eq_none_iff_blanks h
  caret := by
    intro position hposition
    obtain ⟨before, after, htext, hbefore⟩ := isBorder_of_parseWith h hposition
    rw [Nat.zero_add] at hbefore
    have hquery : e.query.toList = before ++ after := by rw [query_of_parseWith h, htext]
    have hdisplay := QueryError.display_eq_of_cut hposition hquery hbefore.symm
    rw [query_of_parseWith h] at hdisplay
    refine ⟨?_, before, after, htext, hbefore.symm,
      cutAtByte?_eq_some_iff.mpr ⟨htext, hbefore.symm⟩, hdisplay⟩
    rw [htext, byteLength_append]
    omega
  under := by
    intro before after htext hposition
    have hquery : e.query.toList = before ++ after := by rw [query_of_parseWith h, htext]
    have hdisplay := QueryError.display_eq_of_cut hposition hquery rfl
    refine ⟨'\n' :: (e.hint.elim "" ("hint: " ++ ·)).toList, ?_, ?_⟩
    · rw [hdisplay]
      simp [QueryError.lead, hquery]
    · rw [htext]
      exact e.isUnder_iff before after
  group := by
    intro ts negated body start htokens hg hread
    obtain ⟨before, after, position, htext, hstart, hposition, hempty, hinside⟩ :=
      exists_position_of_readGroup htokens hg hread
    refine ⟨before, after, position, htext, hstart, hposition, hempty, fun hsome => hinside ?_⟩
    rintro hblanks
    obtain ⟨c, hc, hnot⟩ := hsome
    rw [hblanks c hc] at hnot
    cases hnot

/-- An error in a group, behind a letter of two bytes. -/
theorem pointsInto_of_parseWith_group :
    let text := "-(\"é\" t>x)"
    let e : QueryError :=
      ⟨.parsing, (GrammarFault.refusedComparison "t" .greater).at 8, text⟩
    let group : Token := ⟨.group "\"é\" t>x", 1⟩
    parseWith .standard text = .error e ∧ Token.tokens text = .ok [⟨.minus, 0⟩, group] ∧
      readGroup .standard true 1 "\"é\" t>x" = .error e.cause ∧ e.PointsInto .standard text := by
  intro text e group
  have hparse : parseWith .standard text = .error e := by decide +kernel
  exact ⟨hparse, by decide +kernel, by decide +kernel, pointsInto_of_parseWith hparse⟩

/-- **In a text of two lines the caret stands under nothing.** The error is at the start of the
second line, and the caret is on the line after it, but indented by the first line as well. -/
theorem not_isUnder_of_two_lines :
    let text := "bolt\nshock"
    let e : QueryError := ⟨.parsing, (GrammarFault.trailing "'shock'").at 5, text⟩
    let indent := List.replicate 7 ' '
    parseWith .standard text = .error e ∧ e.position = some 5 ∧
      e.display.toList = e.lead ++ text.toList ++ '\n' :: indent ++ ['^', '\n'] ∧
      ¬(Spot.origin.after (e.lead ++ text.toList ++ '\n' :: indent)).IsUnder
        (Spot.origin.after (e.lead ++ "bolt\n".toList)) := by
  decide +kernel

end Filter

end CardFilter
