/-!
# Quotes

A value can stand between quotes of three kinds: double and single quotes hold plain text, and
slashes hold a regular expression. A quoted stretch ends at the next character of its kind; there
are no escapes.
-/

namespace CardFilter

/-- The three ways to enclose a value. -/
inductive Quote
  /-- Between double quotes. -/
  | double
  /-- Between single quotes. -/
  | single
  /-- Between slashes: a regular expression. -/
  | regex
  deriving DecidableEq, Repr, Inhabited

namespace Quote

/-- The character that opens and closes the stretch. -/
def mark : Quote → Char
  | double => '"'
  | single => '\''
  | regex => '/'

/-- The quote that a character opens. -/
def ofChar? (c : Char) : Option Quote :=
  if c = '"' then some double
  else if c = '\'' then some single
  else if c = '/' then some regex
  else none

@[simp] theorem ofChar?_mark (q : Quote) : ofChar? q.mark = some q := by
  cases q <;> rfl

theorem eq_mark_of_ofChar? {c : Char} {q : Quote} (h : ofChar? c = some q) : c = q.mark := by
  unfold ofChar? at h
  repeat' split at h
  all_goals cases h
  all_goals simpa [mark]

end Quote

/-- **Cuts at the first `mark`**: what stands before it and what stands after it. -/
def cutAtMark? (mark : Char) : List Char → Option (List Char × List Char)
  | [] => none
  | c :: rest =>
    if c = mark then some ([], rest)
    else (cutAtMark? mark rest).map fun (before, after) => (c :: before, after)

theorem eq_append_of_cutAtMark? {mark : Char} {cs before after : List Char}
    (h : cutAtMark? mark cs = some (before, after)) : cs = before ++ mark :: after := by
  induction cs generalizing before with
  | nil => cases h
  | cons c rest ih =>
    rw [cutAtMark?] at h
    split at h
    · simp_all
    · obtain ⟨⟨b, a⟩, hcut, heq⟩ := Option.map_eq_some_iff.1 h
      obtain ⟨rfl, rfl⟩ := Prod.mk.inj heq
      rw [ih hcut, List.cons_append]

end CardFilter
