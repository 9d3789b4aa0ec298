import CardFilter.Outcome
import CardFilter.Proofs.FaultPlaces
import CardFilter.Proofs.RepairSlices

/-!
# Every slice is in bounds

What is done with a filter text is done without a fault of its own: whatever the text, wherever the
cursor and the selection are, every slice is taken between borders of characters within the text
and in the right order, and no position is subtracted from a smaller one. This file puts together
what the files before it show for each reader (`CardFilter.inBounds`).

Each reader is there twice: as it runs, on characters, and in slices, where every slice and every
subtraction can fail and then the whole has no value. The two agree, so the second always has a
value.
-/

namespace CardFilter

/-- **A report can be made of a fault at the position**: the text can be cut there, and the column
of the caret is the number of characters before. -/
def HasColumn (text : String) (position : Nat) : Prop :=
  ∃ before after, cutAtByte? position text.toList = some (before, after) ∧
    columnOf text.toList position = before.length

/-- **The standard vocabulary has no collision**: it can be set up. -/
theorem Vocabulary.ofKeys_standardKeys : Vocabulary.ofKeys standardKeys = .ok .standard := by
  unfold Vocabulary.ofKeys
  split
  · rename_i hfault
    cases hfault.symm.trans indexKeys_standardKeys
  · rename_i hindex
    cases hindex.symm.trans indexKeys_standardKeys
    rfl

/-- **Nothing fails**, in whatever is done with the text: no slice of it and no subtraction. -/
structure InBounds (text : String) : Prop where
  /-- The vocabulary that it is read with can be set up. -/
  vocabulary : Vocabulary.ofKeys standardKeys = .ok .standard
  /-- It splits into tokens, or has a lexical fault. -/
  tokens : Token.tokensInBytes? text = some ((Token.tokens text).map (·.map Token.span))
  /-- It is read as a filter, or has a fault; the text of a group is split again for that. -/
  parse (v : Vocabulary) : Filter.parseInBytes? v text = some (Filter.parseWith v text)
  /-- It splits into pieces, strictly or tolerantly, or has an open quote. -/
  pieces (mode : Draft.Mode) : Draft.scan? mode text.toList =
    some ((Draft.piecesFrom mode true false 0 text.toList).map (·.map Draft.Piece.stretch))
  /-- The text of every piece is there. -/
  pieceTexts (mode : Draft.Mode) (ps : List Draft.Piece) :
    Draft.piecesFrom mode true false 0 text.toList = .ok ps →
      ∀ p ∈ ps, p.stretch.text? text.toList = some p.text.toList
  /-- It is read as a draft term. -/
  term : Draft.Term.ofTextInBytes? text = some (Draft.Term.ofText text)
  /-- The draft term under a cursor is read, at any position. -/
  cursor (position : Nat) :
    Draft.Term.atCursorInBytes? text position = some (Draft.Term.atCursor text position)
  /-- It has an outcome. -/
  outcome : Outcome.ofTextInBytes? text = some (Outcome.ofText text)
  /-- It is repaired, with any two positions as the selection. -/
  repair (selection : Draft.Selection) :
    Draft.repairInBytes? text selection = some (Draft.repair text selection)
  /-- A fault in its tokens can be reported. -/
  tokenFault (e : LexError) : Token.tokens text = .error e → HasColumn text e.position
  /-- A fault in the filter can be reported. -/
  parseFault (v : Vocabulary) (e : QueryError) (position : Nat) :
    Filter.parseWith v text = .error e → e.position = some position → HasColumn e.query position
  /-- A fault in its pieces can be reported. -/
  pieceFault (e : LexError) : Draft.piecesStrictly text = .error e → HasColumn text e.position

theorem IsBorder.hasColumn {text : String} {position : Nat} (h : IsBorder 0 text.toList position) :
    HasColumn text position :=
  h.exists_cut

/-- The fault of a text is reported with the text. -/
theorem Filter.query_of_parseWith {v : Vocabulary} {text : String} {e : QueryError}
    (h : parseWith v text = .error e) : e.query = text := by
  unfold parseWith at h
  repeat' split at h
  all_goals cases h
  all_goals rfl

/-- **Every slice is in bounds**: for every text, every cursor and every selection. -/
theorem inBounds (text : String) : InBounds text where
  vocabulary := Vocabulary.ofKeys_standardKeys
  tokens := Token.tokensInBytes?_eq text
  parse v := Filter.parseInBytes?_eq v text
  pieces mode := Draft.scan?_eq mode text.toList
  pieceTexts _ _ h _ hp := Draft.text?_stretch (Draft.laid_of_piecesFrom h) hp
  term := Draft.Term.ofTextInBytes?_eq text
  cursor := Draft.Term.atCursorInBytes?_eq text
  outcome := Outcome.ofTextInBytes?_eq text
  repair := Draft.repairInBytes?_eq text
  tokenFault _ h := (Token.isBorder_of_tokensFrom h).hasColumn
  parseFault v e position h hposition := by
    rw [Filter.query_of_parseWith h]
    exact (Filter.isBorder_of_parseWith h hposition).hasColumn
  pieceFault _ h := (Draft.isBorder_of_piecesFrom h).hasColumn

end CardFilter
