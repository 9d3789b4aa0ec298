import CardFilter.Proofs.Grammar
import CardFilter.Proofs.Slices

/-!
# The strict reading in slices

The tokens of a complete filter are read character by character, with a counter of the bytes that
have been passed. A slice is taken in three places only: to begin with, of the stretch that is to
be read; at a character that may begin a comparison, of the whole text from there on, even past
the end of the stretch; and for a group, of what stands between its parentheses, whose end is one
byte before the end of the group. This file writes the reading with these slices
(`CardFilter.Token.spansBetween?`, `CardFilter.Filter.parseInBytes?`) and shows that none of them
fails and that the outcome is that of `CardFilter.Filter.parseWith`
(`CardFilter.Filter.parseInBytes?_eq`).

Two things are needed for it.

* **The counter stands on a border.** It has passed the characters before the place where the
  reader is, so the text from the counter on is what is still to be read, and after it what
  follows the stretch (`CardFilter.Token.spansFrom?_eq`). A comparison that is looked for there
  does not run past the end of the stretch, because no `=` follows it.
* **A group keeps its parentheses.** The text of a token stands in the text that it was read from
  (`CardFilter.Token.Splits.exists_written`), and that of a group begins and ends with a
  parenthesis, of one byte each.
-/

namespace CardFilter

namespace Comparison

/-- A comparison may begin with the character. -/
def begins (c : Char) : Bool :=
  c == '!' || c == '<' || c == '>' || c == '=' || c == ':'

/-- **Where no comparison begins**: at a character that begins none, and at a mark `!` without a
`=` after it. -/
theorem read?_eq_none_iff {c : Char} {rest : List Char} :
    read? (c :: rest) = none ↔ begins c = false ∨ c = '!' ∧ ∀ d ∈ rest.head?, d ≠ '=' := by
  constructor
  · intro h
    by_contra hnot
    simp only [begins, not_or, Bool.not_eq_false, Bool.or_eq_true, beq_iff_eq] at hnot
    obtain ⟨hbegins, hbang⟩ := hnot
    rcases hbegins with (((rfl | rfl) | rfl) | rfl) | rfl
    · refine hbang ⟨rfl, ?_⟩
      rintro d hd rfl
      obtain ⟨tail, rfl⟩ := List.head?_eq_some_iff.mp hd
      cases h
    all_goals
      unfold read? at h
      split at h <;> simp_all
  · rw [Option.eq_none_iff_forall_not_mem]
    rintro h ⟨symbol, after⟩ hread
    have happend := eq_append_of_read? hread
    rcases h with h | ⟨rfl, h⟩
    · cases symbol <;> cases happend <;> exact absurd h (by decide)
    · cases symbol <;> cases happend
      exact h '=' rfl rfl

/-- **The look-ahead past the end of a stretch**: it finds no other comparison than within the
stretch, unless a `=` follows. -/
theorem read?_append_of_head? {c : Char} {rest post : List Char}
    (h : ∀ d ∈ post.head?, d ≠ '=') :
    read? (c :: (rest ++ post)) =
      (read? (c :: rest)).map fun (symbol, after) => (symbol, after ++ post) := by
  cases hread : read? (c :: rest) with
  | none =>
    rw [Option.map_none, read?_eq_none_iff]
    exact (read?_eq_none_iff.mp hread).imp_right
      (And.imp_right fun hrest => forall_head?_append hrest h)
  | some r =>
    obtain ⟨symbol, after⟩ := r
    obtain ⟨happend, hend⟩ := read?_eq_some_iff.mp hread
    rw [Option.map_some, ← List.cons_append, happend, List.append_assoc]
    refine read?_append (forall_head?_append hend fun d hd => ?_)
    have hne : d ≠ '=' := h d hd
    cases symbol <;> simp [isProlongedBy, hne]

/-- A symbol is written in characters of one byte. -/
theorem byteLength_chars (c : Comparison) : byteLength c.chars = c.chars.length := by
  cases c <;> rfl

end Comparison

namespace Token

/-! ### Tokens with their two positions -/

/-- A token with the byte position that is reached behind it. -/
structure Span where
  /-- The token. -/
  token : Token
  /-- The counter of bytes after its last character. -/
  stop : Nat
  deriving DecidableEq, Repr

/-- The token with the position where it ends. -/
def span (t : Token) : Span :=
  ⟨t, t.stop⟩

/-- The comparison or the mark `!` that begins here. It is looked for in the whole text from the
position on; the characters `cs` that are still to be read are passed one by one. -/
def readOperatorInBytes? (input : List Char) (position : Nat) (cs : List Char) :
    Option (TokenKind × List Char) := do
  let ahead ← textFrom? position input
  match Comparison.read? ahead with
  | some (c, _) => some (.comparison c, cs.drop (byteLength c.chars))
  | none => some (.bang, cs.drop 1)

/-- The token that begins with `c`, where `rest` comes after it in the stretch that is read. -/
def readInBytes? (input : List Char) (position : Nat) (c : Char) (rest : List Char) :
    Option (Except LexError (TokenKind × List Char)) :=
  if Comparison.begins c then (readOperatorInBytes? input position (c :: rest)).map .ok
  else some (read position c rest)

theorem length_le_of_readInBytes? {input rest after : List Char} {position : Nat} {c : Char}
    {kind : TokenKind} (h : readInBytes? input position c rest = some (.ok (kind, after))) :
    after.length ≤ rest.length := by
  rw [readInBytes?] at h
  split at h
  · obtain ⟨⟨k, rear⟩, hoperator, heq⟩ := Option.map_eq_some_iff.mp h
    cases heq
    rw [readOperatorInBytes?] at hoperator
    obtain ⟨ahead, -, hread⟩ := Option.bind_eq_some_iff.mp hoperator
    split at hread
    · rename_i symbol _ _
      cases hread
      rw [List.length_drop, List.length_cons, symbol.byteLength_chars]
      cases symbol <;> simp [Comparison.chars]
    · cases hread
      simp
  · exact length_le_of_read (Option.some.inj h)

/-- The characters of `cs` that come before the rest `after` of it. -/
def passed (cs after : List Char) : List Char :=
  cs.take (cs.length - after.length)

/-- The tokens of the characters `cs`, which stand in the text `input` at the byte position
`position`. -/
def spansFrom? (input : List Char) (position : Nat) :
    List Char → Option (Except LexError (List Span))
  | [] => some (.ok [])
  | c :: rest =>
    if isBlank c then spansFrom? input (position + c.utf8Size) rest
    else match _hread : readInBytes? input position c rest with
      | none => none
      | some (.error e) => some (.error e)
      | some (.ok (kind, after)) =>
        let stop := position + byteLength (passed (c :: rest) after)
        (spansFrom? input stop after).map (·.map (⟨⟨kind, position⟩, stop⟩ :: ·))
termination_by cs => cs.length
decreasing_by
  · simp
  · exact Nat.lt_succ_of_le (length_le_of_readInBytes? _hread)

/-- The tokens of a text between two byte positions. -/
def spansBetween? (start stop : Nat) (input : List Char) :
    Option (Except LexError (List Span)) := do
  let cs ← textBetween? start stop input
  spansFrom? input start cs

/-- The tokens of a text. -/
def tokensInBytes? (text : String) : Option (Except LexError (List Span)) :=
  spansBetween? 0 (byteLength text.toList) text.toList

/-! ### The counter stands on a border -/

section Spans

variable {before rest cs body post : List Char} {c : Char} {position start : Nat}
  {ts : List Token}

/-- Where a comparison may begin, it or the mark `!` is what is read. -/
theorem read_of_begins (h : Comparison.begins c = true) :
    read position c rest = .ok (match Comparison.read? (c :: rest) with
      | some (symbol, after) => (.comparison symbol, after)
      | none => (.bang, rest)) := by
  have hmark : ∀ d : Char, Comparison.begins d = false → c ≠ d := by
    rintro d hd rfl
    rw [h] at hd
    cases hd
  have hquote : ¬(c = '"' ∨ c = '\'') :=
    not_or.mpr ⟨hmark '"' (by decide), hmark '\'' (by decide)⟩
  rw [read, if_neg hquote, if_neg (hmark '/' (by decide)), if_neg (hmark '(' (by decide)),
    if_neg (hmark ')' (by decide)), if_neg (hmark '-' (by decide))]
  cases hread : Comparison.read? (c :: rest) with
  | some r => rfl
  | none =>
    rcases Comparison.read?_eq_none_iff.mp hread with hbegins | ⟨hbang, -⟩
    · exact absurd rfl (hmark c hbegins)
    · exact if_pos hbang

/-- **At a border the look-ahead succeeds**, and the token is the one that is read. -/
theorem readInBytes?_eq (hpost : ∀ d ∈ post.head?, d ≠ '=') :
    readInBytes? (before ++ (c :: rest ++ post)) (byteLength before) c rest =
      some (read (byteLength before) c rest) := by
  rw [readInBytes?]
  split
  · rename_i hbegins
    rw [readOperatorInBytes?, textFrom?_append, read_of_begins hbegins]
    simp only [Option.bind_eq_bind, Option.bind_some, List.cons_append,
      Comparison.read?_append_of_head? hpost]
    cases hread : Comparison.read? (c :: rest) with
    | none => rfl
    | some r =>
      obtain ⟨symbol, after⟩ := r
      simp only [Option.map_some, symbol.byteLength_chars]
      rw [Comparison.eq_append_of_read? hread, List.drop_left]
  · rfl

theorem passed_append : passed (body ++ rest) rest = body := by
  rw [passed, List.length_append, Nat.add_sub_cancel, List.take_left]

/-- One token, and those after it. -/
theorem spansFrom?_token {kind : TokenKind} {input : List Char} (hblank : ¬isBlank c = true)
    (hread : readInBytes? input position c rest = some (.ok (kind, cs)))
    (hpassed : c :: rest = body ++ cs) :
    spansFrom? input position (c :: rest) =
      (spansFrom? input (position + byteLength body) cs).map
        (·.map (⟨⟨kind, position⟩, position + byteLength body⟩ :: ·)) := by
  rw [spansFrom?, if_neg hblank]
  split
  · simp_all
  · simp_all
  · rename_i hok
    rw [hread] at hok
    cases hok
    rw [hpassed, passed_append]

/-- **The tokens with their positions**: no slice fails, and the counter stands behind each
token. -/
theorem spansFrom?_eq (hpost : ∀ d ∈ post.head?, d ≠ '=')
    (hposition : byteLength before = position) :
    spansFrom? (before ++ (cs ++ post)) position cs =
      some ((tokensFrom position cs).map (·.map span)) := by
  fun_induction tokensFrom position cs generalizing before with
  | case1 =>
    rw [spansFrom?]
    rfl
  | case2 position c rest hblank ih =>
    have hrest := @ih (before ++ [c]) (by simp [hposition])
    rw [List.append_assoc, List.singleton_append] at hrest
    rw [spansFrom?, if_pos hblank, List.cons_append, hrest]
  | case3 position c rest hblank e hread =>
    have hbytes : readInBytes? (before ++ (c :: rest ++ post)) position c rest = _ :=
      hposition ▸ readInBytes?_eq hpost
    rw [hread] at hbytes
    rw [spansFrom?, if_neg hblank]
    split
    · simp_all
    · rename_i herror
      rw [hbytes] at herror
      cases herror
      rfl
    · simp_all
  | case4 position c rest hblank kind after hread e hfollowing ih
  | case5 position c rest hblank kind after hread following hfollowing ih =>
    have hbytes : readInBytes? (before ++ (c :: rest ++ post)) position c rest = _ :=
      hposition ▸ readInBytes?_eq hpost
    rw [hread] at hbytes
    obtain ⟨word, hword, happend, -⟩ := written_of_read hread
    have hrest := @ih (before ++ word) (by rw [byteLength_append, hposition, hword.width_eq])
    rw [List.append_assoc, ← List.append_assoc word, ← happend, hword.width_eq] at hrest
    rw [spansFrom?_token hblank hbytes happend, hrest, ← hword.width_eq, hfollowing]
    rfl

/-- **The stretch between two borders** is there to be read. -/
theorem spansBetween?_eq (hpost : ∀ d ∈ post.head?, d ≠ '=') :
    spansBetween? (byteLength before) (byteLength before + byteLength cs)
        (before ++ (cs ++ post)) =
      some ((tokensFrom (byteLength before) cs).map (·.map span)) := by
  rw [spansBetween?, textBetween?_append]
  exact spansFrom?_eq hpost rfl

/-- **The tokens of a text in slices.** -/
theorem tokensInBytes?_eq (text : String) :
    tokensInBytes? text = some ((tokens text).map (·.map span)) := by
  have hwhole : spansBetween? (byteLength []) (byteLength [] + byteLength text.toList)
      ([] ++ (text.toList ++ [])) = _ := spansBetween?_eq (by simp)
  simpa [tokensInBytes?, tokens] using hwhole

/-- **A token stands in the text** that it was read from, with its text at its position, and is
as long as it can be. -/
theorem Splits.exists_written {t : Token} (h : Splits position cs ts) (ht : t ∈ ts) :
    ∃ before word after, cs = before ++ (word ++ after) ∧
      t.start = position + byteLength before ∧ t.kind.Written word ∧ t.kind.EndsBefore after := by
  induction h with
  | nil => cases ht
  | @blank position c cs ts hblank _ ih =>
    obtain ⟨before, word, after, rfl, hstart, hword⟩ := ih ht
    refine ⟨c :: before, word, after, rfl, ?_, hword⟩
    rw [hstart, byteLength_cons, Nat.add_assoc]
  | @token position k word after ts hk hend _ ih =>
    rcases List.mem_cons.mp ht with rfl | ht
    · exact ⟨[], word, after, rfl, rfl, hk, hend⟩
    · obtain ⟨before, inner, rear, rfl, hstart, hinner⟩ := ih ht
      refine ⟨word ++ before, inner, rear, by rw [List.append_assoc], ?_, hinner⟩
      rw [hstart, byteLength_append, hk.width_eq, Nat.add_assoc]

/-- A group stands there between its parentheses. -/
theorem Splits.exists_group {text : String} (h : Splits position cs ts)
    (ht : (⟨.group text, start⟩ : Token) ∈ ts) :
    ∃ before after, cs = before ++ ('(' :: (text.toList ++ ')' :: after)) ∧
      start = position + byteLength before := by
  obtain ⟨before, word, after, rfl, hstart, hword, -⟩ := h.exists_written ht
  cases hword with
  | group => exact ⟨before, after, by simp, hstart⟩

/-- **The stretch between its parentheses** splits as its text does there: a `)` comes next, which
makes no comparison longer. -/
theorem Splits.spansBetween?_group {input : List Char} {text : String} (h : Splits 0 input ts)
    (hg : (⟨.group text, start⟩ : Token) ∈ ts) :
    spansBetween? (start + 1) (stop ⟨.group text, start⟩ - 1) input =
      some ((tokensFrom (start + 1) text.toList).map (·.map span)) := by
  obtain ⟨before, after, hinput, hstart⟩ := h.exists_group hg
  rw [Nat.zero_add] at hstart
  -- one byte for each parenthesis
  have hfirst : byteLength (before ++ ['(']) = start + 1 := by
    rw [byteLength_append, hstart]
    rfl
  have hlast : stop ⟨.group text, start⟩ - 1 = start + 1 + byteLength text.toList := by
    have hstop : stop ⟨.group text, start⟩ = start + (byteLength text.toList + 2) := rfl
    omega
  have hsplit : input = (before ++ ['(']) ++ (text.toList ++ ')' :: after) := by
    simp [hinput]
  rw [hlast, hsplit, ← hfirst]
  exact spansBetween?_eq (by simp)

end Spans

end Token

/-! ### Filters -/

namespace Filter

open Token (Span span spansBetween?)

/-- The group whose tokens were read; its parenthesis opens at the byte position `start`. -/
def groupOfSpans (v : Vocabulary) (negated : Bool) (start : Nat) :
    Except LexError (List Span) → Except SyntaxError Filter
  | .error e => .error e.toSyntaxError
  | .ok [] => .error (GrammarFault.emptyGroup.at start)
  | .ok (s :: ss) =>
    match readMembers v true ((s :: ss).map (·.token)) with
    | .error e => .error e
    | .ok members => .ok (.anyOf negated members)

/-- The group that stands between two byte positions: the text between its parentheses is split
again. -/
def readGroupInBytes? (v : Vocabulary) (input : List Char) (negated : Bool) (start stop : Nat) :
    Option (Except SyntaxError Filter) := do
  let last ← minus? stop 1
  let spans ← spansBetween? (start + 1) last input
  some (groupOfSpans v negated start spans)

/-- The filter that the tokens of the text `input` form. -/
def ofSpans? (v : Vocabulary) (input : List Char) :
    List Span → Option (Except SyntaxError Filter)
  | ⟨⟨.group _, start⟩, stop⟩ :: rest =>
    (readGroupInBytes? v input false start stop).map
      (·.bind (complete · (rest.map (·.token))))
  | ⟨⟨.minus, start⟩, stop⟩ :: ⟨⟨.group _, groupStart⟩, groupStop⟩ :: rest =>
    if groupStart = stop then
      (readGroupInBytes? v input true groupStart groupStop).map
        (·.bind (complete · (rest.map (·.token))))
    else some (.error (GrammarFault.detachedMinus.at start))
  | ss => some (ofTokens v (ss.map (·.token)))

/-- The filter that a text writes. -/
def parseInBytes? (v : Vocabulary) (text : String) : Option (Except QueryError Filter) := do
  match ← Token.tokensInBytes? text with
  | .error e => some (.error ⟨.lexing, e.toSyntaxError, text⟩)
  | .ok ss =>
    match ← ofSpans? v text.toList ss with
    | .error e => some (.error ⟨.parsing, e, text⟩)
    | .ok f => some (.ok f)

section Parse

variable {v : Vocabulary} {negated : Bool} {input : List Char} {body : String} {start : Nat}
  {ts : List Token}

theorem map_token_map_span (ts : List Token) : (ts.map span).map (·.token) = ts := by
  rw [List.map_map]
  exact List.map_id ts

theorem groupOfSpans_map_span :
    groupOfSpans v negated start
        ((Token.tokensFrom (start + 1) body.toList).map (·.map span)) =
      readGroup v negated start body := by
  rw [readGroup]
  rcases Token.tokensFrom (start + 1) body.toList with e | _ | ⟨t, ts⟩
  · rfl
  · rfl
  · simp only [Except.map, groupOfSpans, List.map_cons, map_token_map_span]
    rfl

/-- **A group is split again**: the slice between its parentheses is its text. -/
theorem readGroupInBytes?_eq (h : Token.Splits 0 input ts)
    (hg : (⟨.group body, start⟩ : Token) ∈ ts) :
    readGroupInBytes? v input negated start (Token.stop ⟨.group body, start⟩) =
      some (readGroup v negated start body) := by
  have hlast : 1 ≤ Token.stop ⟨.group body, start⟩ := Nat.le_add_left _ _
  rw [readGroupInBytes?, minus?_of_le hlast, ← groupOfSpans_map_span]
  simp only [Option.bind_eq_bind, Option.bind_some, h.spansBetween?_group hg]

/-- **The filter that tokens form**, where they are those of the text. -/
theorem ofSpans?_eq (h : Token.Splits 0 input ts) :
    ofSpans? v input (ts.map span) = some (ofTokens v ts) := by
  unfold ofSpans?
  split
  · rename_i body start stop rest hspans
    obtain ⟨t, ts, rfl, ht, rfl⟩ := List.map_eq_cons_iff.mp hspans
    cases ht
    rw [readGroupInBytes?_eq h List.mem_cons_self, map_token_map_span, ofTokens]
    cases readGroup v false start body <;> rfl
  · rename_i start stop body groupStart groupStop rest hspans
    obtain ⟨t, ts, rfl, ht, hspans⟩ := List.map_eq_cons_iff.mp hspans
    obtain ⟨g, ts, rfl, hg, rfl⟩ := List.map_eq_cons_iff.mp hspans
    cases ht
    cases hg
    rw [readGroupInBytes?_eq h (List.mem_cons_of_mem _ List.mem_cons_self), map_token_map_span,
      ofTokens]
    change (if groupStart = start + 1 then _ else _) = _
    split
    · cases readGroup v true groupStart body <;> rfl
    · rfl
  · rw [map_token_map_span]

/-- **The strict reading in slices**: none of them fails, and the outcome is the same. -/
theorem parseInBytes?_eq (v : Vocabulary) (text : String) :
    parseInBytes? v text = some (parseWith v text) := by
  rw [parseInBytes?, Token.tokensInBytes?_eq, parseWith]
  simp only [Option.bind_eq_bind, Option.bind_some]
  cases htokens : Token.tokens text with
  | error e => rfl
  | ok ts =>
    simp only [Except.map]
    rw [ofSpans?_eq (Token.tokensFrom_eq_ok_iff.mp htokens), Option.bind_some]
    cases ofTokens v ts <;> rfl

end Parse

end Filter

end CardFilter
