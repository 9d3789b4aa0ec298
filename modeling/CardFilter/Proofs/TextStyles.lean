import CardFilter.Proofs.DocumentTokens
import CardFilter.Toml.Written
import Mathlib.Data.List.Basic

/-!
# Written texts are read back

A text is written in one of four styles, and whatever the style, the reader of that style gives the
text back and stops behind its closing quotes.

* Escapes stand for the characters they were written for
  (`CardFilter.Toml.exists_readEscape?`). A text with escapes is therefore read back whatever it
  holds.
* A text that is written as it stands is read back if it holds nothing that its style cannot show
  (`CardFilter.Toml.TextStyle.Shows`), and the style of a text is chosen that way
  (`CardFilter.Toml.styleOf_shows`).
* Where quotes of the text stand before the closing quotes, up to two of them are told from these
  (`CardFilter.Toml.closeMultiline?_quote`). This is why runs of quotes are counted.

The main statement is `CardFilter.Toml.writes_writeText`.
-/

namespace CardFilter.Toml

variable {cs rest : List Char}

/-! ### Escapes -/

theorem readHex?_append {n acc m : Nat} {left : List Char}
    (h : readHex? n acc cs = some (m, left)) (after : List Char) :
    readHex? n acc (cs ++ after) = some (m, left ++ after) := by
  fun_induction readHex? n acc cs with
  | case1 acc cs =>
    cases h
    rw [readHex?]
  | case2 | case4 => cases h
  | case3 acc n c cs d hd ih =>
    rw [List.cons_append, readHex?, hd]
    exact ih h

/-- Four hexadecimal digits write any control character. -/
theorem readHex?_codeEscape : ∀ n < 128, readHex? 4 0 (List.replicate
    (4 - ((Nat.toDigits 16 n).map upperDigit).length) '0' ++ (Nat.toDigits 16 n).map upperDigit)
      = some (n, []) := by
  decide

theorem readEscape?_codeEscape {c : Char} (h : isControl c = true) : ∃ digits,
    codeEscape c = '\\' :: 'u' :: digits ∧
      ∀ after, readEscape? ('u' :: digits ++ after) = some (c, after) := by
  have hcode : c.toNat < 128 := by
    simp only [isControl, Bool.or_eq_true, Bool.and_eq_true, decide_eq_true_eq, beq_iff_eq] at h
    omega
  have hread (after : List Char) := readHex?_append (readHex?_codeEscape _ hcode) after
  refine ⟨List.replicate (4 - ((Nat.toDigits 16 c.toNat).map upperDigit).length) '0'
    ++ (Nat.toDigits 16 c.toNat).map upperDigit, rfl, fun after => ?_⟩
  have hchar : charOfCode? c.toNat = some c := by
    rw [charOfCode?, if_pos (Or.inl (by omega)), Char.ofNat_toNat]
  rw [List.cons_append, readEscape?, readCode?, hread after]
  exact congrArg (Option.map _) hchar

/-- **An escape stands for its character**, and no line is joined there. -/
theorem exists_readEscape? {keepsLines : Bool} {c : Char} {e : List Char}
    (h : escape? keepsLines c = some e) : ∃ mark more, e = '\\' :: mark :: more ∧
      (isSpace mark = false ∧ mark ≠ '\n' ∧ mark ≠ '\r') ∧
      ∀ after, readEscape? (mark :: more ++ after) = some (c, after) := by
  unfold escape? at h
  split at h
  case h_3 =>
    split at h
    · cases h
    · cases h
      exact ⟨_, _, rfl, by decide, fun _ => rfl⟩
  case h_7 =>
    split at h
    · rename_i hc
      cases h
      obtain ⟨digits, hcode, hread⟩ := readEscape?_codeEscape hc
      exact ⟨_, _, hcode, by decide, hread⟩
    · cases h
  all_goals
    cases h
    exact ⟨_, _, rfl, by decide, fun _ => rfl⟩

/-- A character without an escape stands for itself. -/
theorem of_escape?_eq_none {keepsLines : Bool} {c : Char} (h : escape? keepsLines c = none) :
    c ≠ '\\' ∧ (isControl c = false ∨ keepsLines = true ∧ c = '\n') := by
  unfold escape? at h
  split at h
  case h_3 =>
    split at h
    · rename_i hkeeps
      exact ⟨by decide, Or.inr ⟨hkeeps, rfl⟩⟩
    · cases h
  case h_7 hne =>
    split at h
    · cases h
    · rename_i hc
      exact ⟨hne, Or.inl (Bool.eq_false_iff.mpr hc)⟩
  all_goals cases h

theorem joinLines?_eq_none {mark : Char} (hspace : isSpace mark = false) (hnewline : mark ≠ '\n')
    (hreturn : mark ≠ '\r') (after : List Char) : joinLines? (mark :: after) = none := by
  rw [joinLines?, List.dropWhile_cons_of_neg (by rw [hspace]; exact Bool.false_ne_true)]
  split
  · rename_i heq
    exact absurd (List.cons.inj heq).1 hnewline
  · rename_i heq
    exact absurd (List.cons.inj heq).1 hreturn
  · rfl

theorem escapeFrom_quote_of_lt {keepsLines : Bool} {quotes : Nat}
    (h : quotes < if keepsLines then 2 else 0) (cs : List Char) :
    escapeFrom keepsLines quotes ('"' :: cs) = '"' :: escapeFrom keepsLines (quotes + 1) cs := by
  rw [escapeFrom, if_pos rfl, if_pos h]

theorem escapeFrom_quote_of_not_lt {keepsLines : Bool} {quotes : Nat}
    (h : ¬ quotes < if keepsLines then 2 else 0) (cs : List Char) :
    escapeFrom keepsLines quotes ('"' :: cs) = '\\' :: '"' :: escapeFrom keepsLines 0 cs := by
  rw [escapeFrom, if_pos rfl, if_neg h]
  rfl

theorem escapeFrom_of_ne {c : Char} (hc : c ≠ '"') (keepsLines : Bool) (quotes : Nat)
    (cs : List Char) : escapeFrom keepsLines quotes (c :: cs)
      = (escape? keepsLines c).getD [c] ++ escapeFrom keepsLines 0 cs := by
  rw [escapeFrom, if_neg hc]

/-! ### Texts on one line -/

theorem readBasic?_close (rest : List Char) : readBasic? ('"' :: rest) = some ([], rest) := by
  rw [readBasic?]

theorem readBasic?_escape {c : Char} {cs after : List Char}
    (h : readEscape? cs = some (c, after)) :
    readBasic? ('\\' :: cs) = putFront c (readBasic? after) := by
  rw [readBasic?]
  split
  · rename_i hread
    rw [h] at hread
    cases hread
    rfl
  · rename_i hread
    rw [h] at hread
    cases hread

theorem readBasic?_plain {c : Char} (hquote : c ≠ '"') (hslash : c ≠ '\\')
    (hcontrol : isControl c = false) (cs : List Char) :
    readBasic? (c :: cs) = putFront c (readBasic? cs) := by
  rw [readBasic?, if_neg (by rw [hcontrol]; exact Bool.false_ne_true)]
  · exact hquote
  · exact hslash

/-- **A text with escapes is read back** from one line. -/
theorem readBasic?_escapeFrom (quotes : Nat) (cs rest : List Char) :
    readBasic? (escapeFrom false quotes cs ++ '"' :: rest) = some (cs, rest) := by
  induction cs generalizing quotes with
  | nil => exact readBasic?_close rest
  | cons c cs ih =>
    by_cases hc : c = '"'
    · rw [hc, escapeFrom_quote_of_not_lt (Nat.not_lt_zero quotes), List.cons_append,
        List.cons_append, readBasic?_escape (c := '"') rfl, ih]
      rfl
    · rw [escapeFrom_of_ne hc]
      cases hescape : escape? false c with
      | some e =>
        obtain ⟨mark, more, rfl, -, hread⟩ := exists_readEscape? hescape
        rw [Option.getD_some, List.append_assoc, List.cons_append, readBasic?_escape (hread _), ih]
        rfl
      | none =>
        obtain ⟨hslash, hcontrol | ⟨hkeeps, -⟩⟩ := of_escape?_eq_none hescape
        · rw [Option.getD_none, List.append_assoc, List.singleton_append,
            readBasic?_plain hc hslash hcontrol, ih]
          rfl
        · cases hkeeps

/-- **A text without single quotes and control characters is read back** as it stands. -/
theorem readLiteral?_append (h : ∀ c ∈ cs, isControl c = false ∧ c ≠ '\'') (rest : List Char) :
    readLiteral? (cs ++ '\'' :: rest) = some (cs, rest) := by
  induction cs with
  | nil => rfl
  | cons c cs ih =>
    obtain ⟨hcontrol, hquote⟩ := h c List.mem_cons_self
    rw [List.cons_append, readLiteral?, if_neg (by rw [hcontrol]; exact Bool.false_ne_true),
      ih fun d hd => h d (List.mem_cons_of_mem _ hd)]
    · rfl
    · exact hquote

/-! ### The closing quotes of a text on several lines -/

section Close

variable {quote : Char}

theorem closeMultiline?_of_not {a b c : Char} (h : ¬ (a = quote ∧ b = quote ∧ c = quote))
    (cs : List Char) : closeMultiline? quote (a :: b :: c :: cs) = none := by
  unfold closeMultiline?
  exact if_neg h

theorem closeMultiline?_of_ne {c : Char} (h : c ≠ quote) (cs : List Char) :
    closeMultiline? quote (c :: cs) = none := by
  match cs with
  | [] | [_] => rfl
  | a :: b :: cs => exact closeMultiline?_of_not (fun hc => h hc.1) cs

/-- The closing quotes, with no quote before them. -/
theorem closeMultiline?_close (h : rest.head? ≠ some quote) :
    closeMultiline? quote (quote :: quote :: quote :: rest) = some ([], rest) := by
  unfold closeMultiline?
  match rest, h with
  | [], _ => exact if_pos ⟨rfl, rfl, rfl⟩
  | [d], h => exact (if_pos ⟨rfl, rfl, rfl⟩).trans (if_neg fun hd => h (congrArg some hd))
  | d :: e :: rest, h =>
    have hd : d ≠ quote := fun hd => h (congrArg some hd)
    exact (if_pos ⟨rfl, rfl, rfl⟩).trans ((if_neg fun hd' => hd hd'.1).trans (if_neg hd))

/-- **A quote of the text before the closing quotes.** What stands between them is nothing or one
more quote, and then the text is closed here; or a quote of the text is followed by something else,
and then it is not. -/
theorem closeMultiline?_quote (h : rest.head? ≠ some quote) (body : List Char)
    (hbody : ∀ more, body ≠ quote :: quote :: more) :
    (body = [] ∨ body = [quote]) ∧ closeMultiline? quote
        (quote :: (body ++ quote :: quote :: quote :: rest)) = some (quote :: body, rest) ∨
      closeMultiline? quote (quote :: (body ++ quote :: quote :: quote :: rest)) = none := by
  match body, hbody with
  | [], _ =>
    refine Or.inl ⟨Or.inl rfl, ?_⟩
    unfold closeMultiline?
    refine (if_pos ⟨rfl, rfl, rfl⟩).trans ?_
    match rest, h with
    | [], _ => exact if_pos rfl
    | e :: rest, h =>
      have he : e ≠ quote := fun he => h (congrArg some he)
      exact (if_neg fun he' => he he'.2).trans (if_pos rfl)
  | [c], _ =>
    by_cases hc : c = quote
    · refine Or.inl ⟨Or.inr (congrArg (fun d => [d]) hc), ?_⟩
      rw [hc]
      unfold closeMultiline?
      exact (if_pos ⟨rfl, rfl, rfl⟩).trans (if_pos ⟨rfl, rfl⟩)
    · exact Or.inr (closeMultiline?_of_not (fun h => hc h.2.1) _)
  | c :: d :: more, hbody =>
    refine Or.inr (closeMultiline?_of_not ?_ _)
    rintro ⟨-, rfl, rfl⟩
    exact hbody more rfl

end Close

/-! ### Texts on several lines -/

theorem readMultilineBasic?_closed {c : Char} {cs extra rest : List Char} (hslash : c ≠ '\\')
    (hreturn : c ≠ '\r') (h : closeMultiline? '"' (c :: cs) = some (extra, rest)) :
    readMultilineBasic? (c :: cs) = some (extra, rest) := by
  rw [readMultilineBasic?]
  · split
    · rename_i hclose
      rw [← hclose, h]
    · rename_i hclose
      rw [h] at hclose
      cases hclose
  · exact fun _ heq _ => hreturn heq
  · exact hslash

theorem readMultilineBasic?_plain {c : Char} {cs : List Char} (hslash : c ≠ '\\')
    (hreturn : c ≠ '\r') (hcontrol : isControl c = false ∨ c = '\n')
    (h : closeMultiline? '"' (c :: cs) = none) :
    readMultilineBasic? (c :: cs) = putFront c (readMultilineBasic? cs) := by
  rw [readMultilineBasic?]
  · split
    · rename_i hclose
      rw [h] at hclose
      cases hclose
    · refine if_neg fun hbad => ?_
      rw [Bool.and_eq_true, bne_iff_ne] at hbad
      rcases hcontrol with hcontrol | hnewline
      · rw [hcontrol] at hbad
        exact Bool.false_ne_true hbad.1
      · exact hbad.2 hnewline
  · exact fun _ heq _ => hreturn heq
  · exact hslash

theorem readMultilineBasic?_escape {c : Char} {cs after : List Char} (hjoin : joinLines? cs = none)
    (h : readEscape? cs = some (c, after)) :
    readMultilineBasic? ('\\' :: cs) = putFront c (readMultilineBasic? after) := by
  rw [readMultilineBasic?]
  split
  · rename_i hjoin'
    rw [hjoin] at hjoin'
    cases hjoin'
  · split
    · rename_i hread
      rw [h] at hread
      cases hread
      rfl
    · rename_i hread
      rw [h] at hread
      cases hread

/-- **How a text with escapes begins**: with an escape, with a quote that stands as it is, or with
another character that does. -/
theorem escapeFrom_cons_cases (keepsLines : Bool) (quotes : Nat) (c : Char) (cs : List Char) :
    (∃ more, escapeFrom keepsLines quotes (c :: cs) = '\\' :: more) ∨
      (c = '"' ∧ (quotes < if keepsLines then 2 else 0) ∧
        escapeFrom keepsLines quotes (c :: cs) = c :: escapeFrom keepsLines (quotes + 1) cs) ∨
      (c ≠ '"' ∧ escape? keepsLines c = none ∧
        escapeFrom keepsLines quotes (c :: cs) = c :: escapeFrom keepsLines 0 cs) := by
  by_cases hc : c = '"'
  · subst hc
    by_cases hlt : quotes < if keepsLines then 2 else 0
    · exact Or.inr (Or.inl ⟨rfl, hlt, escapeFrom_quote_of_lt hlt cs⟩)
    · exact Or.inl ⟨_, escapeFrom_quote_of_not_lt hlt cs⟩
  · rw [escapeFrom_of_ne hc]
    cases hescape : escape? keepsLines c with
    | some e =>
      obtain ⟨mark, more, rfl, -⟩ := exists_readEscape? hescape
      exact Or.inl ⟨_, rfl⟩
    | none => exact Or.inr (Or.inr ⟨hc, rfl, rfl⟩)

/-- A quote that stands as it is has room behind the quotes before it. -/
theorem lt_of_escapeFrom_eq_quote {keepsLines : Bool} {quotes : Nat} {more : List Char}
    (h : escapeFrom keepsLines quotes cs = '"' :: more) :
    (quotes < if keepsLines then 2 else 0) ∧
      ∃ left, cs = '"' :: left ∧ more = escapeFrom keepsLines (quotes + 1) left := by
  cases cs with
  | nil => cases h
  | cons c cs =>
    rcases escapeFrom_cons_cases keepsLines quotes c cs with
      ⟨_, heq⟩ | ⟨rfl, hlt, heq⟩ | ⟨hc, -, heq⟩
    · rw [heq] at h
      exact absurd (List.cons.inj h).1 (by decide)
    · rw [heq] at h
      exact ⟨hlt, cs, rfl, (List.cons.inj h).2.symm⟩
    · rw [heq] at h
      exact absurd (List.cons.inj h).1 hc

/-- Behind a quote that stands as it is, there is no room for two more. -/
theorem escapeFrom_ne_quotes (quotes : Nat) (cs more : List Char) :
    escapeFrom true (quotes + 1) cs ≠ '"' :: '"' :: more := by
  intro h
  obtain ⟨-, left, -, hleft⟩ := lt_of_escapeFrom_eq_quote h
  have hlt := (lt_of_escapeFrom_eq_quote hleft.symm).1
  rw [if_pos rfl] at hlt
  omega

theorem eq_nil_of_escapeFrom_eq_nil {keepsLines : Bool} {quotes : Nat}
    (h : escapeFrom keepsLines quotes cs = []) : cs = [] := by
  cases cs with
  | nil => rfl
  | cons c cs =>
    rcases escapeFrom_cons_cases keepsLines quotes c cs with
      ⟨_, heq⟩ | ⟨-, -, heq⟩ | ⟨-, -, heq⟩ <;>
    · rw [heq] at h
      cases h

/-- Only a text of nothing but quotes is written as one. -/
theorem eq_of_escapeFrom {keepsLines : Bool} {quotes : Nat}
    (h : escapeFrom keepsLines quotes cs = [] ∨ escapeFrom keepsLines quotes cs = ['"']) :
    cs = escapeFrom keepsLines quotes cs := by
  rcases h with h | h
  · rw [h, eq_nil_of_escapeFrom_eq_nil h]
  · obtain ⟨-, left, rfl, hleft⟩ := lt_of_escapeFrom_eq_quote h
    rw [h, eq_nil_of_escapeFrom_eq_nil hleft.symm]

/-- **A text with escapes is read back** from several lines, after a run of up to two quotes. -/
theorem readMultilineBasic?_escapeFrom (hrest : rest.head? ≠ some '"') {quotes : Nat}
    (hquotes : quotes ≤ 2) (cs : List Char) :
    readMultilineBasic? (escapeFrom true quotes cs ++ '"' :: '"' :: '"' :: rest)
      = some (cs, rest) := by
  induction cs generalizing quotes with
  | nil => exact readMultilineBasic?_closed (by decide) (by decide) (closeMultiline?_close hrest)
  | cons c cs ih =>
    by_cases hc : c = '"'
    · subst hc
      by_cases hlt : quotes < 2
      · rw [escapeFrom_quote_of_lt hlt, List.cons_append]
        rcases closeMultiline?_quote hrest _ (escapeFrom_ne_quotes quotes cs) with
          ⟨hbody, hclose⟩ | hclose
        · rw [readMultilineBasic?_closed (by decide) (by decide) hclose, ← eq_of_escapeFrom hbody]
        · rw [readMultilineBasic?_plain (by decide) (by decide) (Or.inl (by decide)) hclose,
            ih hlt]
          rfl
      · rw [escapeFrom_quote_of_not_lt hlt, List.cons_append, List.cons_append,
          readMultilineBasic?_escape (joinLines?_eq_none (by decide) (by decide) (by decide) _)
            (c := '"') rfl, ih (Nat.zero_le 2)]
        rfl
    · rw [escapeFrom_of_ne hc]
      cases hescape : escape? true c with
      | some e =>
        obtain ⟨mark, more, rfl, ⟨hspace, hnewline, hreturn⟩, hread⟩ := exists_readEscape? hescape
        have hjoin (after : List Char) : joinLines? (mark :: more ++ after) = none :=
          joinLines?_eq_none hspace hnewline hreturn _
        rw [Option.getD_some, List.append_assoc, List.cons_append,
          readMultilineBasic?_escape (hjoin _) (hread _), ih (Nat.zero_le 2)]
        rfl
      | none =>
        obtain ⟨hslash, hplain⟩ := of_escape?_eq_none hescape
        have hreturn : c ≠ '\r' := by
          rintro rfl
          cases hescape
        rw [Option.getD_none, List.append_assoc, List.singleton_append,
          readMultilineBasic?_plain hslash hreturn (hplain.imp id And.right)
            (closeMultiline?_of_ne hc _), ih (Nat.zero_le 2)]
        rfl

theorem readMultilineLiteral?_closed {c : Char} {cs extra rest : List Char}
    (hreturn : c ≠ '\r') (h : closeMultiline? '\'' (c :: cs) = some (extra, rest)) :
    readMultilineLiteral? (c :: cs) = some (extra, rest) := by
  rw [readMultilineLiteral?]
  · split
    · rename_i hclose
      rw [← hclose, h]
    · rename_i hclose
      rw [h] at hclose
      cases hclose
  · exact fun _ heq _ => hreturn heq

theorem readMultilineLiteral?_plain {c : Char} {cs : List Char} (hreturn : c ≠ '\r')
    (hcontrol : isControl c = false ∨ c = '\n') (h : closeMultiline? '\'' (c :: cs) = none) :
    readMultilineLiteral? (c :: cs) = putFront c (readMultilineLiteral? cs) := by
  rw [readMultilineLiteral?]
  · split
    · rename_i hclose
      rw [h] at hclose
      cases hclose
    · refine if_neg fun hbad => ?_
      rw [Bool.and_eq_true, bne_iff_ne] at hbad
      rcases hcontrol with hcontrol | hnewline
      · rw [hcontrol] at hbad
        exact Bool.false_ne_true hbad.1
      · exact hbad.2 hnewline
  · exact fun _ heq _ => hreturn heq

theorem le_longestRunFrom (q : Char) (before : Nat) (cs : List Char) :
    before ≤ longestRunFrom q before cs := by
  induction cs generalizing before with
  | nil => exact Nat.le_refl _
  | cons c cs ih =>
    rw [longestRunFrom]
    split
    · exact Nat.le_of_succ_le (ih (before + 1))
    · exact Nat.le_max_left _ _

theorem longestRunFrom_cons_self (q : Char) (before : Nat) (cs : List Char) :
    longestRunFrom q before (q :: cs) = longestRunFrom q (before + 1) cs := by
  rw [longestRunFrom, if_pos rfl]

theorem longestRunFrom_cons_of_ne {q c : Char} (h : c ≠ q) (before : Nat) (cs : List Char) :
    longestRunFrom q before (c :: cs) = max before (longestRunFrom q 0 cs) := by
  rw [longestRunFrom, if_neg h]

/-- **A text with no more than two single quotes in a row, and with no control characters but line
ends, is read back** from several lines as it stands. -/
theorem readMultilineLiteral?_append (hrest : rest.head? ≠ some '\'') {quotes : Nat}
    (hcontrol : ∀ c ∈ cs, isControl c = false ∨ c = '\n')
    (hrun : longestRunFrom '\'' quotes cs ≤ 2) :
    readMultilineLiteral? (cs ++ '\'' :: '\'' :: '\'' :: rest) = some (cs, rest) := by
  induction cs generalizing quotes with
  | nil => exact readMultilineLiteral?_closed (by decide) (closeMultiline?_close hrest)
  | cons c cs ih =>
    have hplain := hcontrol c List.mem_cons_self
    have ih {quotes : Nat} := @ih quotes fun d hd => hcontrol d (List.mem_cons_of_mem _ hd)
    have hreturn : c ≠ '\r' := by
      rintro rfl
      exact absurd hplain (by decide)
    rw [List.cons_append]
    by_cases hc : c = '\''
    · subst hc
      rw [longestRunFrom_cons_self] at hrun
      have hbody (more : List Char) : cs ≠ '\'' :: '\'' :: more := by
        rintro rfl
        rw [longestRunFrom_cons_self, longestRunFrom_cons_self] at hrun
        have := le_longestRunFrom '\'' (quotes + 1 + 1 + 1) more
        omega
      rcases closeMultiline?_quote hrest cs hbody with ⟨-, hclose⟩ | hclose
      · exact readMultilineLiteral?_closed hreturn hclose
      · rw [readMultilineLiteral?_plain hreturn hplain hclose, ih hrun]
        rfl
    · rw [longestRunFrom_cons_of_ne hc] at hrun
      rw [readMultilineLiteral?_plain hreturn hplain (closeMultiline?_of_ne hc _),
        ih (Nat.le_trans (Nat.le_max_right _ _) hrun)]
      rfl

/-! ### The style of a text -/

/-- **The style can show the text.** With escapes every text can be shown. -/
def TextStyle.Shows : TextStyle → List Char → Prop
  | .escaped, _ | .escapedLines, _ => True
  | .verbatim, cs => ∀ c ∈ cs, isControl c = false ∧ c ≠ '\''
  | .verbatimLines, cs =>
    (∀ c ∈ cs, isControl c = false ∨ c = '\n') ∧ longestRun '\'' cs ≤ 2

theorem not_mem_of_longestRun_eq_zero {q : Char} (h : longestRun q cs = 0) : q ∉ cs := by
  induction cs with
  | nil => exact List.not_mem_nil
  | cons c cs ih =>
    rw [longestRun] at h
    by_cases hc : c = q
    · rw [hc, longestRunFrom_cons_self] at h
      have hle := le_longestRunFrom q (0 + 1) cs
      omega
    · rw [longestRunFrom_cons_of_ne hc, Nat.zero_max] at h
      exact fun hq => (List.mem_cons.mp hq).elim (fun hq => hc hq.symm) (ih h)

/-- **The style of a text can show it.** -/
theorem styleOf_shows (cs : List Char) : (styleOf cs).Shows cs := by
  have hcontrols (h : (cs.any fun c => isControl c && c != '\n') = false) :
      ∀ c ∈ cs, isControl c = false ∨ c = '\n' := by
    intro c hc
    have hnot := List.any_eq_false.mp h c hc
    rw [Bool.and_eq_true, bne_iff_ne] at hnot
    by_cases hcontrol : isControl c = true
    · exact Or.inr (by_contra fun hne => hnot ⟨hcontrol, hne⟩)
    · exact Or.inl (Bool.eq_false_iff.mpr hcontrol)
  simp only [styleOf, Bool.and_eq_true, Bool.not_eq_true', decide_eq_true_eq]
  split
  · trivial
  split
  · rename_i h
    obtain ⟨⟨hany, hlines⟩, hrun⟩ := h
    intro c hc
    refine ⟨(hcontrols hany c hc).resolve_right ?_, ?_⟩
    · rintro rfl
      rw [List.contains_iff_mem.mpr hc] at hlines
      cases hlines
    · rintro rfl
      exact not_mem_of_longestRun_eq_zero hrun hc
  split
  · trivial
  split
  · rename_i h
    exact ⟨hcontrols h.1, h.2⟩
  split <;> trivial

theorem read?_basic (h : ∀ more, cs ≠ '"' :: '"' :: more) :
    read? ('"' :: cs) = asText false (readBasic? cs) := by
  rw [read?]
  exact h

theorem read?_literal (h : ∀ more, cs ≠ '\'' :: '\'' :: more) :
    read? ('\'' :: cs) = asText false (readLiteral? cs) := by
  rw [read?]
  exact h

/-- A line end is skipped behind the opening quotes if it was put there, and no other is. -/
theorem skipFirstLineEnd_opening {body : List Char}
    (h : '\n' ∉ cs → body.head? ≠ some '\n' ∧ body.head? ≠ some '\r') :
    skipFirstLineEnd ((if cs.contains '\n' then ['\n'] else []) ++ body) = body := by
  by_cases hmem : '\n' ∈ cs
  · rw [if_pos (List.contains_iff_mem.mpr hmem)]
    rfl
  · obtain ⟨hnewline, hreturn⟩ := h hmem
    rw [if_neg (by rwa [List.contains_iff_mem]), List.nil_append]
    unfold skipFirstLineEnd
    split
    · exact absurd rfl hnewline
    · exact absurd rfl hreturn
    · rfl

theorem head?_cons_ne_lineEnd {c : Char} (hc : c ≠ '\n' ∧ c ≠ '\r') (cs : List Char) :
    (c :: cs).head? ≠ some '\n' ∧ (c :: cs).head? ≠ some '\r' :=
  ⟨fun h => hc.1 (Option.some.inj h), fun h => hc.2 (Option.some.inj h)⟩

/-- A line end is written where the text has one, and nothing else begins like one. -/
theorem head?_escapeFrom_ne (h : '\n' ∉ cs) (more : List Char) :
    (escapeFrom true 0 cs ++ '"' :: more).head? ≠ some '\n' ∧
      (escapeFrom true 0 cs ++ '"' :: more).head? ≠ some '\r' := by
  cases cs with
  | nil => exact head?_cons_ne_lineEnd (by decide) more
  | cons c cs =>
    rcases escapeFrom_cons_cases true 0 c cs with ⟨_, heq⟩ | ⟨rfl, -, heq⟩ | ⟨-, hescape, heq⟩
    · rw [heq]
      exact head?_cons_ne_lineEnd (by decide) _
    · rw [heq]
      exact head?_cons_ne_lineEnd (by decide) _
    · rw [heq]
      refine head?_cons_ne_lineEnd ⟨?_, ?_⟩ _
      · rintro rfl
        exact h List.mem_cons_self
      · rintro rfl
        cases hescape

theorem read?_threeDouble (cs : List Char) : read? ('"' :: '"' :: '"' :: cs)
    = asText true (readMultilineBasic? (skipFirstLineEnd cs)) := by
  rw [read?]

theorem read?_threeSingle (cs : List Char) : read? ('\'' :: '\'' :: '\'' :: cs)
    = asText true (readMultilineLiteral? (skipFirstLineEnd cs)) := by
  rw [read?]

/-- **A text is read back from any style that can show it**, where no quote follows. -/
theorem read?_writeIn {style : TextStyle} (h : style.Shows cs) (hdouble : rest.head? ≠ some '"')
    (hsingle : rest.head? ≠ some '\'') :
    read? (writeIn style cs ++ rest) = some (some (.text cs style.keepsLines), rest) := by
  cases style with
  | escaped =>
    have hopen (more : List Char) : escapeFrom false 0 cs ++ '"' :: rest ≠ '"' :: '"' :: more := by
      intro hmore
      cases hbody : escapeFrom false 0 cs with
      | nil =>
        rw [hbody] at hmore
        exact hdouble (by rw [(List.cons.inj hmore).2]; rfl)
      | cons c body =>
        rw [hbody] at hmore
        rw [(List.cons.inj hmore).1] at hbody
        exact absurd (lt_of_escapeFrom_eq_quote hbody).1 (Nat.not_lt_zero 0)
    have hwritten : writeIn .escaped cs ++ rest
        = '"' :: (escapeFrom false 0 cs ++ '"' :: rest) := by
      simp [writeIn, TextStyle.delimiter, TextStyle.keepsLines]
    rw [hwritten, read?_basic hopen, readBasic?_escapeFrom]
    rfl
  | verbatim =>
    have hopen (more : List Char) : cs ++ '\'' :: rest ≠ '\'' :: '\'' :: more := by
      intro hmore
      cases cs with
      | nil => exact hsingle (by rw [(List.cons.inj hmore).2]; rfl)
      | cons c cs => exact (h c List.mem_cons_self).2 (List.cons.inj hmore).1
    have hwritten : writeIn .verbatim cs ++ rest = '\'' :: (cs ++ '\'' :: rest) := by
      simp [writeIn, TextStyle.delimiter, TextStyle.keepsLines]
    rw [hwritten, read?_literal hopen, readLiteral?_append h]
    rfl
  | escapedLines =>
    have hwritten : writeIn .escapedLines cs ++ rest = '"' :: '"' :: '"' ::
        ((if cs.contains '\n' then ['\n'] else []) ++
          (escapeFrom true 0 cs ++ '"' :: '"' :: '"' :: rest)) := by
      simp [writeIn, TextStyle.delimiter, TextStyle.keepsLines]
    rw [hwritten, read?_threeDouble,
      skipFirstLineEnd_opening fun hnot => head?_escapeFrom_ne hnot _,
      readMultilineBasic?_escapeFrom hdouble (Nat.zero_le 2)]
    rfl
  | verbatimLines =>
    have hwritten : writeIn .verbatimLines cs ++ rest = '\'' :: '\'' :: '\'' ::
        ((if cs.contains '\n' then ['\n'] else []) ++
          (cs ++ '\'' :: '\'' :: '\'' :: rest)) := by
      simp [writeIn, TextStyle.delimiter, TextStyle.keepsLines]
    have hopen (hnot : '\n' ∉ cs) :
        (cs ++ '\'' :: '\'' :: '\'' :: rest).head? ≠ some '\n' ∧
          (cs ++ '\'' :: '\'' :: '\'' :: rest).head? ≠ some '\r' := by
      cases cs with
      | nil => exact head?_cons_ne_lineEnd (by decide) _
      | cons c cs =>
        refine head?_cons_ne_lineEnd ⟨?_, ?_⟩ _
        · rintro rfl
          exact hnot List.mem_cons_self
        · rintro rfl
          exact absurd (h.1 '\r' List.mem_cons_self) (by decide)
    rw [hwritten, read?_threeSingle, skipFirstLineEnd_opening hopen,
      readMultilineLiteral?_append hsingle h.1 h.2]
    rfl

/-- **A written text is one token**, which holds the text. -/
theorem writes_writeText (s : String) (hdouble : rest.head? ≠ some '"')
    (hsingle : rest.head? ≠ some '\'') : Writes (writeText s).toList
      [.text s.toList (styleOf s.toList).keepsLines] rest := by
  rw [writeText, String.toList_ofList]
  exact Writes.of_read? (t := some _) (read?_writeIn (styleOf_shows s.toList) hdouble hsingle)

end CardFilter.Toml
