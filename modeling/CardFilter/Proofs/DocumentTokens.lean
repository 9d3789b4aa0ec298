import CardFilter.Settings
import CardFilter.Settings.Template

/-!
# How a document falls into tokens

A document is read one token at a time, so that what is written first can be judged without what
comes later. `CardFilter.Toml.Writes` says this: characters write some tokens if the document that
begins with them has these tokens, and then the tokens of what follows. It is stated of one
continuation, because what follows decides where a word or a text ends.

A settings file to start from is made of comments and empty lines, and of these only the line ends
are left. The main statement is `CardFilter.SettingsScope.ofText_template`: such a file says
nothing.
-/

namespace CardFilter.Toml

variable {cs cs' rest : List Char} {ts ts' : List Token}

@[simp] theorem tokens?_nil : tokens? [] = some [] := by
  rw [tokens?]
  rfl

theorem tokens?_of_read? {t : Option Token} (h : read? cs = some (t, rest)) :
    tokens? cs = (tokens? rest).map (t.toList ++ ·) := by
  have hne : cs.isEmpty = false := by
    cases cs with
    | nil => cases h
    | cons => rfl
  rw [tokens?, if_neg (by rw [hne]; exact Bool.false_ne_true)]
  split
  · rename_i hread
    rw [h] at hread
    obtain ⟨rfl, rfl⟩ := Prod.mk.inj (Option.some.inj hread)
    rfl
  · rename_i hread
    rw [h] at hread
    obtain ⟨rfl, rfl⟩ := Prod.mk.inj (Option.some.inj hread)
    exact Option.map_id_apply.symm
  · rename_i hread
    rw [h] at hread
    cases hread

/-- **The characters write the tokens** where `rest` follows: the document has these tokens, and
then those of `rest`. -/
def Writes (cs : List Char) (ts : List Token) (rest : List Char) : Prop :=
  tokens? (cs ++ rest) = (tokens? rest).map (ts ++ ·)

namespace Writes

theorem nil (rest : List Char) : Writes [] [] rest :=
  Option.map_id_apply.symm

theorem append (h : Writes cs ts (cs' ++ rest)) (h' : Writes cs' ts' rest) :
    Writes (cs ++ cs') (ts ++ ts') rest := by
  rw [Writes, List.append_assoc, h, h', Option.map_map]
  exact congrArg (Option.map · _) (funext fun more => (List.append_assoc ts ts' more).symm)

theorem of_read? {t : Option Token} (h : read? (cs ++ rest) = some (t, rest)) :
    Writes cs t.toList rest :=
  tokens?_of_read? h

/-- A document that is written to its end. -/
theorem tokens?_eq (h : Writes cs ts []) : tokens? cs = some ts := by
  have hall : tokens? (cs ++ []) = (tokens? []).map (ts ++ ·) := h
  rwa [List.append_nil, tokens?_nil, Option.map_some, List.append_nil] at hall

theorem newline (rest : List Char) : Writes ['\n'] [.newline] rest :=
  of_read? (t := some .newline) rfl

theorem space (rest : List Char) : Writes [' '] [] rest :=
  of_read? (t := none) rfl

theorem mark {c : Char} {t : Token} (h : mark? c = some t) (rest : List Char) :
    Writes [c] [t] rest := by
  refine of_read? (t := some t) ?_
  unfold mark? at h
  split at h
  all_goals
    cases h
  all_goals rfl

end Writes

/-! ### Words -/

theorem takeWord_append (h : ∀ c ∈ cs, isWordMark c = true)
    (hrest : ∀ c ∈ rest.head?, isWordMark c = false ∧ c ≠ '.') :
    takeWord (cs ++ rest) = (cs, rest) := by
  induction cs with
  | nil =>
    cases rest with
    | nil => rfl
    | cons c rest =>
      obtain ⟨hmark, hdot⟩ := hrest c rfl
      rw [List.nil_append, takeWord, if_neg (by rw [hmark]; exact Bool.false_ne_true)]
      exact fun _ _ heq _ => hdot heq
  | cons c cs ih =>
    have hmark := h c List.mem_cons_self
    rw [List.cons_append, takeWord, if_pos hmark, ih fun d hd => h d (List.mem_cons_of_mem _ hd)]
    rintro _ _ rfl -
    exact absurd hmark (by decide)

/-- **A word is read to its end**, if what follows neither goes on with it nor makes it a day with a
time. -/
theorem readWord_append (h : ∀ c ∈ cs, isWordMark c = true)
    (hrest : ∀ c ∈ rest.head?, isWordMark c = false ∧ c ≠ '.')
    (htime : ∀ c more, rest = ' ' :: c :: more → c.isDigit = false) :
    readWord (cs ++ rest) = (cs, rest) := by
  rw [readWord, takeWord_append h hrest]
  split
  · rename_i heq
    obtain ⟨rfl, rfl⟩ := Prod.mk.inj heq
    refine if_neg fun hday => ?_
    rw [Bool.and_eq_true, htime _ _ rfl] at hday
    exact Bool.false_ne_true hday.2
  · rename_i heq
    exact heq.symm

theorem read?_of_isWordMark {c : Char} (h : isWordMark c = true) (cs : List Char) :
    read? (c :: cs) = some (some (.word (readWord (c :: cs)).1), (readWord (c :: cs)).2) := by
  unfold read?
  split
  case h_1 heq => cases heq
  case h_9 heq =>
    obtain ⟨rfl, rfl⟩ := List.cons.inj heq
    have hspace : isSpace c = false := by
      rw [Bool.eq_false_iff]
      intro hspace
      rw [isSpace, Bool.or_eq_true, beq_iff_eq, beq_iff_eq] at hspace
      rcases hspace with rfl | rfl <;> exact absurd h (by decide)
    have hmark : mark? c = none := by
      unfold mark?
      split <;> first | rfl | exact absurd h (by decide)
    rw [if_neg (by rw [hspace]; exact Bool.false_ne_true), hmark]
    exact if_pos h
  all_goals
    rename_i heq
    cases heq
    exact absurd h (by decide)

/-- **A word is one token.** -/
theorem writes_word (hne : cs ≠ []) (h : ∀ c ∈ cs, isWordMark c = true)
    (hrest : ∀ c ∈ rest.head?, isWordMark c = false ∧ c ≠ '.')
    (htime : ∀ c more, rest = ' ' :: c :: more → c.isDigit = false) :
    Writes cs [.word cs] rest := by
  obtain ⟨c, cs, rfl⟩ := List.exists_cons_of_ne_nil hne
  refine Writes.of_read? (t := some (.word (c :: cs))) ?_
  rw [List.cons_append, read?_of_isWordMark (h c List.mem_cons_self), ← List.cons_append,
    readWord_append h hrest htime]

/-! ### Comments -/

theorem skipComment?_line (h : ∀ c ∈ cs, isControl c = false) (rest : List Char) :
    skipComment? (cs ++ '\n' :: rest) = some ('\n' :: rest) := by
  induction cs with
  | nil => rfl
  | cons c cs ih =>
    have hc := h c List.mem_cons_self
    rw [List.cons_append, skipComment?, if_neg (by rw [hc]; exact Bool.false_ne_true),
      ih fun d hd => h d (List.mem_cons_of_mem _ hd)]
    · rintro rfl
      exact absurd hc (by decide)
    · rintro _ rfl
      exact absurd hc (by decide)

/-- **Of a comment only its line end is left.** -/
theorem writes_comment (h : ∀ c ∈ cs, isControl c = false) (rest : List Char) :
    Writes ('#' :: cs ++ ['\n']) [.newline] rest := by
  have hcomment : Writes ('#' :: cs) [] ('\n' :: rest) := by
    refine Writes.of_read? (t := none) ?_
    rw [List.cons_append, read?, skipComment?_line h]
    rfl
  exact hcomment.append (Writes.newline rest)

/-- Of a line that is made a comment only its end is left. -/
theorem writes_commentOut {line : String} (h : ∀ c ∈ line.toList, isControl c = false)
    (rest : List Char) : Writes (commentOut line ++ "\n").toList [.newline] rest := by
  rw [String.toList_append, show "\n".toList = ['\n'] from rfl, commentOut]
  split
  · rename_i hline
    rw [hline]
    exact Writes.newline rest
  · rename_i comment hline
    rw [hline]
    exact writes_comment (fun c hc => h c (hline ▸ List.mem_cons_of_mem _ hc)) rest
  · rw [String.toList_append, show "# ".toList = ['#', ' '] from rfl]
    have hcomment : ∀ c ∈ ' ' :: line.toList, isControl c = false := by
      intro c hc
      rcases List.mem_cons.mp hc with rfl | hc
      · decide
      · exact h c hc
    exact writes_comment hcomment rest

/-- **Of lines that are made comments only their ends are left.** -/
theorem writes_commentsOut {lines : List String}
    (h : ∀ line ∈ lines, ∀ c ∈ line.toList, isControl c = false) (rest : List Char) :
    Writes (String.join (lines.map fun line => commentOut line ++ "\n")).toList
      (List.replicate lines.length .newline) rest := by
  induction lines with
  | nil => exact Writes.nil rest
  | cons line lines ih =>
    rw [List.map_cons, String.join_cons, String.toList_append]
    exact Writes.append (writes_commentOut (h line List.mem_cons_self) _)
      (ih fun l hl => h l (List.mem_cons_of_mem _ hl))

/-! ### A file that says nothing -/

theorem readLines_newline (d : Document) (ts : List Token) :
    d.readLines (.newline :: ts) = d.readLines ts := by
  rw [Document.readLines]

theorem readLines_newlines (d : Document) (n : Nat) :
    d.readLines (List.replicate n .newline) = .ok d := by
  induction n with
  | zero => rw [List.replicate_zero, Document.readLines]
  | succ n ih => rw [List.replicate_succ, readLines_newline, ih]

end CardFilter.Toml

namespace CardFilter

open Toml

/-- What a file says that says nothing. -/
def FileSettings.silent : FileSettings :=
  ⟨none, none, none, none⟩

/-- No line of a file to start from holds a control character. -/
theorem SettingsScope.isControl_exampleLines (scope : SettingsScope) :
    ∀ line ∈ scope.exampleLines, ∀ c ∈ line.toList, isControl c = false := by
  have hall : (scope.exampleLines.all fun line => line.toList.all fun c => !isControl c)
      = true := by
    cases scope <;> decide +kernel
  intro line hline c hc
  have hc := List.all_eq_true.mp (List.all_eq_true.mp hall line hline) c hc
  rwa [Bool.not_eq_true'] at hc

/-- **A settings file to start from says nothing.** -/
theorem SettingsScope.ofText_template (scope : SettingsScope) :
    FileSettings.ofText scope.template = .ok .silent := by
  have hmark : Document.dropByteOrderMark scope.template.toList = scope.template.toList := by
    cases scope <;>
    · rw [SettingsScope.template, SettingsScope.exampleLines, List.map_cons, String.join_cons,
        String.toList_append]
      rfl
  have htokens : tokens? scope.template.toList
      = some (List.replicate scope.exampleLines.length .newline) :=
    (writes_commentsOut scope.isControl_exampleLines []).tokens?_eq
  have hdocument : Document.ofText scope.template = .ok .empty := by
    rw [Document.ofText, hmark, htokens]
    exact readLines_newlines .empty _
  have hread : Format.standard.read scope.template = .ok [] :=
    congrArg (Except.map Document.pairs) hdocument
  rw [FileSettings.ofText, FileSettings.ofTextIn, hread]
  rfl

end CardFilter
