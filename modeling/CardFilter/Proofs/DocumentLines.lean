import CardFilter.Proofs.TextStyles
import CardFilter.Toml.Format
import Mathlib.Data.List.Basic

/-!
# What a line adds to a document

A document is read line by line, and each line changes what has been read so far. This gives written
lines a meaning of their own: `CardFilter.Toml.Brings` says that some characters take the document
from one state to the next, whatever is read after them. The lines of a section are then composed
without a look at their tokens.

A line with a setting needs a value that is read back from what is written for it
(`CardFilter.Toml.IsValue`). The values that settings have are numbers, texts and lists of texts.

The main statement is `CardFilter.Toml.readsBack_standard`: the standard format of settings files
reads back what it writes.
-/

namespace CardFilter.Toml

variable {cs rest : List Char} {ts : List Token} {d d' : Document}

/-! ### Numbers -/

theorem digitsValue?_append {base acc n : Nat} {afterDigit : Bool}
    (h : digitsValue? base afterDigit acc cs = some n) (ds : List Char) :
    digitsValue? base afterDigit acc (cs ++ ds) = digitsValue? base true n ds := by
  fun_induction digitsValue? base afterDigit acc cs with
  | case1 => cases h; rfl
  | case2 | case4 | case6 => cases h
  | case3 acc rest ih =>
    rw [List.cons_append, digitsValue?, if_pos rfl]
    exact ih h
  | case5 afterDigit acc c rest hc d hd ih =>
    rw [List.cons_append, digitsValue?, if_neg hc, hd]
    exact ih h

/-- A digit is read as its value. -/
theorem digitsValue?_digitChar {d : Nat} (hd : d < 10) (afterDigit : Bool) (acc : Nat) :
    digitsValue? 10 afterDigit acc [d.digitChar] = some (acc * 10 + d) := by
  have hchar : ∀ d < 10, d.digitChar ≠ '_' ∧ digit? 10 d.digitChar = some d := by decide
  obtain ⟨hne, hdigit⟩ := hchar d hd
  rw [digitsValue?, if_neg hne, hdigit]
  rfl

/-- **The digits of a number write the number.** -/
theorem digitsValue?_toDigits (n : Nat) :
    digitsValue? 10 false 0 (Nat.toDigits 10 n) = some n := by
  induction n using Nat.strongRecOn with
  | ind n ih =>
    by_cases hn : n < 10
    · rw [Nat.toDigits_of_lt_base hn, digitsValue?_digitChar hn, Nat.zero_mul, Nat.zero_add]
    · rw [Nat.toDigits_of_base_le (by decide) (by omega),
        digitsValue?_append (ih (n / 10) (by omega)),
        digitsValue?_digitChar (Nat.mod_lt n (by decide))]
      exact congrArg some (by omega)

/-- No zero leads. -/
theorem eq_zero_of_head?_toDigits {n : Nat} (h : (Nat.toDigits 10 n).head? = some '0') : n = 0 := by
  induction n using Nat.strongRecOn with
  | ind n ih =>
    by_cases hn : n < 10
    · have hchar : ∀ d < 10, d.digitChar = '0' → d = 0 := by decide
      rw [Nat.toDigits_of_lt_base hn] at h
      exact hchar n hn (Option.some.inj h)
    · rw [Nat.toDigits_of_base_le (by decide) (by omega),
        List.head?_append_of_ne_nil _ Nat.toDigits_ne_nil] at h
      have := ih (n / 10) (by omega) h
      omega

theorem decimalValue?_toDigits (n : Nat) : decimalValue? (Nat.toDigits 10 n) = some n := by
  unfold decimalValue?
  split
  · rename_i heq
    rw [eq_zero_of_head?_toDigits (n := n) (by rw [heq]; rfl)] at heq
    cases heq
  · exact digitsValue?_toDigits n

/-- **The digits of a number are a word for it.** -/
theorem wordValue?_toDigits (n : Nat) :
    wordValue? (Nat.toDigits 10 n) = some (.integer (Int.ofNat n)) := by
  have hdigit : ∀ c ∈ Nat.toDigits 10 n, c.isDigit = true := fun c hc =>
    Nat.isDigit_of_mem_toDigits (by decide) (by decide) hc
  have hinteger : integerValue? (Nat.toDigits 10 n) = some (Int.ofNat n) := by
    unfold integerValue?
    split
    case h_6 => rw [decimalValue?_toDigits, Option.map_some]
    all_goals
      rename_i heq
      rw [heq] at hdigit
      simp at hdigit
  have hne (c : Char) (hc : c.isDigit = false) (more : List Char) :
      Nat.toDigits 10 n ≠ c :: more := by
    intro heq
    rw [hdigit c (heq ▸ List.mem_cons_self)] at hc
    cases hc
  rw [wordValue?, if_neg (hne 't' rfl _), if_neg (hne 'f' rfl _), hinteger]

/-! ### Values -/

section Values

variable {α : Type} {room : Nat} {t : Token} {v : Value} {items : List Value}
  {after more left : List Token}

/-- What is read from tokens, and the tokens after it. -/
def withRest (r : Except Fault (α × Rest ts)) : Except Fault (α × List Token) :=
  r.map fun (a, rest) => (a, rest.1)

theorem withRest_eq_ok {r : Except Fault (α × Rest ts)} {a : α} :
    withRest r = .ok (a, left) ↔ ∃ h, r = .ok (a, ⟨left, h⟩) := by
  cases r with
  | error e => exact iff_of_false (fun h => by cases h) fun ⟨_, h⟩ => by cases h
  | ok p =>
    obtain ⟨b, after, hafter⟩ := p
    refine ⟨fun h => ?_, fun ⟨_, h⟩ => ?_⟩
    · obtain ⟨rfl, rfl⟩ := Prod.mk.inj (Except.ok.inj h)
      exact ⟨hafter, rfl⟩
    · cases h
      rfl

/-- **The tokens are read as the value**, whatever follows them. -/
def IsValue (ts : List Token) (v : Value) : Prop :=
  ∀ left, withRest (readValue depthLimit (ts ++ left)) = .ok (v, left)

theorem isValue_integer (n : Nat) :
    IsValue [.word (Nat.toDigits 10 n)] (.integer (Int.ofNat n)) := by
  intro left
  rw [List.singleton_append, readValue, wordValue?_toDigits]
  rfl

/-- The token that a text is written as. -/
def textToken (s : String) : Token :=
  .text s.toList (styleOf s.toList).keepsLines

theorem readValue_textToken (room : Nat) (s : String) (left : List Token) :
    withRest (readValue room (textToken s :: left)) = .ok (.text s, left) := by
  rw [textToken, readValue, String.ofList_toList]
  rfl

theorem isValue_text (s : String) : IsValue [textToken s] (.text s) :=
  readValue_textToken depthLimit s

theorem readItems_close (h : skipNewlines ts = .closeBracket :: left) :
    withRest (readItems room ts) = .ok ([], left) := by
  rw [readItems]
  split
  · rename_i hts
    cases hts.symm.trans h
    rfl
  · rename_i hne hts
    exact absurd (List.cons.inj (hts.symm.trans h)).1 hne
  · rename_i hts
    cases hts.symm.trans h

/-- The last item of a list. -/
theorem readItems_last (h : skipNewlines ts = t :: more) (ht : t ≠ .closeBracket)
    (hitem : withRest (readValue room (t :: more)) = .ok (v, after))
    (hafter : skipNewlines after = .closeBracket :: left) :
    withRest (readItems room ts) = .ok ([v], left) := by
  obtain ⟨hshort, hitem⟩ := withRest_eq_ok.mp hitem
  rw [readItems]
  split
  · rename_i hts
    exact absurd (List.cons.inj (hts.symm.trans h)).1.symm ht
  · rename_i hts
    obtain ⟨rfl, rfl⟩ := List.cons.inj (hts.symm.trans h)
    rw [hitem]
    simp only
    split
    · rename_i hclose
      cases hclose.symm.trans hafter
      rfl
    · rename_i hcomma
      cases hcomma.symm.trans hafter
    · rename_i hnot _
      exact absurd hafter (hnot _)
  · rename_i hts
    cases hts.symm.trans h

/-- An item of a list with a comma behind it. -/
theorem readItems_comma {next : List Token} (h : skipNewlines ts = t :: more)
    (ht : t ≠ .closeBracket) (hitem : withRest (readValue room (t :: more)) = .ok (v, after))
    (hafter : skipNewlines after = .comma :: next)
    (hnext : withRest (readItems room next) = .ok (items, left)) :
    withRest (readItems room ts) = .ok (v :: items, left) := by
  obtain ⟨hshort, hitem⟩ := withRest_eq_ok.mp hitem
  obtain ⟨hshort', hnext⟩ := withRest_eq_ok.mp hnext
  rw [readItems]
  split
  · rename_i hts
    exact absurd (List.cons.inj (hts.symm.trans h)).1.symm ht
  · rename_i hts
    obtain ⟨rfl, rfl⟩ := List.cons.inj (hts.symm.trans h)
    rw [hitem]
    simp only
    split
    · rename_i hclose
      cases hclose.symm.trans hafter
    · rename_i hcomma
      cases hcomma.symm.trans hafter
      rw [hnext]
      rfl
    · rename_i hnot
      exact absurd hafter (hnot _)
  · rename_i hts
    cases hts.symm.trans h

theorem readValue_openBracket
    (h : withRest (readItems room ts) = .ok (items, left)) :
    withRest (readValue (room + 1) (.openBracket :: ts)) = .ok (.array items, left) := by
  obtain ⟨hshort, h⟩ := withRest_eq_ok.mp h
  rw [readValue, h]
  rfl

/-- The tokens of texts that stand on lines of their own. -/
def itemTokens (ss : List String) : List Token :=
  ss.flatMap fun s => [textToken s, .comma, .newline]

theorem readItems_itemTokens (room : Nat) (ss : List String) (left : List Token) :
    withRest (readItems room (.newline :: (itemTokens ss ++ .closeBracket :: left)))
      = .ok (ss.map .text, left) := by
  induction ss with
  | nil => exact readItems_close rfl
  | cons s ss ih =>
    exact readItems_comma rfl (by simp [textToken]) (readValue_textToken room s _) rfl ih

/-- The tokens of a list of texts as it is written. -/
def listTokens : List String → List Token
  | [] => [.openBracket, .closeBracket]
  | [s] => [.openBracket, textToken s, .closeBracket]
  | ss => .openBracket :: .newline :: (itemTokens ss ++ [.closeBracket])

theorem isValue_list (ss : List String) : IsValue (listTokens ss) (.array (ss.map .text)) := by
  intro left
  match ss with
  | [] => exact readValue_openBracket (readItems_close rfl)
  | [s] =>
    exact readValue_openBracket
      (readItems_last rfl (by simp [textToken]) (readValue_textToken _ s _) rfl)
  | s :: s' :: ss =>
    have heq : listTokens (s :: s' :: ss) ++ left = .openBracket :: .newline ::
        (itemTokens (s :: s' :: ss) ++ .closeBracket :: left) := by
      simp [listTokens]
    rw [heq]
    exact readValue_openBracket (readItems_itemTokens _ _ _)

end Values

/-! ### Written values -/

/-- **The value is read back from the text** that is written for it, at the end of a line. -/
def IsWrittenAs (v : Value) (written : String) : Prop :=
  ∃ ts, IsValue ts v ∧ ∀ rest, Writes written.toList ts ('\n' :: rest)

theorem isWordMark_of_isDigit {c : Char} (h : c.isDigit = true) : isWordMark c = true := by
  simp [isWordMark, Char.isAlphanum, h]

theorem integer_isWrittenAs (n : Nat) : IsWrittenAs (.integer (Int.ofNat n)) (Nat.repr n) := by
  refine ⟨_, isValue_integer n, fun rest => ?_⟩
  rw [Nat.toList_repr]
  refine writes_word Nat.toDigits_ne_nil (fun c hc => ?_) ?_ ?_
  · exact isWordMark_of_isDigit (Nat.isDigit_of_mem_toDigits (by decide) (by decide) hc)
  · intro c hc
    cases hc
    exact ⟨by decide, by decide⟩
  · intro c more heq
    cases heq

theorem text_isWrittenAs (s : String) : IsWrittenAs (.text s) (writeText s) :=
  ⟨_, isValue_text s, fun _ => writes_writeText s (by simp) (by simp)⟩

/-- A text on a line of its own, with a comma. -/
theorem writes_item (s : String) (rest : List Char) :
    Writes ("    " ++ writeText s ++ ",\n").toList [textToken s, .comma, .newline] rest := by
  have hspaces (rest : List Char) : Writes [' ', ' ', ' ', ' '] [] rest :=
    (Writes.space _).append ((Writes.space _).append ((Writes.space _).append (Writes.space rest)))
  have hend : Writes [',', '\n'] [.comma, .newline] rest :=
    (Writes.mark rfl _).append (Writes.newline rest)
  rw [String.toList_append, String.toList_append]
  exact ((hspaces _).append (writes_writeText s (by simp) (by simp))).append hend

theorem writes_items (ss : List String) (rest : List Char) :
    Writes (String.join (ss.map fun s => "    " ++ writeText s ++ ",\n")).toList (itemTokens ss)
      rest := by
  induction ss with
  | nil => exact Writes.nil rest
  | cons s ss ih =>
    rw [List.map_cons, String.join_cons, String.toList_append]
    exact (writes_item s _).append ih

theorem list_isWrittenAs (ss : List String) :
    IsWrittenAs (.array (ss.map .text)) (writeTexts ss) := by
  refine ⟨_, isValue_list ss, fun rest => ?_⟩
  match ss with
  | [] => exact (Writes.mark rfl _).append (Writes.mark rfl _)
  | [s] =>
    rw [writeTexts, String.toList_append, String.toList_append]
    exact ((Writes.mark rfl _).append (writes_writeText s (by simp) (by simp))).append
      (Writes.mark rfl _)
  | s :: s' :: ss =>
    rw [writeTexts, String.toList_append, String.toList_append]
    · exact (((Writes.mark rfl _).append (Writes.newline _)).append (writes_items _ _)).append
        (Writes.mark rfl _)
    · exact List.cons_ne_nil _ _
    · exact fun _ h => by cases h

/-- **Every value of a setting is read back from what is written for it.** -/
theorem Plain.isWrittenAs (v : Plain) : IsWrittenAs v.value v.written := by
  cases v with
  | integer n => exact integer_isWrittenAs n
  | text s => exact text_isWrittenAs s
  | texts ss => exact list_isWrittenAs ss

/-! ### Lines -/

/-- A document that goes on with some characters. -/
def Document.readChars (d : Document) (cs : List Char) : Except Fault Document :=
  match tokens? cs with
  | none => .error .malformed
  | some ts => d.readLines ts

theorem Document.readChars_nil (d : Document) : d.readChars [] = .ok d := by
  rw [readChars, tokens?_nil]
  exact readLines_newlines d 0

/-- **The characters take the document from `d` to `d'`**, whatever comes after them. -/
def Brings (cs : List Char) (d d' : Document) : Prop :=
  ∀ rest, d.readChars (cs ++ rest) = d'.readChars rest

namespace Brings

theorem of_writes (ts : List Token) (hwrites : ∀ rest, Writes cs ts rest)
    (hread : ∀ more, d.readLines (ts ++ more) = d'.readLines more) : Brings cs d d' := by
  intro rest
  have htokens : tokens? (cs ++ rest) = (tokens? rest).map (ts ++ ·) := hwrites rest
  rw [Document.readChars, Document.readChars, htokens]
  cases tokens? rest with
  | none => rfl
  | some more => exact hread more

theorem refl (d : Document) : Brings [] d d :=
  fun _ => rfl

theorem append {cs' : List Char} {d'' : Document} (h : Brings cs d d') (h' : Brings cs' d' d'') :
    Brings (cs ++ cs') d d'' := by
  intro rest
  rw [List.append_assoc, h, h']

theorem newline (d : Document) : Brings ['\n'] d d :=
  of_writes [.newline] Writes.newline fun more => readLines_newline d more

end Brings

theorem splitDots_of_not_mem (h : '.' ∉ cs) : splitDots cs = [cs] := by
  induction cs with
  | nil => rfl
  | cons c cs ih =>
    rw [List.mem_cons, not_or] at h
    rw [splitDots, if_neg (Ne.symm h.1), ih h.2]

/-- A plain key is one word, and one part. -/
theorem keyParts?_of_isBareKey {key : String} (h : IsBareKey key) :
    keyParts? (.word key.toList) = some [key] := by
  have hdot : '.' ∉ key.toList := fun hmem => absurd (h.2 _ hmem) (by decide)
  have hmarks : (key.toList.all isKeyMark) = true := List.all_eq_true.mpr h.2
  simp [keyParts?, splitDots_of_not_mem hdot, hmarks]

theorem isWordMark_of_isBareKey {key : String} (h : IsBareKey key) :
    ∀ c ∈ key.toList, isWordMark c = true := by
  intro c hc
  have hmark := h.2 c hc
  rw [isKeyMark] at hmark
  simp [isWordMark, hmark]

/-- **A header opens its section.** -/
theorem brings_header {name : String} (hname : IsBareKey name)
    (hopen : d.openSection name = .ok d') : Brings ("[" ++ name ++ "]\n").toList d d' := by
  refine Brings.of_writes ([.openBracket] ++ [.word name.toList] ++ [.closeBracket, .newline])
    (fun rest => ?_) fun more => ?_
  · rw [String.toList_append, String.toList_append]
    refine Writes.append (Writes.append (Writes.mark rfl _)
      (writes_word hname.1 (isWordMark_of_isBareKey hname) ?_ ?_))
      ((Writes.mark rfl _).append (Writes.newline rest))
    · intro c hc
      cases hc
      exact ⟨by decide, by decide⟩
    · intro c more heq
      cases heq
  · rw [show [.openBracket] ++ [.word name.toList] ++ [.closeBracket, .newline] ++ more
      = .openBracket :: .word name.toList :: .closeBracket :: .newline :: more from rfl,
      Document.readLines, keyParts?_of_isBareKey hname]
    simp only [Document.endLine, hopen]

theorem readKey_word {key : List Char} {name : String} (h : keyParts? (.word key) = some [name])
    (left : List Token) :
    withRest (readKey (.word key :: .equals :: left)) = .ok ([name], .equals :: left) := by
  rw [readKey, readParts, h]
  · rfl
  · exact fun _ heq => by cases heq

/-- **A line with a setting puts its value into the document.** -/
theorem brings_settingLine {key : String} {v : Plain} (hkey : IsBareKey key)
    (hput : d.put [key] v.value = .ok d') : Brings (settingLine key v).toList d d' := by
  obtain ⟨ts, hvalue, hwrites⟩ := v.isWrittenAs
  refine Brings.of_writes ([.word key.toList] ++ [.equals] ++ ts ++ [.newline])
    (fun rest => ?_) fun more => ?_
  · have hequals (rest : List Char) : Writes [' ', '=', ' '] [.equals] rest :=
      (Writes.space _).append ((Writes.mark rfl _).append (Writes.space rest))
    rw [settingLine, String.toList_append, String.toList_append, String.toList_append]
    refine Writes.append (Writes.append (Writes.append
      (writes_word hkey.1 (isWordMark_of_isBareKey hkey) ?_ ?_) (hequals _)) (hwrites rest))
      (Writes.newline rest)
    · intro c hc
      cases hc
      exact ⟨by decide, by decide⟩
    · intro c more heq
      cases heq
      decide
  · have heq : [.word key.toList] ++ [.equals] ++ ts ++ [.newline] ++ more
        = .word key.toList :: .equals :: (ts ++ .newline :: more) := by simp
    obtain ⟨_, hkey⟩ := withRest_eq_ok.mp
      (readKey_word (keyParts?_of_isBareKey hkey) (ts ++ .newline :: more))
    obtain ⟨_, hvalue⟩ := withRest_eq_ok.mp (hvalue (.newline :: more))
    rw [heq, Document.readLines, hkey]
    · simp only [hvalue, Document.endLine, hput]
    -- a word is no line end and opens no header
    · exact fun h => by cases h
    · exact fun _ _ h => by cases h

/-! ### Sections -/

section Section

variable {before inner : List (String × Value)} {name key : String}
  {settings : List (String × Plain)} {sections : List Toml.Section}

theorem lookup_concat_self (h : ∀ p ∈ before, p.1 ≠ name) (v : Value) :
    (before ++ [(name, v)]).lookup name = some v := by
  induction before with
  | nil => rw [List.nil_append, List.lookup_cons, beq_self_eq_true]
  | cons p before ih =>
    have hne : (name == p.1) = false := by simpa using (h p List.mem_cons_self).symm
    rw [List.cons_append, List.lookup_cons, hne]
    exact ih fun q hq => h q (List.mem_cons_of_mem _ hq)

theorem replaceAt_concat_self (h : ∀ p ∈ before, p.1 ≠ name) (v w : Value) :
    replaceAt name w (before ++ [(name, v)]) = before ++ [(name, w)] := by
  have hkept : before.map (fun p => if p.1 == name then (name, w) else p) = before := by
    rw [List.map_congr_left fun p hp => if_neg (by simpa using h p hp), List.map_id']
  rw [replaceAt, List.map_append, hkept, List.map_singleton, if_pos (beq_self_eq_true name)]

theorem any_key_eq_false {entries : List (String × Value)} (h : ∀ p ∈ entries, p.1 ≠ key) :
    entries.any (·.1 == key) = false := by
  simpa using h

/-- **A value is put under a new key** of the section that was opened last. -/
theorem put_section (hbefore : ∀ p ∈ before, p.1 ≠ name) (hinner : ∀ p ∈ inner, p.1 ≠ key)
    (v : Value) : Document.put [key] v ⟨before ++ [(name, .table .header inner)], some name⟩
      = .ok ⟨before ++ [(name, .table .header (inner ++ [(key, v)]))], some name⟩ := by
  have hput : putAt [key] v inner = .ok (inner ++ [(key, v)]) := by
    rw [putAt, if_neg (by rw [any_key_eq_false hinner]; exact Bool.false_ne_true)]
  simp only [Document.put, lookup_concat_self hbefore, hput]
  rw [Except.map, replaceAt_concat_self hbefore]

theorem brings_settings (hbefore : ∀ p ∈ before, p.1 ≠ name)
    (hplain : ∀ e ∈ settings, IsBareKey e.1)
    (hkeys : (inner.map (·.1) ++ settings.map (·.1)).Nodup) :
    Brings (String.join (settings.map fun e => settingLine e.1 e.2)).toList
      ⟨before ++ [(name, .table .header inner)], some name⟩
      ⟨before ++ [(name, .table .header (inner ++ settings.map fun e => (e.1, e.2.value)))],
        some name⟩ := by
  induction settings generalizing inner with
  | nil => simpa using Brings.refl _
  | cons e settings ih =>
    have hnew : ∀ p ∈ inner, p.1 ≠ e.1 := fun p hp => (List.nodup_append.mp hkeys).2.2 p.1
      (List.mem_map_of_mem hp) e.1 List.mem_cons_self
    have ih := @ih (inner ++ [(e.1, e.2.value)]) (fun f hf => hplain f (List.mem_cons_of_mem _ hf))
      (by simpa using hkeys)
    rw [List.append_assoc] at ih
    rw [List.map_cons, String.join_cons, String.toList_append]
    exact (brings_settingLine (hplain e List.mem_cons_self)
      (put_section hbefore hnew e.2.value)).append ih

/-- **A section brings its settings**, if it is new. -/
theorem brings_section {s : Toml.Section} (h : s.IsWritable) (before : List (String × Value))
    (current : Option String) (hbefore : ∀ p ∈ before, p.1 ≠ s.name) :
    Brings s.written.toList ⟨before, current⟩ ⟨before ++ [s.pair], some s.name⟩ := by
  have hopen : Document.openSection s.name ⟨before, current⟩
      = .ok ⟨before ++ [(s.name, .table .header [])], some s.name⟩ := by
    rw [Document.openSection, any_key_eq_false hbefore]
    rfl
  rw [Section.written, String.toList_append]
  exact (brings_header h.name hopen).append (brings_settings hbefore h.keys h.nodup)

/-- **Sections bring all their settings**, one section after the other. -/
theorem exists_brings_sections (h : ∀ s ∈ sections, s.IsWritable)
    (hnames : (before.map (·.1) ++ sections.map (·.name)).Nodup) (current : Option String) :
    ∃ last, Brings (writeSections sections).toList ⟨before, current⟩
      ⟨before ++ sections.map Section.pair, last⟩ := by
  induction sections generalizing before current with
  | nil => exact ⟨current, by simpa [writeSections] using Brings.refl ⟨before, current⟩⟩
  | cons s sections ih =>
    have hnew : ∀ p ∈ before, p.1 ≠ s.name := fun p hp => (List.nodup_append.mp hnames).2.2 p.1
      (List.mem_map_of_mem hp) s.name List.mem_cons_self
    have hfirst := brings_section (h s List.mem_cons_self) before current hnew
    cases sections with
    | nil => exact ⟨some s.name, by simpa [writeSections] using hfirst⟩
    | cons s' sections =>
      obtain ⟨last, hrest⟩ := @ih (before ++ [s.pair])
        (fun t ht => h t (List.mem_cons_of_mem _ ht)) (by simpa [Section.pair] using hnames)
        (some s.name)
      refine ⟨last, ?_⟩
      have htext : (writeSections (s :: s' :: sections)).toList
          = s.written.toList ++ ['\n'] ++ (writeSections (s' :: sections)).toList := by
        simp [writeSections, String.intercalate_cons_cons]
      have hpairs : before ++ (s :: s' :: sections).map Section.pair
          = before ++ [s.pair] ++ (s' :: sections).map Section.pair := by simp
      rw [htext, hpairs]
      exact (hfirst.append (Brings.newline _)).append hrest

end Section

/-- A text that begins with a header begins with no mark that is dropped. -/
theorem dropByteOrderMark_writeSections (sections : List Toml.Section) :
    Document.dropByteOrderMark (writeSections sections).toList
      = (writeSections sections).toList := by
  cases sections with
  | nil => rfl
  | cons s sections => cases sections <;> simp [writeSections, Section.written,
      String.intercalate_cons_cons, Document.dropByteOrderMark]

/-- **The standard format reads back what it writes.** -/
theorem readsBack_standard : Format.standard.ReadsBack := by
  intro sections h hnames
  obtain ⟨last, hbrings⟩ := @exists_brings_sections [] sections h hnames none
  have hread := hbrings []
  rw [List.append_nil, Document.readChars_nil] at hread
  change (Document.ofText (writeSections sections)).map (·.pairs) = _
  rw [Document.ofText, dropByteOrderMark_writeSections]
  exact congrArg (Except.map Document.pairs) hread

end CardFilter.Toml
