/-!
# Texts as bytes

The file system knows rows of bytes and no texts. A text has one row of bytes, its UTF-8 form; the
other way, a row of bytes may be the form of no text (`CardFilter.ofUtf8?`), and then it can only be
shown with marks in the places of what cannot be read.
-/

namespace CardFilter

/-- The bytes of a text. -/
def utf8 (text : String) : List UInt8 :=
  text.toList.flatMap String.utf8EncodeChar

/-- The text with these bytes, if there is one. -/
def ofUtf8? (bytes : List UInt8) : Option String :=
  String.fromUTF8? bytes.toByteArray

theorem utf8_append (s t : String) : utf8 (s ++ t) = utf8 s ++ utf8 t := by
  simp [utf8]

theorem toByteArray_utf8 (text : String) : (utf8 text).toByteArray = text.toByteArray :=
  String.utf8Encode_toList

/-- **A text is had from its own bytes only.** -/
theorem ofUtf8?_eq_some_iff {bytes : List UInt8} {text : String} :
    ofUtf8? bytes = some text ↔ bytes = utf8 text := by
  unfold ofUtf8? String.fromUTF8?
  constructor
  · intro h
    split at h
    · have hbytes : bytes.toByteArray = (utf8 text).toByteArray := by
        rw [toByteArray_utf8, ← Option.some.inj h]
        rfl
      rw [← List.toList_data_toByteArray (l := bytes), hbytes, List.toList_data_toByteArray]
    · cases h
  · rintro rfl
    have hvalid : (utf8 text).toByteArray.IsValidUTF8 := .intro text.toList rfl
    rw [dif_pos hvalid]
    exact congrArg some (String.toByteArray_inj.mp (toByteArray_utf8 text))

@[simp] theorem ofUtf8?_utf8 (text : String) : ofUtf8? (utf8 text) = some text :=
  ofUtf8?_eq_some_iff.mpr rfl

/-! ### Bytes that are no text -/

/-- The byte goes on with a character. -/
def goesOn (b : UInt8) : Bool :=
  0x80 ≤ b && b ≤ 0xBF

/-- The second byte goes on with a character of three or four bytes that begins with the first. -/
def goesOnWith (first second : UInt8) : Bool :=
  if first = 0xE0 then 0xA0 ≤ second && second ≤ 0xBF
  else if first = 0xED then 0x80 ≤ second && second ≤ 0x9F
  else if first = 0xF0 then 0x90 ≤ second && second ≤ 0xBF
  else if first = 0xF4 then 0x80 ≤ second && second ≤ 0x8F
  else 0xE1 ≤ first && first ≤ 0xF3 && goesOn second

/-- How many bytes after the first belong to a character that breaks off. -/
def brokenLength (first : UInt8) : List UInt8 → Nat
  | [] => 0
  | second :: rest =>
    if goesOnWith first second then
      if 0xF0 ≤ first && rest.head?.any goesOn then 2 else 1
    else 0

/-- The characters that bytes show, with one mark for each character that breaks off and for each
byte that begins none. -/
def shownChars : List UInt8 → List Char
  | [] => []
  | first :: rest =>
    match (first :: rest.take 3).toByteArray.utf8DecodeChar? 0 with
    | some c => c :: shownChars (rest.drop (c.utf8Size - 1))
    | none => '\ufffd' :: shownChars (rest.drop (brokenLength first rest))
termination_by bytes => bytes.length
decreasing_by all_goals simp only [List.length_drop, List.length_cons]; omega

/-- **Bytes as they are shown**: as their text, if they have one. -/
def shownUtf8 (bytes : List UInt8) : String :=
  (ofUtf8? bytes).getD (String.ofList (shownChars bytes))

/-- Of a character that breaks off one mark is left, and of a stray byte another. -/
example : shownUtf8 [0x48, 0xF0, 0x90, 0x80, 0x57, 0xFF] = "H\ufffdW\ufffd" := by cbv

end CardFilter
