/-!
# Texts as bytes

`utf8` gives the bytes of a text, and `ofUtf8?` the text that bytes spell. Bytes that begin or end
inside a character spell none. Reading the bytes of a text gives the text, and no other bytes give
it (`ofUtf8?_eq_some_iff`).
-/

namespace PowerShare

/-- The bytes of a text. -/
def utf8 (text : List Char) : List UInt8 := text.flatMap String.utf8EncodeChar

/-- The text that bytes spell, if they spell whole characters. -/
def ofUtf8? (bytes : List UInt8) : Option (List Char) :=
  (String.fromUTF8? ⟨bytes.toArray⟩).map String.toList

/-- Two texts behind each other have their bytes behind each other. -/
theorem utf8_append (a b : List Char) : utf8 (a ++ b) = utf8 a ++ utf8 b :=
  List.flatMap_append

/-- The bytes of a text are those of the string that it spells. -/
theorem utf8_eq_data (text : List Char) :
    (⟨(utf8 text).toArray⟩ : ByteArray) = (String.ofList text).toByteArray := by
  rw [String.toByteArray_ofList]
  ext1
  simp [utf8, List.utf8Encode]

/-- Reading accepts exactly the bytes of a text. -/
theorem ofUtf8?_eq_some_iff {bytes : List UInt8} {text : List Char} :
    ofUtf8? bytes = some text ↔ bytes = utf8 text := by
  constructor
  · intro h
    obtain ⟨s, hs, rfl⟩ := Option.map_eq_some_iff.1 h
    unfold String.fromUTF8? at hs
    split at hs
    · obtain rfl := Option.some.inj hs
      have h := utf8_eq_data (String.toList (String.fromUTF8 ⟨bytes.toArray⟩ ‹_›))
      rw [String.ofList_toList] at h
      have h := congrArg ByteArray.data h
      simpa [String.fromUTF8] using h.symm
    · cases hs
  · rintro rfl
    unfold ofUtf8? String.fromUTF8?
    simp only [utf8_eq_data, String.isValidUTF8, dite_true, Option.map_some]
    have h : String.fromUTF8 (String.ofList text).toByteArray (String.isValidUTF8 _) =
        String.ofList text := rfl
    rw [h, String.toList_ofList]

end PowerShare
