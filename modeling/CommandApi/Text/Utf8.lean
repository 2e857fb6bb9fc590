import Mathlib

/-!
# UTF-8, on lists of bytes

Files are lists of bytes here and texts are lists of characters.  `encodeUtf8` and `decodeUtf8` are
Lean's own UTF-8 on these, and the lemmas say what a log reader needs to know about bytes that were
cut off: decoding succeeds exactly on encodings (`decodeUtf8_eq_some_iff`), and a decodable text
that is followed by the first byte of a character is decodable up to there
(`exists_of_append_eq_encodeUtf8`) — a character that was cut in the middle cannot be completed by
what is written after it, because that starts with a byte of its own.
-/

set_option autoImplicit false

namespace Text

def encodeUtf8 (cs : List Char) : List UInt8 := cs.flatMap String.utf8EncodeChar

/-- The text the bytes encode, or `none` if they are not valid UTF-8. -/
def decodeUtf8 (bs : List UInt8) : Option (List Char) := bs.toByteArray.utf8Decode?.map Array.toList

@[simp] theorem encodeUtf8_nil : encodeUtf8 [] = [] := rfl

theorem encodeUtf8_cons (c : Char) (cs : List Char) :
    encodeUtf8 (c :: cs) = String.utf8EncodeChar c ++ encodeUtf8 cs := rfl

@[simp] theorem encodeUtf8_append (cs ds : List Char) :
    encodeUtf8 (cs ++ ds) = encodeUtf8 cs ++ encodeUtf8 ds :=
  List.flatMap_append

theorem toByteArray_encodeUtf8 (cs : List Char) : (encodeUtf8 cs).toByteArray = cs.utf8Encode := rfl

/-- `str::len`. -/
theorem utf8ByteSize_eq_length (s : String) : s.utf8ByteSize = (encodeUtf8 s.toList).length := by
  rw [← List.size_toByteArray, toByteArray_encodeUtf8, ← String.toByteArray_ofList,
    String.ofList_toList, String.size_toByteArray]

@[simp] theorem decodeUtf8_encodeUtf8 (cs : List Char) : decodeUtf8 (encodeUtf8 cs) = some cs := by
  rw [decodeUtf8, toByteArray_encodeUtf8, List.utf8Decode?_utf8Encode]
  simp

/-- Decoding succeeds exactly on encodings. -/
theorem decodeUtf8_eq_some_iff {bs : List UInt8} {cs : List Char} :
    decodeUtf8 bs = some cs ↔ bs = encodeUtf8 cs := by
  constructor
  · intro h
    rw [decodeUtf8, Option.map_eq_some_iff] at h
    obtain ⟨a, ha, rfl⟩ := h
    have hs : bs.toByteArray.utf8Decode?.isSome := by rw [ha]; rfl
    have he := ByteArray.utf8Encode_get_utf8Decode? (h := hs)
    have hget : bs.toByteArray.utf8Decode?.get hs = a := Option.get_of_eq_some hs ha
    rw [hget, ← toByteArray_encodeUtf8] at he
    simpa using congrArg (fun b : ByteArray ↦ b.data.toList) he.symm
  · rintro rfl
    exact decodeUtf8_encodeUtf8 cs

theorem encodeUtf8_injective : Function.Injective encodeUtf8 := by
  intro cs ds h
  have := decodeUtf8_encodeUtf8 cs
  rw [h, decodeUtf8_encodeUtf8] at this
  exact (Option.some.inj this).symm

theorem encodeUtf8_eq_nil {cs : List Char} (h : encodeUtf8 cs = []) : cs = [] :=
  encodeUtf8_injective h

/-- An encoding that starts with another is the encoding of a longer text. -/
theorem prefix_of_encodeUtf8_append {cs ds : List Char} {b : List UInt8}
    (h : encodeUtf8 cs ++ b = encodeUtf8 ds) : cs <+: ds := by
  refine List.isPrefix_of_utf8Encode_append_eq_utf8Encode b.toByteArray ?_
  rw [← toByteArray_encodeUtf8, ← toByteArray_encodeUtf8, ← h, List.toByteArray_append]

/-- Only the first byte of a character looks like one. -/
theorem not_isUTF8FirstByte_of_split {c : Char} {b t : List UInt8} {x : UInt8} (hb : b ≠ [])
    (h : String.utf8EncodeChar c = b ++ x :: t) : ¬ x.IsUTF8FirstByte := by
  have hlen : b.length < (String.utf8EncodeChar c).length := by rw [h]; simp
  have hget : (String.utf8EncodeChar c)[b.length] = x := by simp [h]
  rw [← hget, UInt8.isUTF8FirstByte_getElem_utf8EncodeChar]
  exact fun h0 ↦ hb (List.length_eq_zero_iff.mp h0)

/-- A cut in front of the first byte of a character is a cut between characters. -/
theorem exists_of_append_eq_encodeUtf8 {cs : List Char} {b t : List UInt8} {x : UInt8}
    (hx : x.IsUTF8FirstByte) (h : b ++ x :: t = encodeUtf8 cs) :
    ∃ ds es, cs = ds ++ es ∧ b = encodeUtf8 ds ∧ x :: t = encodeUtf8 es := by
  induction cs generalizing b with
  | nil => simp at h
  | cons c cs ih =>
    by_cases hb : b = []
    · subst hb
      exact ⟨[], c :: cs, rfl, rfl, by simpa using h⟩
    · rw [encodeUtf8_cons, List.append_eq_append_iff] at h
      rcases h with ⟨a, ha, hr⟩ | ⟨a, ha, hr⟩
      · -- the cut is inside `c` or right behind it
        cases a with
        | nil =>
          rw [List.append_nil] at ha
          exact ⟨[c], cs, rfl, by simp [encodeUtf8, ha], by simpa using hr⟩
        | cons y a =>
          obtain ⟨rfl, -⟩ : x = y ∧ _ := by simpa using hr
          exact absurd hx (not_isUTF8FirstByte_of_split hb ha)
      · obtain ⟨ds, es, rfl, rfl, he⟩ := ih hr.symm
        exact ⟨c :: ds, es, rfl, by rw [ha, encodeUtf8_cons], he⟩

/-- The bytes of an ASCII character. -/
theorem encodeUtf8_ascii {c : Char} (h : c.val ≤ 0x7f) (cs : List Char) :
    encodeUtf8 (c :: cs) = c.toNat.toUInt8 :: encodeUtf8 cs := by
  have h' : c.val.toNat ≤ 0x7f := UInt32.le_iff_toNat_le.mp h
  rw [encodeUtf8_cons, String.utf8EncodeChar, if_pos h']
  rfl

/-- Every other character starts with a byte outside ASCII. -/
theorem exists_mem_utf8EncodeChar {c : Char} (h : 0x80 ≤ c.toNat) :
    ∃ b ∈ String.utf8EncodeChar c, 0x80 ≤ b.toNat := by
  have hval : c.val.toNat = c.toNat := rfl
  rw [String.utf8EncodeChar, if_neg (by omega)]
  split_ifs
  · exact ⟨_, List.mem_cons_self, by simp only [UInt8.toNat_ofNat']; omega⟩
  · exact ⟨_, List.mem_cons_self, by simp only [UInt8.toNat_ofNat']; omega⟩
  · exact ⟨_, List.mem_cons_self, by simp only [UInt8.toNat_ofNat']; omega⟩

/-- A property of ASCII bytes holds of all bytes of a text when it holds of its characters. -/
theorem forall_mem_encodeUtf8_iff {p : UInt8 → Prop} (hp : ∀ b, p b → b.toNat < 0x80)
    {cs : List Char} :
    (∀ b ∈ encodeUtf8 cs, p b) ↔ ∀ c ∈ cs, c.toNat < 0x80 ∧ p c.toNat.toUInt8 := by
  induction cs with
  | nil => simp
  | cons c cs ih =>
    rw [List.forall_mem_cons, ← ih]
    by_cases hc : c.toNat < 0x80
    · rw [encodeUtf8_ascii (UInt32.le_iff_toNat_le.mpr (Nat.le_of_lt_succ hc)),
        List.forall_mem_cons, and_iff_right hc]
    · obtain ⟨b, hb, hlong⟩ := exists_mem_utf8EncodeChar (not_lt.mp hc)
      rw [encodeUtf8_cons]
      refine iff_of_false (fun h ↦ ?_) fun h ↦ hc h.1.1
      exact absurd (hp b (h b (List.mem_append_left _ hb))) (not_lt.mpr hlong)

/-- A text that ends with the first byte of a longer character is not valid. -/
theorem decodeUtf8_cut {x : UInt8} (hx : x.IsUTF8FirstByte) (hlong : 0x80 ≤ x.toNat)
    (cs : List Char) : decodeUtf8 (encodeUtf8 cs ++ [x]) = none := by
  rw [Option.eq_none_iff_forall_ne_some]
  intro ds hds
  obtain ⟨-, es, -, -, he⟩ := exists_of_append_eq_encodeUtf8 hx (decodeUtf8_eq_some_iff.mp hds)
  cases es with
  | nil => exact absurd he (by simp)
  | cons c es =>
    rw [encodeUtf8_cons] at he
    have hlen : (String.utf8EncodeChar c).length ≤ 1 := by
      have := congrArg List.length he
      rw [List.length_append, List.length_singleton] at this
      omega
    rw [String.utf8EncodeChar] at he hlen
    split_ifs at he hlen with h
    · obtain ⟨rfl, -⟩ : x = c.val.toNat.toUInt8 ∧ _ := by simpa using he
      have hsmall : c.val.toNat.toUInt8.toNat = c.val.toNat % 256 := UInt8.toNat_ofNat'
      omega
    all_goals simp at hlen

end Text
