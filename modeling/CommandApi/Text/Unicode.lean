import CommandApi.Text.Utf16

/-!
# Byte order marks

The encodings of Unicode that a byte order mark names.  A decoder that looks for a mark takes it
away and decodes the rest in the encoding it names, whatever encoding it was asked for.
`encode_ne_bom_encode` says that this always loses something: the text that comes out is never
encoded, in the encoding that was asked for, as the bytes that went in.
-/

set_option autoImplicit false

namespace Text

inductive Unicode
  | utf8
  | utf16 (e : Endian)
  deriving DecidableEq, Repr

namespace Unicode

def encode : Unicode → List Char → List UInt8
  | utf8 => encodeUtf8
  | utf16 e => encodeUtf16 e

/-- The text the bytes encode, or `none` if there is anything malformed in them. -/
def decode : Unicode → List UInt8 → Option (List Char)
  | utf8 => decodeUtf8
  | utf16 e => decodeUtf16 e

/-- The byte order mark, which is `U+FEFF` in the encoding it stands for. -/
def bom : Unicode → List UInt8
  | utf8 => [0xEF, 0xBB, 0xBF]
  | utf16 .little => [0xFF, 0xFE]
  | utf16 .big => [0xFE, 0xFF]

/-- The encoding named by the mark at the start, if there is one, and the bytes behind it. -/
def sniff (bs : List UInt8) : Option (Unicode × List UInt8) :=
  if utf8.bom <+: bs then some (utf8, bs.drop 3)
  else if (utf16 .little).bom <+: bs then some (utf16 .little, bs.drop 2)
  else if (utf16 .big).bom <+: bs then some (utf16 .big, bs.drop 2)
  else none

theorem decode_eq_some_iff {u : Unicode} {bs : List UInt8} {cs : List Char} :
    u.decode bs = some cs ↔ bs = u.encode cs := by
  cases u with
  | utf8 => exact decodeUtf8_eq_some_iff
  | utf16 e => exact decodeUtf16_eq_some_iff

theorem sniff_bom (u : Unicode) (bs : List UInt8) : sniff (u.bom ++ bs) = some (u, bs) := by
  rcases u with _ | _ | _ <;> simp [sniff, bom]

theorem eq_bom_append_of_sniff {u : Unicode} {bs rest : List UInt8}
    (h : sniff bs = some (u, rest)) : bs = u.bom ++ rest := by
  rw [sniff] at h
  split_ifs at h with h1 h2 h3
  · obtain ⟨t, rfl⟩ := h1
    obtain ⟨rfl, rfl⟩ : utf8 = u ∧ _ = rest := by simpa using h
    rfl
  · obtain ⟨t, rfl⟩ := h2
    obtain ⟨rfl, rfl⟩ : utf16 .little = u ∧ _ = rest := by simpa using h
    rfl
  · obtain ⟨t, rfl⟩ := h3
    obtain ⟨rfl, rfl⟩ : utf16 .big = u ∧ _ = rest := by simpa using h
    rfl

/-- No character starts with one of the two largest bytes in UTF-8. -/
theorem encodeUtf8_ne_cons {x : UInt8} (hx : 0xFE ≤ x) (cs : List Char) (bs : List UInt8) :
    encodeUtf8 cs ≠ x :: bs := by
  intro h
  cases cs with
  | nil => cases h
  | cons c cs =>
    obtain ⟨y, ys, hy⟩ := List.exists_cons_of_ne_nil (String.utf8EncodeChar_ne_nil (c := c))
    rw [encodeUtf8_cons, hy, List.cons_append] at h
    obtain ⟨rfl, -⟩ := List.cons.inj h
    have hlen : 0 < (String.utf8EncodeChar c).length := by simp [hy]
    have hget : (String.utf8EncodeChar c)[0] = y := by simp [hy]
    have hfirst : y.IsUTF8FirstByte := by
      rw [← hget, UInt8.isUTF8FirstByte_getElem_utf8EncodeChar]
    have hy' : y = 0xFE ∨ y = 0xFF := by
      have h1 : 0xFE ≤ y.toNat := UInt8.le_iff_toNat_le.mp hx
      have h2 := y.toNat_lt
      rcases (by omega : y.toNat = 0xFE ∨ y.toNat = 0xFF) with h | h
      · exact .inl (UInt8.toNat_inj.mp h)
      · exact .inr (UInt8.toNat_inj.mp h)
    rcases hy' with rfl | rfl <;> exact absurd hfirst (by decide)

/-- **What is behind a mark is never encoded as the mark and itself**: in UTF-8, or in UTF-16 with
the lower byte first. -/
theorem encode_ne_bom_encode {u : Unicode} (hu : u ≠ utf16 .big) (v : Unicode) (cs : List Char) :
    u.encode cs ≠ v.bom ++ v.encode cs := by
  rcases u with _ | e
  · rcases v with _ | _ | _
    · intro h
      have := congrArg List.length h
      simp only [bom, List.length_append, List.length_cons] at this
      omega
    · exact encodeUtf8_ne_cons (by decide) cs _
    · exact encodeUtf8_ne_cons (by decide) cs _
  · obtain rfl : e = .little := by cases e <;> simp_all
    rcases v with _ | e
    · exact encodeUtf16_ne_bom_utf8 cs
    · intro h
      have := congrArg List.length h
      cases e <;> simp only [encode, bom, length_encodeUtf16, List.length_append,
        List.length_cons] at this <;> omega

end Unicode

end Text
