import CommandApi.Text.Utf8

/-!
# UTF-16, on lists of bytes

A character is one code unit, or two surrogates, and a unit is two bytes in either order.
`decodeUtf16_eq_some_iff`: strict decoding succeeds exactly on encodings.  An odd byte at the end
and a surrogate without its partner are malformed.

`encodeUtf16_ne_bom_utf8` compares it with UTF-8: no text is encoded, with the lower byte first, as
the byte order mark of UTF-8 followed by its own encoding there.
-/

set_option autoImplicit false

namespace Text

/-- Which byte of a unit comes first. -/
inductive Endian
  | little
  | big
  deriving DecidableEq, Repr

/-! ## Units -/

/-- The code units of a character. -/
def utf16Units (c : Char) : List ℕ :=
  if c.toNat < 0x10000 then [c.toNat]
  else [0xD800 + (c.toNat - 0x10000) / 0x400, 0xDC00 + (c.toNat - 0x10000) % 0x400]

/-- A unit that is a character of its own. -/
abbrev IsBmp (u : ℕ) : Prop := u < 0xD800 ∨ 0xE000 ≤ u

/-- The character of two surrogates. -/
def ofSurrogates (u v : ℕ) : Char := .ofNat (0x10000 + (u - 0xD800) * 0x400 + (v - 0xDC00))

/-- The text of a list of units, or `none` if a surrogate has no partner. -/
def decodeUnits : List ℕ → Option (List Char)
  | [] => some []
  | [u] => if IsBmp u then some [.ofNat u] else none
  | u :: v :: rest =>
    if IsBmp u then (Char.ofNat u :: ·) <$> decodeUnits (v :: rest)
    else if u < 0xDC00 ∧ 0xDC00 ≤ v ∧ v < 0xE000 then
      (ofSurrogates u v :: ·) <$> decodeUnits rest
    else none

theorem toNat_ofNat_of_valid {n : ℕ} (h : n.isValidChar) : (Char.ofNat n).toNat = n := by
  rw [Char.toNat_ofNat, if_pos h]

theorem utf16Units_lt (c : Char) : ∀ u ∈ utf16Units c, u < 65536 := by
  have hv : c.toNat < 0xD800 ∨ 0xDFFF < c.toNat ∧ c.toNat < 0x110000 := c.valid
  intro u hu
  rw [utf16Units] at hu
  split at hu <;> simp at hu <;> omega

theorem utf16Units_ofNat {n : ℕ} (h : IsBmp n) (h' : n < 65536) :
    utf16Units (Char.ofNat n) = [n] := by
  have hn : (Char.ofNat n).toNat = n := toNat_ofNat_of_valid (by omega)
  rw [utf16Units, hn, if_pos (by omega)]

theorem utf16Units_ofSurrogates {u v : ℕ} (hu : ¬ IsBmp u)
    (hv : u < 0xDC00 ∧ 0xDC00 ≤ v ∧ v < 0xE000) : utf16Units (ofSurrogates u v) = [u, v] := by
  have hn : (ofSurrogates u v).toNat = 0x10000 + (u - 0xD800) * 0x400 + (v - 0xDC00) :=
    toNat_ofNat_of_valid (by omega)
  have hhigh : 0xD800 + (0x10000 + (u - 0xD800) * 0x400 + (v - 0xDC00) - 0x10000) / 0x400 = u := by
    omega
  have hlow : 0xDC00 + (0x10000 + (u - 0xD800) * 0x400 + (v - 0xDC00) - 0x10000) % 0x400 = v := by
    omega
  rw [utf16Units, hn, if_neg (by omega), hhigh, hlow]

theorem decodeUnits_bmp {u : ℕ} (h : IsBmp u) (us : List ℕ) :
    decodeUnits (u :: us) = (Char.ofNat u :: ·) <$> decodeUnits us := by
  cases us with
  | nil => simp [decodeUnits, h]
  | cons v rest => simp only [decodeUnits, if_pos h]

theorem decodeUnits_append (c : Char) (us : List ℕ) :
    decodeUnits (utf16Units c ++ us) = (c :: ·) <$> decodeUnits us := by
  have hv : c.toNat < 0xD800 ∨ 0xDFFF < c.toNat ∧ c.toNat < 0x110000 := c.valid
  rw [utf16Units]
  split
  · rw [List.singleton_append, decodeUnits_bmp (by omega), Char.ofNat_toNat]
  · have hc : ofSurrogates (0xD800 + (c.toNat - 0x10000) / 0x400)
        (0xDC00 + (c.toNat - 0x10000) % 0x400) = c := by
      have hn : 0x10000 + (0xD800 + (c.toNat - 0x10000) / 0x400 - 0xD800) * 0x400 +
          (0xDC00 + (c.toNat - 0x10000) % 0x400 - 0xDC00) = c.toNat := by omega
      rw [ofSurrogates, hn, Char.ofNat_toNat]
    rw [List.cons_append, List.singleton_append, decodeUnits, if_neg (by omega), if_pos (by omega),
      hc]

theorem decodeUnits_eq_some_iff {us : List ℕ} {cs : List Char} (h : ∀ u ∈ us, u < 65536) :
    decodeUnits us = some cs ↔ us = cs.flatMap utf16Units := by
  constructor
  · intro hd
    induction us using decodeUnits.induct generalizing cs with
    | case1 =>
      cases hd
      rfl
    | case2 u hu =>
      rw [decodeUnits, if_pos hu] at hd
      cases hd
      simp [utf16Units_ofNat hu (h u List.mem_cons_self)]
    | case3 u hu =>
      rw [decodeUnits, if_neg hu] at hd
      cases hd
    | case4 u v rest hu ih =>
      rw [decodeUnits, if_pos hu, Option.map_eq_map, Option.map_eq_some_iff] at hd
      obtain ⟨ds, hds, rfl⟩ := hd
      rw [List.flatMap_cons, utf16Units_ofNat hu (h u List.mem_cons_self),
        ← ih (fun w hw ↦ h w (List.mem_cons_of_mem _ hw)) hds]
      rfl
    | case5 u v rest hu hv ih =>
      rw [decodeUnits, if_neg hu, if_pos hv, Option.map_eq_map, Option.map_eq_some_iff] at hd
      obtain ⟨ds, hds, rfl⟩ := hd
      rw [List.flatMap_cons, utf16Units_ofSurrogates hu hv,
        ← ih (fun w hw ↦ h w (List.mem_cons_of_mem _ (List.mem_cons_of_mem _ hw))) hds]
      rfl
    | case6 u v rest hu hv =>
      rw [decodeUnits, if_neg hu, if_neg hv] at hd
      cases hd
  · rintro rfl
    clear h
    induction cs with
    | nil => rfl
    | cons c cs ih => rw [List.flatMap_cons, decodeUnits_append, ih]; rfl

/-! ## Bytes -/

/-- The bytes of a unit. -/
def unitBytes (e : Endian) (u : ℕ) : List UInt8 :=
  match e with
  | .little => [.ofNat (u % 256), .ofNat (u / 256)]
  | .big => [.ofNat (u / 256), .ofNat (u % 256)]

/-- The unit of two bytes. -/
def unitOf (e : Endian) (a b : UInt8) : ℕ :=
  match e with
  | .little => a.toNat + 256 * b.toNat
  | .big => 256 * a.toNat + b.toNat

/-- The units of a list of bytes, or `none` if one byte is left over. -/
def units (e : Endian) : List UInt8 → Option (List ℕ)
  | [] => some []
  | [_] => none
  | a :: b :: rest => (unitOf e a b :: ·) <$> units e rest

def encodeUtf16 (e : Endian) (cs : List Char) : List UInt8 :=
  (cs.flatMap utf16Units).flatMap (unitBytes e)

/-- The text the bytes encode, or `none` if they are not valid UTF-16. -/
def decodeUtf16 (e : Endian) (bs : List UInt8) : Option (List Char) :=
  (units e bs).bind decodeUnits

theorem unitOf_lt (e : Endian) (a b : UInt8) : unitOf e a b < 65536 := by
  have ha := a.toNat_lt
  have hb := b.toNat_lt
  cases e <;> simp only [unitOf] <;> omega

theorem unitBytes_unitOf (e : Endian) (a b : UInt8) : unitBytes e (unitOf e a b) = [a, b] := by
  have ha := a.toNat_lt
  have hb := b.toNat_lt
  cases e with
  | little =>
    rw [unitBytes, unitOf, show (a.toNat + 256 * b.toNat) % 256 = a.toNat by omega,
      show (a.toNat + 256 * b.toNat) / 256 = b.toNat by omega, UInt8.ofNat_toNat, UInt8.ofNat_toNat]
  | big =>
    rw [unitBytes, unitOf, show (256 * a.toNat + b.toNat) % 256 = b.toNat by omega,
      show (256 * a.toNat + b.toNat) / 256 = a.toNat by omega, UInt8.ofNat_toNat, UInt8.ofNat_toNat]

theorem units_append (e : Endian) {u : ℕ} (hu : u < 65536) (bs : List UInt8) :
    units e (unitBytes e u ++ bs) = (u :: ·) <$> units e bs := by
  have hlow : (UInt8.ofNat (u % 256)).toNat = u % 256 := by rw [UInt8.toNat_ofNat']; omega
  have hhigh : (UInt8.ofNat (u / 256)).toNat = u / 256 := by rw [UInt8.toNat_ofNat']; omega
  cases e with
  | little =>
    rw [unitBytes, List.cons_append, List.singleton_append, units, unitOf, hlow, hhigh,
      Nat.mod_add_div]
  | big =>
    rw [unitBytes, List.cons_append, List.singleton_append, units, unitOf, hlow, hhigh,
      Nat.div_add_mod]

theorem units_eq_some_iff {e : Endian} {bs : List UInt8} {us : List ℕ} :
    units e bs = some us ↔ bs = us.flatMap (unitBytes e) ∧ ∀ u ∈ us, u < 65536 := by
  constructor
  · intro h
    induction bs using units.induct generalizing us with
    | case1 =>
      cases h
      exact ⟨rfl, by simp⟩
    | case2 a => cases h
    | case3 a b rest ih =>
      rw [units, Option.map_eq_map, Option.map_eq_some_iff] at h
      obtain ⟨vs, hvs, rfl⟩ := h
      obtain ⟨hrest, hlt⟩ := ih hvs
      refine ⟨?_, ?_⟩
      · rw [List.flatMap_cons, unitBytes_unitOf, ← hrest]
        rfl
      · intro u hu
        rcases List.mem_cons.mp hu with rfl | hu
        · exact unitOf_lt e a b
        · exact hlt u hu
  · rintro ⟨rfl, hlt⟩
    induction us with
    | nil => rfl
    | cons u us ih =>
      rw [List.flatMap_cons, units_append e (hlt u List.mem_cons_self),
        ih fun v hv ↦ hlt v (List.mem_cons_of_mem _ hv)]
      rfl

/-- Decoding succeeds exactly on encodings. -/
theorem decodeUtf16_eq_some_iff {e : Endian} {bs : List UInt8} {cs : List Char} :
    decodeUtf16 e bs = some cs ↔ bs = encodeUtf16 e cs := by
  have hlt : ∀ u ∈ cs.flatMap utf16Units, u < 65536 := by
    intro u hu
    obtain ⟨c, -, hc⟩ := List.mem_flatMap.mp hu
    exact utf16Units_lt c u hc
  rw [decodeUtf16, Option.bind_eq_some_iff]
  constructor
  · rintro ⟨us, hus, hcs⟩
    obtain ⟨hbs, hlt'⟩ := units_eq_some_iff.mp hus
    rw [hbs, encodeUtf16, (decodeUnits_eq_some_iff hlt').mp hcs]
  · rintro rfl
    exact ⟨_, units_eq_some_iff.mpr ⟨rfl, hlt⟩, (decodeUnits_eq_some_iff hlt).mpr rfl⟩

/-! ## Lengths -/

@[simp] theorem encodeUtf16_nil (e : Endian) : encodeUtf16 e [] = [] := rfl

theorem encodeUtf16_append (e : Endian) (cs ds : List Char) :
    encodeUtf16 e (cs ++ ds) = encodeUtf16 e cs ++ encodeUtf16 e ds := by
  simp [encodeUtf16]

theorem length_encodeUtf16 (e : Endian) (cs : List Char) :
    (encodeUtf16 e cs).length = 2 * (cs.flatMap utf16Units).length := by
  have hlen : ∀ u, (unitBytes e u).length = 2 := by cases e <;> exact fun _ ↦ rfl
  rw [encodeUtf16, List.length_flatMap]
  simp [hlen, Nat.mul_comm]

/-- A character that is not ASCII takes no fewer bytes in UTF-8, and none of them is zero. -/
theorem utf8EncodeChar_of_not_ascii {c : Char} (h : 0x7f < c.toNat) :
    2 * (utf16Units c).length ≤ (String.utf8EncodeChar c).length ∧
      0 ∉ String.utf8EncodeChar c := by
  have hzero : ∀ n k : ℕ, 0x80 ≤ k → n + k < 256 → UInt8.ofNat (n + k) ≠ 0 := by
    intro n k hk hn h0
    have := congrArg UInt8.toNat h0
    rw [UInt8.toNat_ofNat', UInt8.toNat_zero] at this
    omega
  have hv : c.toNat < 0xD800 ∨ 0xDFFF < c.toNat ∧ c.toNat < 0x110000 := c.valid
  have hc : c.val.toNat = c.toNat := rfl
  have h1 : ¬ c.toNat ≤ 0x7f := by omega
  rw [utf16Units, String.utf8EncodeChar, hc, if_neg h1]
  by_cases h2 : c.toNat ≤ 0x7ff
  · rw [if_pos h2, if_pos (by omega)]
    refine ⟨by simp, ?_⟩
    simp only [List.mem_cons, List.not_mem_nil, or_false, not_or]
    exact ⟨(hzero _ _ (by omega) (by omega)).symm, (hzero _ _ (by omega) (by omega)).symm⟩
  by_cases h3 : c.toNat ≤ 0xffff
  · rw [if_neg h2, if_pos h3, if_pos (by omega)]
    refine ⟨by simp, ?_⟩
    simp only [List.mem_cons, List.not_mem_nil, or_false, not_or]
    exact ⟨(hzero _ _ (by omega) (by omega)).symm, (hzero _ _ (by omega) (by omega)).symm,
      (hzero _ _ (by omega) (by omega)).symm⟩
  · rw [if_neg h2, if_neg h3, if_neg (by omega)]
    refine ⟨by simp, ?_⟩
    simp only [List.mem_cons, List.not_mem_nil, or_false, not_or]
    exact ⟨(hzero _ _ (by omega) (by omega)).symm, (hzero _ _ (by omega) (by omega)).symm,
      (hzero _ _ (by omega) (by omega)).symm, (hzero _ _ (by omega) (by omega)).symm⟩

/-- … and so does a text without ASCII. -/
theorem encodeUtf8_of_not_ascii {cs : List Char} (h : ∀ c ∈ cs, 0x7f < c.toNat) :
    2 * (cs.flatMap utf16Units).length ≤ (encodeUtf8 cs).length ∧ 0 ∉ encodeUtf8 cs := by
  induction cs with
  | nil => simp
  | cons c cs ih =>
    obtain ⟨hlen, hzero⟩ := utf8EncodeChar_of_not_ascii (h c List.mem_cons_self)
    obtain ⟨hlen', hzero'⟩ := ih fun d hd ↦ h d (List.mem_cons_of_mem _ hd)
    rw [encodeUtf8_cons, List.flatMap_cons, List.length_append, List.length_append]
    exact ⟨by omega, by simp [hzero, hzero']⟩

/-- The text up to its first ASCII character. -/
theorem exists_ascii {cs : List Char} (h : ¬ ∀ c ∈ cs, 0x7f < c.toNat) :
    ∃ ds c es, cs = ds ++ c :: es ∧ (∀ d ∈ ds, 0x7f < d.toNat) ∧ c.toNat ≤ 0x7f := by
  induction cs with
  | nil => exact absurd (by simp) h
  | cons c cs ih =>
    by_cases hc : c.toNat ≤ 0x7f
    · exact ⟨[], c, cs, rfl, by simp, hc⟩
    · have htail : ¬ ∀ d ∈ cs, 0x7f < d.toNat := by
        intro hall
        refine h fun d hd ↦ ?_
        rcases List.mem_cons.mp hd with rfl | hd
        · omega
        · exact hall d hd
      obtain ⟨ds, d, es, rfl, hds, hd⟩ := ih htail
      refine ⟨c :: ds, d, es, rfl, fun x hx ↦ ?_, hd⟩
      rcases List.mem_cons.mp hx with rfl | hx
      · omega
      · exact hds x hx

/-- No text is encoded in UTF-16 as the byte order mark of UTF-8 and its own UTF-8.  The first ASCII
character has a zero byte in UTF-16; in UTF-8 that place is still among the characters before
it. -/
theorem encodeUtf16_ne_bom_utf8 (cs : List Char) :
    encodeUtf16 .little cs ≠ 0xEF :: 0xBB :: 0xBF :: encodeUtf8 cs := by
  intro h
  by_cases hall : ∀ c ∈ cs, 0x7f < c.toNat
  · have hlen := congrArg List.length h
    rw [length_encodeUtf16] at hlen
    have := (encodeUtf8_of_not_ascii hall).1
    simp only [List.length_cons] at hlen
    omega
  · obtain ⟨ds, c, es, rfl, hds, hc⟩ := exists_ascii hall
    obtain ⟨hlen, hzero⟩ := encodeUtf8_of_not_ascii hds
    have hunits : utf16Units c = [c.toNat] := by rw [utf16Units, if_pos (by omega)]
    have hget : (encodeUtf16 .little (ds ++ c :: es))[(encodeUtf16 .little ds).length + 1]? =
        some 0 := by
      rw [encodeUtf16_append, List.getElem?_append_right (by omega)]
      simp [encodeUtf16, hunits, unitBytes, Nat.div_eq_of_lt (show c.toNat < 256 by omega)]
    rw [h, length_encodeUtf16] at hget
    rcases Nat.eq_zero_or_pos (ds.flatMap utf16Units).length with h0 | hpos
    · rw [h0] at hget
      exact absurd (Option.some.inj hget) (by decide)
    · have hlt : 2 * (ds.flatMap utf16Units).length - 2 < (encodeUtf8 ds).length := by omega
      rw [show 2 * (ds.flatMap utf16Units).length + 1 =
        2 * (ds.flatMap utf16Units).length - 2 + 1 + 1 + 1 by omega, List.getElem?_cons_succ,
        List.getElem?_cons_succ, List.getElem?_cons_succ, encodeUtf8_append,
        List.getElem?_append_left hlt] at hget
      exact hzero (List.mem_of_getElem? hget)

end Text
