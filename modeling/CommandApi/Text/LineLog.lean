import Mathlib
import CommandApi.Text.Json
import CommandApi.Text.Utf8

/-!
# An append-only log of text lines

A log file holds one event a line.  The writer appends the encoding of an event and a newline; the
reader takes the file line by line, ignores the lines it cannot parse, and keeps the last event it
could.  This file is about what the reader makes of a file whose writer was interrupted, at any
byte and any number of times: `readLatest` on a whole log (`readLatest_lines`), on a log with a
torn last line (`readLatest_torn`), on a log that was written on after that
(`readLatest_torn_line`), and on any sequence of pieces of lines (`readLatest_pieces`), where the
point is that no event is read that was not written.

The reader is `BufRead::lines` and a parser.  A line that is not valid UTF-8 is an error of the
reader, not of the parser, and ends the reading; a line that does not parse is skipped.

Nothing depends on the format of the events beyond `LineCodec`: an event starts with `{`, has no
line break in it, reads back as itself, and a line glued together from pieces of events reads back
only if it is one whole event.
-/

set_option autoImplicit false

namespace Text

/-- A text format for events of type `E`, one event a line. -/
structure LineCodec (E : Type) where
  print : E → List Char
  parse : List Char → Option E
  /-- An event is an object. -/
  print_head : ∀ e, ∃ cs, print e = '{' :: cs
  /-- Control characters are escaped. -/
  print_plain : ∀ e, ∀ c ∈ print e, c ≠ '\n' ∧ c ≠ '\r'
  parse_print : ∀ e, parse (print e) = some e
  /-- A line made of pieces of events, each cut off somewhere, parses only if it is one whole
  event. -/
  parse_pieces : ∀ (ps : List (E × List Char)) (e : E),
    (∀ p ∈ ps, p.2 ≠ [] ∧ p.2 <+: print p.1) → parse (ps.flatMap Prod.snd) = some e →
      ps = [(e, print e)]

/-! ## Lines of a file -/

/-- The lines of a file, each with its newline; the last one may lack it. -/
def rawLines : List UInt8 → List (List UInt8)
  | [] => []
  | b :: bs =>
    if b = 10 then [10] :: rawLines bs
    else match rawLines bs with
      | [] => [[b]]
      | l :: ls => (b :: l) :: ls

/-- A line without its line break. -/
def chomp (cs : List Char) : List Char :=
  if cs.getLast? = some '\n' then
    if cs.dropLast.getLast? = some '\r' then cs.dropLast.dropLast else cs.dropLast
  else cs

/-- Bytes that end where a line ends. -/
def Clean (file : List UInt8) : Prop := file = [] ∨ ∃ b, file = b ++ [10]

theorem rawLines_append {b : List UInt8} (hb : 10 ∉ b) (t : List UInt8) :
    rawLines (b ++ t) = match rawLines t with
      | [] => if b = [] then [] else [b]
      | l :: ls => (b ++ l) :: ls := by
  induction b with
  | nil => cases h : rawLines t <;> simp [h]
  | cons x b ih =>
    rw [List.mem_cons, not_or] at hb
    rw [List.cons_append, rawLines, if_neg (Ne.symm hb.1), ih hb.2]
    cases h : rawLines t with
    | cons l ls => simp
    | nil => by_cases hb' : b = [] <;> simp [hb']

theorem rawLines_line {b : List UInt8} (hb : 10 ∉ b) (t : List UInt8) :
    rawLines (b ++ 10 :: t) = (b ++ [10]) :: rawLines t := by
  rw [rawLines_append hb, rawLines, if_pos rfl]

theorem rawLines_single {b : List UInt8} (hb : 10 ∉ b) (hne : b ≠ []) : rawLines b = [b] := by
  have h := rawLines_append hb []
  rw [List.append_nil] at h
  rw [h]
  simp [rawLines, hne]

theorem rawLines_ne_nil {file : List UInt8} (h : file ≠ []) : rawLines file ≠ [] := by
  cases file with
  | nil => exact absurd rfl h
  | cons b bs =>
    rw [rawLines]
    split
    · exact List.cons_ne_nil _ _
    · split
      · exact List.cons_ne_nil _ _
      · exact List.cons_ne_nil _ _

theorem rawLines_clean_append {pre : List UInt8} (hp : Clean pre) (t : List UInt8) :
    rawLines (pre ++ t) = rawLines pre ++ rawLines t := by
  rcases hp with rfl | ⟨b, rfl⟩
  · rfl
  · induction b with
    | nil => rfl
    | cons x b ih =>
      rw [List.cons_append, List.cons_append, rawLines, rawLines]
      split
      · rw [ih, List.cons_append]
      · rw [ih]
        cases h : rawLines (b ++ [10]) with
        | cons l ls => rfl
        | nil => exact absurd h (rawLines_ne_nil (by simp))

theorem Clean.append {b t : List UInt8} (hb : Clean b) (ht : Clean t) : Clean (b ++ t) := by
  rcases ht with rfl | ⟨t, rfl⟩
  · rwa [List.append_nil]
  · exact .inr ⟨b ++ t, by rw [List.append_assoc]⟩

theorem chomp_append_newline {cs : List Char} (h : ∀ c ∈ cs, c ≠ '\n' ∧ c ≠ '\r') :
    chomp (cs ++ ['\n']) = cs := by
  rw [chomp, if_pos (by simp), List.dropLast_concat, if_neg]
  exact fun hr ↦ (h _ (List.mem_of_getLast? hr)).2 rfl

theorem chomp_of_plain {cs : List Char} (h : ∀ c ∈ cs, c ≠ '\n' ∧ c ≠ '\r') : chomp cs = cs := by
  rw [chomp, if_neg]
  exact fun hr ↦ (h _ (List.mem_of_getLast? hr)).1 rfl

namespace LineCodec

variable {E : Type} (codec : LineCodec E)

/-- The bytes the writer appends for an event. -/
def line (e : E) : List UInt8 := encodeUtf8 (codec.print e) ++ [10]

/-- What the reader makes of one line. -/
def noteLine (latest : Option E) (raw : List UInt8) : Except String (Option E) :=
  match decodeUtf8 raw with
  | none => .error "stream did not contain valid UTF-8"
  | some cs => .ok <| match codec.parse (chomp cs) with
    | some e => some e
    | none => latest

/-- The reader: the last event of the file that can be parsed. -/
def readLatest (file : List UInt8) : Except String (Option E) :=
  (rawLines file).foldlM codec.noteLine none

variable {codec}

/-! ## Events as bytes -/

theorem newline_notMem_encodeUtf8 {cs : List Char} (h : '\n' ∉ cs) :
    (10 : UInt8) ∉ encodeUtf8 cs := by
  intro hm
  obtain ⟨b, t, hbt⟩ := List.append_of_mem hm
  obtain ⟨ds, es, rfl, -, he⟩ := exists_of_append_eq_encodeUtf8 (by decide) hbt.symm
  have hp : ['\n'] <+: es := prefix_of_encodeUtf8_append (b := t) he
  exact h (List.mem_append_right ds (hp.subset List.mem_cons_self))

theorem newline_notMem_print (e : E) : (10 : UInt8) ∉ encodeUtf8 (codec.print e) :=
  newline_notMem_encodeUtf8 fun h ↦ (codec.print_plain e _ h).1 rfl

theorem clean_line (e : E) : Clean (codec.line e) := .inr ⟨_, rfl⟩

/-- An event starts with the first byte of a character. -/
theorem encodeUtf8_print_head (codec : LineCodec E) (e : E) :
    ∃ t, encodeUtf8 (codec.print e) = 123 :: t := by
  obtain ⟨cs, hcs⟩ := codec.print_head e
  exact ⟨encodeUtf8 cs, by rw [hcs, encodeUtf8_ascii (by decide)]; rfl⟩

theorem noteLine_eq {raw : List UInt8} (cs : List Char) (h : raw = encodeUtf8 cs)
    (latest : Option E) :
    codec.noteLine latest raw = .ok (match codec.parse (chomp cs) with
      | some e => some e
      | none => latest) := by
  rw [noteLine, decodeUtf8_eq_some_iff.mpr h]

theorem noteLine_line (latest : Option E) (e : E) :
    codec.noteLine latest (codec.line e) = .ok (some e) := by
  rw [noteLine_eq (codec.print e ++ ['\n']) (by rw [encodeUtf8_append]; rfl),
    chomp_append_newline (codec.print_plain e), codec.parse_print]

theorem clean_flatMap_line (es : List E) : Clean (es.flatMap codec.line) := by
  rcases es.eq_nil_or_concat with rfl | ⟨es, e, rfl⟩
  · exact .inl rfl
  · exact .inr ⟨es.flatMap codec.line ++ encodeUtf8 (codec.print e), by simp [line]⟩

theorem foldlM_noteLine_lines (latest : Option E) (es : List E) :
    (rawLines (es.flatMap codec.line)).foldlM codec.noteLine latest =
      .ok ((es.getLast?).or latest) := by
  induction es generalizing latest with
  | nil => rfl
  | cons e es ih =>
    rw [List.flatMap_cons, rawLines_clean_append (clean_line e), List.foldlM_append]
    have hl : rawLines (codec.line e) = [codec.line e] := by
      rw [line, rawLines_line (newline_notMem_print e)]
      rfl
    rw [hl, List.foldlM_cons, noteLine_line]
    refine (ih (some e)).trans ?_
    cases es with
    | nil => rfl
    | cons e' es => rw [List.getLast?_cons_cons]; cases h : (e' :: es).getLast? <;> simp_all

/-- **A whole log reads back as its last event.** -/
theorem readLatest_lines (es : List E) :
    codec.readLatest (es.flatMap codec.line) = .ok es.getLast? := by
  rw [readLatest, foldlM_noteLine_lines, Option.or_none]

theorem readLatest_line (e : E) : codec.readLatest (codec.line e) = .ok (some e) := by
  rw [← List.flatMap_singleton codec.line, readLatest_lines]
  rfl

/-- A file that is valid UTF-8 can be read, whatever its lines are. -/
theorem exists_readLatest_encodeUtf8 (cs : List Char) :
    ∃ r, codec.readLatest (encodeUtf8 cs) = .ok r := by
  suffices h : ∀ latest, ∃ r,
      (rawLines (encodeUtf8 cs)).foldlM codec.noteLine latest = .ok r from h none
  induction hn : cs.length using Nat.strong_induction_on generalizing cs with
  | _ n ih =>
    intro latest
    by_cases hnl : '\n' ∈ cs
    · obtain ⟨a, b, rfl, ha⟩ := List.eq_append_cons_of_mem hnl
      have hsplit : encodeUtf8 (a ++ '\n' :: b) = encodeUtf8 a ++ 10 :: encodeUtf8 b := by
        rw [encodeUtf8_append, encodeUtf8_ascii (by decide)]
        rfl
      rw [hsplit, rawLines_line (newline_notMem_encodeUtf8 ha), List.foldlM_cons,
        noteLine_eq (a ++ ['\n']) (by rw [encodeUtf8_append]; rfl)]
      exact ih b.length (by simp at hn; omega) b rfl _
    · by_cases h0 : cs = []
      · subst h0
        exact ⟨latest, rfl⟩
      · rw [rawLines_single (newline_notMem_encodeUtf8 hnl) fun h ↦ h0 (encodeUtf8_eq_nil h),
          List.foldlM_cons, noteLine_eq cs rfl]
        exact ⟨_, rfl⟩

/-! ## A torn last line -/

theorem readLatest_append {pre : List UInt8} (hp : Clean pre) (t : List UInt8) :
    codec.readLatest (pre ++ t) =
      codec.readLatest pre >>= fun latest ↦ (rawLines t).foldlM codec.noteLine latest := by
  rw [readLatest, rawLines_clean_append hp, List.foldlM_append]
  rfl

/-- What can be read can be read up to the end of any line. -/
theorem exists_readLatest_of_append {pre t : List UInt8} {r : Option E} (hp : Clean pre)
    (h : codec.readLatest (pre ++ t) = .ok r) : ∃ latest, codec.readLatest pre = .ok latest := by
  rw [readLatest_append hp] at h
  cases hl : codec.readLatest pre with
  | error e => rw [hl] at h; exact absurd h (by simp [bind, Except.bind])
  | ok latest => exact ⟨latest, rfl⟩

/-- Behind the end of a line, a whole line is the latest event. -/
theorem readLatest_append_line {pre : List UInt8} {e : E} {r : Option E} (hp : Clean pre)
    (h : codec.readLatest (pre ++ codec.line e) = .ok r) : r = some e := by
  obtain ⟨latest, hl⟩ := exists_readLatest_of_append hp h
  rw [readLatest_append hp, hl] at h
  have hlines : (rawLines ([e].flatMap codec.line)).foldlM codec.noteLine latest = _ :=
    foldlM_noteLine_lines latest [e]
  rw [List.flatMap_singleton] at hlines
  exact (Except.ok.inj (hlines.symm.trans h)).symm

/-- Reading a last line that was not finished. -/
theorem readLatest_lines_append {b : List UInt8} (hb : 10 ∉ b) (hne : b ≠ []) (es : List E) :
    codec.readLatest (es.flatMap codec.line ++ b) = codec.noteLine es.getLast? b := by
  rw [readLatest_append (clean_flatMap_line es), readLatest_lines, rawLines_single hb hne]
  change List.foldlM _ _ _ = _
  rw [List.foldlM_cons]
  cases codec.noteLine es.getLast? b <;> rfl

theorem newline_notMem_of_part {e : E} {p : List UInt8} (hp : p <+: encodeUtf8 (codec.print e)) :
    (10 : UInt8) ∉ p :=
  fun h ↦ newline_notMem_print e (hp.subset h)

/-- A line cut inside a character cannot be read, and nor can the file. -/
theorem readLatest_torn_invalid (es : List E) {e : E} {p : List UInt8}
    (hp : p <+: encodeUtf8 (codec.print e)) (hd : decodeUtf8 p = none) :
    codec.readLatest (es.flatMap codec.line ++ p) =
      .error "stream did not contain valid UTF-8" := by
  have hne : p ≠ [] := by rintro rfl; exact absurd hd (by decide)
  rw [readLatest_lines_append (newline_notMem_of_part hp) hne, noteLine, hd]

/-- A line that lacks only its newline is read. -/
theorem readLatest_torn_whole (es : List E) (e : E) :
    codec.readLatest (es.flatMap codec.line ++ encodeUtf8 (codec.print e)) = .ok (some e) := by
  obtain ⟨t, ht⟩ := encodeUtf8_print_head codec e
  rw [readLatest_lines_append (newline_notMem_print e) (by rw [ht]; simp), noteLine_eq _ rfl,
    chomp_of_plain (codec.print_plain e), codec.parse_print]

/-- A line cut between two characters is skipped. -/
theorem readLatest_torn_part (es : List E) {e : E} {cs : List Char} (hcs : cs <+: codec.print e)
    (hne : cs ≠ codec.print e) :
    codec.readLatest (es.flatMap codec.line ++ encodeUtf8 cs) = .ok es.getLast? := by
  by_cases h0 : cs = []
  · subst h0
    rw [encodeUtf8_nil, List.append_nil, readLatest_lines]
  have hplain : ∀ c ∈ cs, c ≠ '\n' ∧ c ≠ '\r' := fun c hc ↦ codec.print_plain e c (hcs.subset hc)
  rw [readLatest_lines_append (newline_notMem_encodeUtf8 fun h ↦ (hplain _ h).1 rfl)
    (fun h ↦ h0 (encodeUtf8_eq_nil h)), noteLine_eq _ rfl, chomp_of_plain hplain]
  have hnone : codec.parse cs = none := by
    rw [Option.eq_none_iff_forall_ne_some]
    intro e' he'
    have h := codec.parse_pieces [(e, cs)] e' (by simpa using ⟨h0, hcs⟩) (by simpa using he')
    obtain ⟨rfl, rfl⟩ : e = e' ∧ cs = codec.print e' := by simpa using h
    exact hne rfl
  rw [hnone]

/-- A line written behind a torn one is lost with it. -/
theorem readLatest_torn_line (es : List E) {e : E} {cs : List Char} (hcs : cs <+: codec.print e)
    (hne : cs ≠ []) (e' : E) :
    codec.readLatest (es.flatMap codec.line ++ encodeUtf8 cs ++ codec.line e') =
      .ok es.getLast? := by
  have hplain : ∀ c ∈ cs ++ codec.print e', c ≠ '\n' ∧ c ≠ '\r' := by
    intro c hc
    rcases List.mem_append.mp hc with hc | hc
    · exact codec.print_plain e c (hcs.subset hc)
    · exact codec.print_plain e' c hc
  have hb : encodeUtf8 cs ++ codec.line e' = encodeUtf8 (cs ++ codec.print e') ++ [10] := by
    rw [line, encodeUtf8_append, List.append_assoc]
  have hnone : codec.parse (cs ++ codec.print e') = none := by
    rw [Option.eq_none_iff_forall_ne_some]
    intro f hf
    obtain ⟨ds, hds⟩ := codec.print_head e'
    have h := codec.parse_pieces [(e, cs), (e', codec.print e')] f
      (by simp [hne, hcs, hds]) (by simpa using hf)
    simp at h
  rw [List.append_assoc, hb, readLatest_append (clean_flatMap_line es), readLatest_lines,
    rawLines_line (newline_notMem_encodeUtf8 fun h ↦ (hplain _ h).1 rfl)]
  change List.foldlM _ _ _ = _
  rw [List.foldlM_cons, noteLine_eq (cs ++ codec.print e' ++ ['\n'])
    (by rw [encodeUtf8_append (cs ++ codec.print e')]; rfl), chomp_append_newline hplain, hnone]
  rfl

/-! ## Pieces of lines

A writer that fails may have written any part of a line, and the next writer does not know.  The
file is then a sequence of pieces, `(e, n)` standing for the first `n` bytes of the line of `e`. -/

/-- The bytes of a sequence of pieces. -/
def pieces (ps : List (E × ℕ)) : List UInt8 := ps.flatMap fun p ↦ (codec.line p.1).take p.2

/-- Pieces of events that were put on one line are pieces of their texts. -/
theorem exists_text_pieces {ps : List (E × List UInt8)} {nl : List Char} {cs : List Char}
    (hps : ∀ p ∈ ps, p.2 ≠ [] ∧ p.2 <+: encodeUtf8 (codec.print p.1)) (hnl : nl = [] ∨ nl = ['\n'])
    (h : ps.flatMap Prod.snd ++ encodeUtf8 nl = encodeUtf8 cs) :
    ∃ qs : List (E × List Char), (∀ q ∈ qs, q.2 ≠ [] ∧ q.2 <+: codec.print q.1) ∧
      qs.map Prod.fst = ps.map Prod.fst ∧ cs = qs.flatMap Prod.snd ++ nl := by
  induction ps generalizing cs with
  | nil =>
    refine ⟨[], by simp, rfl, ?_⟩
    exact (encodeUtf8_injective (by simpa using h)).symm
  | cons p ps ih =>
    obtain ⟨hne, hpre⟩ := hps p List.mem_cons_self
    have hps' : ∀ q ∈ ps, q.2 ≠ [] ∧ q.2 <+: encodeUtf8 (codec.print q.1) :=
      fun q hq ↦ hps q (List.mem_cons_of_mem p hq)
    -- whatever follows this piece starts with the first byte of a character
    have hcut : ∃ ds es, cs = ds ++ es ∧ p.2 = encodeUtf8 ds ∧
        ps.flatMap Prod.snd ++ encodeUtf8 nl = encodeUtf8 es := by
      rw [List.flatMap_cons, List.append_assoc] at h
      cases hps : ps with
      | nil =>
        subst hps
        rcases hnl with rfl | rfl
        · exact ⟨cs, [], by simp, by simpa using h, rfl⟩
        · exact exists_of_append_eq_encodeUtf8 (x := 10) (t := []) (by decide) h
      | cons q qs =>
        subst hps
        obtain ⟨hqne, hqpre⟩ := hps' q List.mem_cons_self
        obtain ⟨t, ht⟩ := encodeUtf8_print_head codec q.1
        obtain ⟨b, u, hbu⟩ := List.exists_cons_of_ne_nil hqne
        obtain ⟨v, hv⟩ := hqpre
        rw [hbu, ht] at hv
        obtain ⟨rfl, -⟩ : b = 123 ∧ _ := by simpa using hv
        rw [List.flatMap_cons, hbu, List.cons_append, List.cons_append] at h ⊢
        exact exists_of_append_eq_encodeUtf8 (by decide) h
    obtain ⟨ds, es, rfl, hd, he⟩ := hcut
    obtain ⟨qs, hqs, hmap, rfl⟩ := ih hps' he
    obtain ⟨u, hu⟩ := hpre
    rw [hd] at hu
    refine ⟨(p.1, ds) :: qs, ?_, by simp [hmap], by simp⟩
    rintro q (_ | ⟨_, hq⟩)
    · refine ⟨?_, prefix_of_encodeUtf8_append hu⟩
      rintro rfl
      exact hne hd
    · exact hqs q hq

/-- A line made of pieces of events is skipped, or is one of them. -/
theorem noteLine_pieces {ps : List (E × List UInt8)} (nl : List Char) {latest r : Option E}
    (hps : ∀ p ∈ ps, p.2 ≠ [] ∧ p.2 <+: encodeUtf8 (codec.print p.1)) (hnl : nl = [] ∨ nl = ['\n'])
    (h : codec.noteLine latest (ps.flatMap Prod.snd ++ encodeUtf8 nl) = .ok r) :
    r = latest ∨ ∃ p ∈ ps, r = some p.1 := by
  cases hd : decodeUtf8 (ps.flatMap Prod.snd ++ encodeUtf8 nl) with
  | none => simp [noteLine, hd] at h
  | some cs =>
    obtain ⟨qs, hqs, hmap, rfl⟩ := exists_text_pieces hps hnl (decodeUtf8_eq_some_iff.mp hd)
    have hplain : ∀ c ∈ qs.flatMap Prod.snd, c ≠ '\n' ∧ c ≠ '\r' := by
      intro c hc
      obtain ⟨q, hq, hcq⟩ := List.mem_flatMap.mp hc
      exact codec.print_plain q.1 c ((hqs q hq).2.subset hcq)
    have hchomp : chomp (qs.flatMap Prod.snd ++ nl) = qs.flatMap Prod.snd := by
      rcases hnl with rfl | rfl
      · rw [List.append_nil, chomp_of_plain hplain]
      · exact chomp_append_newline hplain
    rw [noteLine_eq _ (decodeUtf8_eq_some_iff.mp hd), hchomp] at h
    cases hparse : codec.parse (qs.flatMap Prod.snd) with
    | none => rw [hparse] at h; exact .inl (Except.ok.inj h).symm
    | some e =>
      rw [hparse] at h
      have hq := codec.parse_pieces qs e hqs hparse
      rw [hq] at hmap
      obtain ⟨p, hp, hpe⟩ : ∃ p ∈ ps, p.1 = e := by
        have : e ∈ ps.map Prod.fst := by rw [← hmap]; simp
        simpa using this
      exact .inr ⟨p, hp, by rw [hpe]; exact (Except.ok.inj h).symm⟩

/-- The induction behind `readLatest_pieces`: `acc` are the pieces of the line being put
together. -/
theorem foldlM_noteLine_pieces (acc : List (E × List UInt8)) {ps : List (E × ℕ)}
    {latest r : Option E}
    (hacc : ∀ p ∈ acc, p.2 ≠ [] ∧ p.2 <+: encodeUtf8 (codec.print p.1))
    (h : (rawLines (acc.flatMap Prod.snd ++ codec.pieces ps)).foldlM codec.noteLine latest =
      .ok r) :
    r = latest ∨ (∃ p ∈ acc, r = some p.1) ∨ ∃ p ∈ ps, r = some p.1 := by
  have hacc10 : ∀ {acc : List (E × List UInt8)},
      (∀ p ∈ acc, p.2 ≠ [] ∧ p.2 <+: encodeUtf8 (codec.print p.1)) →
      (10 : UInt8) ∉ acc.flatMap Prod.snd := by
    intro acc hacc hm
    obtain ⟨p, hp, hmp⟩ := List.mem_flatMap.mp hm
    exact newline_notMem_of_part (hacc p hp).2 hmp
  induction ps generalizing acc latest with
  | nil =>
    rw [pieces, List.flatMap_nil, List.append_nil] at h
    by_cases h0 : acc.flatMap Prod.snd = []
    · rw [h0] at h
      exact .inl (Except.ok.inj h).symm
    · rw [rawLines_single (hacc10 hacc) h0, List.foldlM_cons] at h
      obtain ⟨r', hr', h⟩ : ∃ r', codec.noteLine latest (acc.flatMap Prod.snd) = .ok r' ∧
          r' = r := by
        cases hn : codec.noteLine latest (acc.flatMap Prod.snd) with
        | error e => rw [hn] at h; exact absurd h (by simp [bind, Except.bind])
        | ok r' => rw [hn] at h; exact ⟨r', rfl, Except.ok.inj h⟩
      subst h
      rcases noteLine_pieces [] hacc (.inl rfl) (by simpa using hr') with h | h
      · exact .inl h
      · exact .inr (.inl h)
  | cons p ps ih =>
    rw [pieces, List.flatMap_cons, ← pieces, ← List.append_assoc] at h
    by_cases hn : p.2 ≤ (encodeUtf8 (codec.print p.1)).length
    · -- the line was not finished: one more piece of the same line
      rw [line, List.take_append_of_le_length hn] at h
      by_cases h0 : (encodeUtf8 (codec.print p.1)).take p.2 = []
      · rw [h0, List.append_nil] at h
        rcases ih acc hacc h with h | h | ⟨q, hq, h⟩
        · exact .inl h
        · exact .inr (.inl h)
        · exact .inr (.inr ⟨q, List.mem_cons_of_mem p hq, h⟩)
      · have hacc' : ∀ q ∈ acc ++ [(p.1, (encodeUtf8 (codec.print p.1)).take p.2)],
            q.2 ≠ [] ∧ q.2 <+: encodeUtf8 (codec.print q.1) := by
          intro q hq
          rcases List.mem_append.mp hq with hq | hq
          · exact hacc q hq
          · obtain rfl := List.mem_singleton.mp hq
            exact ⟨h0, List.take_prefix _ _⟩
        rcases ih _ hacc' (by simpa using h) with h | ⟨q, hq, h⟩ | ⟨q, hq, h⟩
        · exact .inl h
        · rcases List.mem_append.mp hq with hq | hq
          · exact .inr (.inl ⟨q, hq, h⟩)
          · obtain rfl := List.mem_singleton.mp hq
            exact .inr (.inr ⟨p, List.mem_cons_self, h⟩)
        · exact .inr (.inr ⟨q, List.mem_cons_of_mem p hq, h⟩)
    · -- the line was finished, and with it the line being put together
      have htake : (codec.line p.1).take p.2 = encodeUtf8 (codec.print p.1) ++ [10] := by
        rw [line]
        exact List.take_of_length_le (by simp; omega)
      have hbody : ∀ q ∈ acc ++ [(p.1, encodeUtf8 (codec.print p.1))],
          q.2 ≠ [] ∧ q.2 <+: encodeUtf8 (codec.print q.1) := by
        intro q hq
        rcases List.mem_append.mp hq with hq | hq
        · exact hacc q hq
        · obtain rfl := List.mem_singleton.mp hq
          obtain ⟨t, ht⟩ := encodeUtf8_print_head codec p.1
          exact ⟨by simp [ht], List.prefix_refl _⟩
      have hsplit : acc.flatMap Prod.snd ++ (codec.line p.1).take p.2 ++ codec.pieces ps =
          (acc ++ [(p.1, encodeUtf8 (codec.print p.1))]).flatMap Prod.snd ++
            10 :: codec.pieces ps := by
        rw [htake]
        simp
      rw [hsplit, rawLines_line (hacc10 hbody), List.foldlM_cons] at h
      cases hnote : codec.noteLine latest
          ((acc ++ [(p.1, encodeUtf8 (codec.print p.1))]).flatMap Prod.snd ++ [10]) with
      | error e => rw [hnote] at h; exact absurd h (by simp [bind, Except.bind])
      | ok r' =>
        rw [hnote] at h
        have hr' : r' = latest ∨ (∃ q ∈ acc, r' = some q.1) ∨ r' = some p.1 := by
          rcases noteLine_pieces ['\n'] hbody (.inr rfl) hnote with h | ⟨q, hq, h⟩
          · exact .inl h
          · rcases List.mem_append.mp hq with hq | hq
            · exact .inr (.inl ⟨q, hq, h⟩)
            · obtain rfl := List.mem_singleton.mp hq
              exact .inr (.inr h)
        rcases ih [] (by simp) h with h | ⟨q, hq, -⟩ | ⟨q, hq, h⟩
        · subst h
          rcases hr' with h | h | h
          · exact .inl h
          · exact .inr (.inl h)
          · exact .inr (.inr ⟨p, List.mem_cons_self, h⟩)
        · exact absurd hq (by simp)
        · exact .inr (.inr ⟨q, List.mem_cons_of_mem p hq, h⟩)

/-- **Nothing is read that was not written.**  Behind a clean file that reads as `latest`, any
sequence of pieces of lines reads as `latest` or as one of the events they are pieces of. -/
theorem readLatest_pieces {pre : List UInt8} {latest r : Option E} {ps : List (E × ℕ)}
    (hpre : Clean pre) (hlatest : codec.readLatest pre = .ok latest)
    (h : codec.readLatest (pre ++ codec.pieces ps) = .ok r) :
    r = latest ∨ ∃ p ∈ ps, r = some p.1 := by
  rw [readLatest_append hpre, hlatest] at h
  rcases foldlM_noteLine_pieces [] (by simp) h with h | ⟨p, hp, -⟩ | h
  · exact .inl h
  · exact absurd hp (by simp)
  · exact .inr h

/-! ## Lines of JSON -/

/-- Events that are written as JSON objects and read back from them. -/
def ofJson (toJson : E → Json) (fromJson : Json → Option E)
    (roundtrip : ∀ e, fromJson (toJson e) = some e) (keyed : ∀ e, (toJson e).Keyed) :
    LineCodec E where
  print e := (toJson e).print
  parse cs := (Json.parse cs).bind fromJson
  print_head e := by
    obtain ⟨x, cs, hcs, -⟩ := (keyed e).head
    exact ⟨_, hcs⟩
  print_plain e c hc := by
    have h := Json.print_plain (toJson e) c hc
    constructor <;> (rintro rfl; exact absurd h (by decide))
  parse_print e := by rw [Json.parse_print, Option.bind_some, roundtrip]
  parse_pieces ps e hps h := by
    obtain ⟨j, hj, he⟩ := Option.bind_eq_some_iff.mp h
    have hmap : (ps.map fun p ↦ (toJson p.1, p.2)).flatMap Prod.snd = ps.flatMap Prod.snd :=
      List.flatMap_map ..
    rw [← hmap] at hj
    have hpieces : ∀ q ∈ ps.map fun p ↦ (toJson p.1, p.2),
        q.1.Keyed ∧ q.2 ≠ [] ∧ q.2 <+: q.1.print := by
      intro q hq
      obtain ⟨p, hp, rfl⟩ := List.mem_map.mp hq
      exact ⟨keyed p.1, hps p hp⟩
    have hone := Json.parse_pieces hpieces hj
    obtain ⟨p, rfl, hp⟩ := List.map_eq_singleton_iff.mp hone
    obtain ⟨e', cs⟩ := p
    obtain ⟨rfl, rfl⟩ : toJson e' = j ∧ cs = j.print := by simpa using hp
    rw [roundtrip] at he
    rw [Option.some.inj he]

end LineCodec

end Text
