import ImportClosure.Proofs.Encoding
import Mathlib.Data.List.Forall2
/-!
What decoding makes of bytes.

A byte string is well-formed if it is one sequence of the table after another, and the table has a
row for each range of first bytes: it knows nothing of code points. The bytes of a code point are
such a sequence unless it is a surrogate, and every such sequence is the bytes of one code point
(`isSequence_iff`). So strict decoding is the inverse of encoding, and it succeeds exactly on the
well-formed byte strings (`decode_eq_ok_iff`, `exists_decode_iff`). Lossy decoding agrees with it
there, and of every byte string it makes a text that has bytes.
-/

namespace ImportClosure

namespace Utf8

/-! ## Well-formed byte strings -/

/-- The rows of the well-formed sequences: for each byte of a sequence the first and the last byte
that may stand there. -/
def sequenceTable : List (List (UInt8 × UInt8)) :=
  [[(0x00, 0x7F)],
   [(0xC2, 0xDF), (0x80, 0xBF)],
   [(0xE0, 0xE0), (0xA0, 0xBF), (0x80, 0xBF)],
   [(0xE1, 0xEC), (0x80, 0xBF), (0x80, 0xBF)],
   [(0xED, 0xED), (0x80, 0x9F), (0x80, 0xBF)],
   [(0xEE, 0xEF), (0x80, 0xBF), (0x80, 0xBF)],
   [(0xF0, 0xF0), (0x90, 0xBF), (0x80, 0xBF), (0x80, 0xBF)],
   [(0xF1, 0xF3), (0x80, 0xBF), (0x80, 0xBF), (0x80, 0xBF)],
   [(0xF4, 0xF4), (0x80, 0x8F), (0x80, 0xBF), (0x80, 0xBF)]]

/-- The bytes are a sequence of the table. -/
def IsSequence (s : Bytes) : Prop :=
  ∃ row ∈ sequenceTable, List.Forall₂ (fun b range => range.1 ≤ b ∧ b ≤ range.2) s row

/-- One sequence of the table after another. -/
inductive IsWellFormed : Bytes → Prop
  | nil : IsWellFormed []
  | append {s rest : Bytes} (hs : IsSequence s) (hrest : IsWellFormed rest) :
    IsWellFormed (s ++ rest)

variable {bs rest s : Bytes} {t done : Text} {c : CodePoint} {b d e f : UInt8} {n : Nat}

/-! ## Steps -/

/-- What may follow the first byte of a sequence of three or four. -/
theorem isSecond_iff : isSecond b d = true ↔ 0x80 ≤ d.toNat ∧ d.toNat ≤ 0xBF
    ∧ (b.toNat = 0xE0 → 0xA0 ≤ d.toNat) ∧ (b.toNat = 0xED → d.toNat ≤ 0x9F)
    ∧ (b.toNat = 0xF0 → 0x90 ≤ d.toNat) ∧ (b.toNat = 0xF4 → d.toNat ≤ 0x8F) := by
  unfold isSecond secondRange
  split_ifs with he0 hed hf0 hf4 <;>
    simp only [Bool.and_eq_true, decide_eq_true_eq, UInt8.le_iff_toNat_le, ← UInt8.toNat_inj,
      UInt8.reduceToNat] at * <;>
    omega

theorem isContinuation_iff : isContinuation b = true ↔ 0x80 ≤ b.toNat ∧ b.toNat ≤ 0xBF := by
  unfold isContinuation
  simp [UInt8.le_iff_toNat_le]

theorem codePointOf_eq (h : n = c.val) : codePointOf n = c := by
  rw [h]
  exact CodePoint.ofNat_val c

theorem step_one (hb : b.toNat < 0x80) (hc : b.toNat = c.val) :
    step (b :: rest) = .codePoint c rest := by
  unfold step
  simp only [UInt8.lt_iff_toNat_lt, UInt8.reduceToNat]
  rw [if_pos hb, codePointOf_eq hc]

theorem step_two (hb : 0xC2 ≤ b.toNat) (hb' : b.toNat < 0xE0) (hd : isContinuation d = true)
    (hc : (b.toNat - 0xC0) * 64 + (d.toNat - 0x80) = c.val) :
    step (b :: d :: rest) = .codePoint c rest := by
  unfold step
  simp only [UInt8.lt_iff_toNat_lt, UInt8.reduceToNat]
  rw [if_neg (by omega), if_neg (by omega), if_pos hb', if_pos hd, codePointOf_eq hc]

theorem step_three (hb : 0xE0 ≤ b.toNat) (hb' : b.toNat < 0xF0) (hd : isSecond b d = true)
    (he : isContinuation e = true)
    (hc : (b.toNat - 0xE0) * 4096 + (d.toNat - 0x80) * 64 + (e.toNat - 0x80) = c.val) :
    step (b :: d :: e :: rest) = .codePoint c rest := by
  unfold step
  simp only [UInt8.lt_iff_toNat_lt, UInt8.reduceToNat]
  rw [if_neg (by omega), if_neg (by omega), if_neg (by omega), if_pos hb', if_pos hd, if_pos he,
    codePointOf_eq hc]

theorem step_four (hb : 0xF0 ≤ b.toNat) (hb' : b.toNat < 0xF5) (hd : isSecond b d = true)
    (he : isContinuation e = true) (hf : isContinuation f = true)
    (hc : (b.toNat - 0xF0) * 262144 + (d.toNat - 0x80) * 4096 + (e.toNat - 0x80) * 64
      + (f.toNat - 0x80) = c.val) :
    step (b :: d :: e :: f :: rest) = .codePoint c rest := by
  unfold step
  simp only [UInt8.lt_iff_toNat_lt, UInt8.reduceToNat]
  rw [if_neg (by omega), if_neg (by omega), if_neg (by omega), if_neg (by omega), if_pos hb',
    if_pos hd, if_pos he, if_pos hf, codePointOf_eq hc]

theorem toNat_toUInt8 (h : n < 256) : n.toUInt8.toNat = n := by
  rw [Nat.toUInt8_eq, UInt8.toNat_ofNat']
  exact Nat.mod_eq_of_lt h

theorem toUInt8_eq (h : n = b.toNat) : n.toUInt8 = b := by
  rw [h]
  exact UInt8.ofNat_toNat

/-- The bytes of a code point are read as this code point. -/
theorem step_encodeCodePoint (hc : c.isSurrogate = false) (rest : Bytes) :
    step (encodeCodePoint c ++ rest) = .codePoint c rest := by
  have hlt := c.isLt
  have hrange := CodePoint.isSurrogate_eq_false_iff.1 hc
  -- the bytes after the first have six bits each, the digits of the code point to the base 64
  have hlow := fun k => toNat_toUInt8 (show 0x80 + k % 64 < 256 by omega)
  unfold encodeCodePoint
  dsimp only
  split_ifs with h1 h2 h3
  · have hb := toNat_toUInt8 (show c.val < 256 by omega)
    exact step_one (by omega) (by omega)
  · have hb := toNat_toUInt8 (show 0xC0 + c.val / 64 < 256 by omega)
    have hd := hlow c.val
    exact step_two (by omega) (by omega) (isContinuation_iff.2 (by omega)) (by omega)
  · have hb := toNat_toUInt8 (show 0xE0 + c.val / 4096 < 256 by omega)
    have hd := hlow (c.val / 64)
    have he := hlow c.val
    exact step_three (by omega) (by omega) (isSecond_iff.2 (by omega))
      (isContinuation_iff.2 (by omega)) (by omega)
  · have hb := toNat_toUInt8 (show 0xF0 + c.val / 262144 < 256 by omega)
    have hd := hlow (c.val / 4096)
    have he := hlow (c.val / 64)
    have hf := hlow c.val
    exact step_four (by omega) (by omega) (isSecond_iff.2 (by omega))
      (isContinuation_iff.2 (by omega)) (isContinuation_iff.2 (by omega)) (by omega)

/-- A code point that is read stands in one, two, three or four bytes. -/
theorem step_codePoint_cases (h : step bs = .codePoint c rest) :
    (∃ b : UInt8, bs = b :: rest ∧ b.toNat < 0x80 ∧ c.val = b.toNat)
      ∨ (∃ b d : UInt8, bs = b :: d :: rest ∧ 0xC2 ≤ b.toNat ∧ b.toNat < 0xE0
          ∧ isContinuation d = true ∧ c.val = (b.toNat - 0xC0) * 64 + (d.toNat - 0x80))
      ∨ (∃ b d e : UInt8, bs = b :: d :: e :: rest ∧ 0xE0 ≤ b.toNat ∧ b.toNat < 0xF0
          ∧ isSecond b d = true ∧ isContinuation e = true
          ∧ c.val = (b.toNat - 0xE0) * 4096 + (d.toNat - 0x80) * 64 + (e.toNat - 0x80))
      ∨ (∃ b d e f : UInt8, bs = b :: d :: e :: f :: rest ∧ 0xF0 ≤ b.toNat ∧ b.toNat < 0xF5
          ∧ isSecond b d = true ∧ isContinuation e = true ∧ isContinuation f = true
          ∧ c.val = (b.toNat - 0xF0) * 262144 + (d.toNat - 0x80) * 4096 + (e.toNat - 0x80) * 64
              + (f.toNat - 0x80)) := by
  revert h
  fun_cases step bs
  case case2 b tail hb =>
    -- one byte
    intro h
    obtain ⟨rfl, rfl⟩ := Step.codePoint.inj h
    simp only [UInt8.lt_iff_toNat_lt, UInt8.reduceToNat] at hb
    exact Or.inl ⟨b, rfl, hb, CodePoint.val_ofNat (by omega)⟩
  case case5 b _ hlow hb d tail hd =>
    -- two bytes
    intro h
    obtain ⟨rfl, rfl⟩ := Step.codePoint.inj h
    have hdBounds := isContinuation_iff.1 hd
    simp only [UInt8.lt_iff_toNat_lt, UInt8.reduceToNat] at hlow hb
    exact Or.inr (Or.inl ⟨b, d, rfl, by omega, hb, hd, CodePoint.val_ofNat (by omega)⟩)
  case case9 b _ _ hlow hb d hd e tail he =>
    -- three bytes
    intro h
    obtain ⟨rfl, rfl⟩ := Step.codePoint.inj h
    have hdBounds := isSecond_iff.1 hd
    have heBounds := isContinuation_iff.1 he
    simp only [UInt8.lt_iff_toNat_lt, UInt8.reduceToNat] at hlow hb
    exact Or.inr (Or.inr (Or.inl
      ⟨b, d, e, rfl, by omega, hb, hd, he, CodePoint.val_ofNat (by omega)⟩))
  case case15 b _ _ _ hlow hb d hd e he f tail hf =>
    -- four bytes
    intro h
    obtain ⟨rfl, rfl⟩ := Step.codePoint.inj h
    have hdBounds := isSecond_iff.1 hd
    have heBounds := isContinuation_iff.1 he
    have hfBounds := isContinuation_iff.1 hf
    simp only [UInt8.lt_iff_toNat_lt, UInt8.reduceToNat] at hlow hb
    exact Or.inr (Or.inr (Or.inr
      ⟨b, d, e, f, rfl, by omega, hb, hd, he, hf, CodePoint.val_ofNat (by omega)⟩))
  all_goals exact nofun

/-- **Steps.** What is read as a code point is the bytes of this code point, and no surrogate: in
three bytes, the second one keeps clear of these. -/
theorem eq_of_step (h : step bs = .codePoint c rest) :
    c.isSurrogate = false ∧ bs = encodeCodePoint c ++ rest := by
  rw [CodePoint.isSurrogate_eq_false_iff]
  unfold encodeCodePoint
  dsimp only
  rcases step_codePoint_cases h with ⟨b, rfl, hb, hc⟩ | ⟨b, d, rfl, hb, hb', hd, hc⟩
    | ⟨b, d, e, rfl, hb, hb', hd, he, hc⟩ | ⟨b, d, e, f, rfl, hb, hb', hd, he, hf, hc⟩
  · rw [if_pos (by omega), toUInt8_eq hc]
    exact ⟨by omega, rfl⟩
  · have hd := isContinuation_iff.1 hd
    rw [if_neg (by omega), if_pos (by omega), toUInt8_eq (b := b) (by omega),
      toUInt8_eq (b := d) (by omega)]
    exact ⟨by omega, rfl⟩
  · have hd := isSecond_iff.1 hd
    have he := isContinuation_iff.1 he
    rw [if_neg (by omega), if_neg (by omega), if_pos (by omega), toUInt8_eq (b := b) (by omega),
      toUInt8_eq (b := d) (by omega), toUInt8_eq (b := e) (by omega)]
    exact ⟨by omega, rfl⟩
  · have hd := isSecond_iff.1 hd
    have he := isContinuation_iff.1 he
    have hf := isContinuation_iff.1 hf
    rw [if_neg (by omega), if_neg (by omega), if_neg (by omega), toUInt8_eq (b := b) (by omega),
      toUInt8_eq (b := d) (by omega), toUInt8_eq (b := e) (by omega),
      toUInt8_eq (b := f) (by omega)]
    exact ⟨by omega, rfl⟩

/-! ## Sequences -/

theorem isSequence_one : IsSequence [b] ↔ b.toNat < 0x80 := by
  simp [IsSequence, sequenceTable, List.forall₂_nil_left_iff, UInt8.le_iff_toNat_le]
  omega

theorem isSequence_two : IsSequence [b, d] ↔ 0xC2 ≤ b.toNat ∧ b.toNat < 0xE0
    ∧ isContinuation d = true := by
  simp [IsSequence, sequenceTable, List.forall₂_nil_left_iff, List.forall₂_nil_right_iff,
    UInt8.le_iff_toNat_le, isContinuation_iff]
  omega

theorem isSequence_three : IsSequence [b, d, e] ↔ 0xE0 ≤ b.toNat ∧ b.toNat < 0xF0
    ∧ isSecond b d = true ∧ isContinuation e = true := by
  simp [IsSequence, sequenceTable, List.forall₂_nil_left_iff, List.forall₂_nil_right_iff,
    UInt8.le_iff_toNat_le, isContinuation_iff, isSecond_iff]
  omega

theorem isSequence_four : IsSequence [b, d, e, f] ↔ 0xF0 ≤ b.toNat ∧ b.toNat < 0xF5
    ∧ isSecond b d = true ∧ isContinuation e = true ∧ isContinuation f = true := by
  simp [IsSequence, sequenceTable, List.forall₂_nil_right_iff, UInt8.le_iff_toNat_le,
    isContinuation_iff, isSecond_iff]
  omega

theorem IsSequence.length_pos_le (h : IsSequence s) : 0 < s.length ∧ s.length ≤ 4 := by
  have htable : ∀ row ∈ sequenceTable, 0 < row.length ∧ row.length ≤ 4 := by decide
  obtain ⟨row, hrow, hs⟩ := h
  rw [hs.length_eq]
  exact htable row hrow

/-- A code point is read exactly where a sequence of the table stands. -/
theorem exists_step_iff :
    (∃ c, step bs = .codePoint c rest) ↔ ∃ s, IsSequence s ∧ bs = s ++ rest := by
  constructor
  · rintro ⟨c, h⟩
    rcases step_codePoint_cases h with ⟨b, rfl, hb, -⟩ | ⟨b, d, rfl, hb, hb', hd, -⟩
      | ⟨b, d, e, rfl, hb, hb', hd, he, -⟩ | ⟨b, d, e, f, rfl, hb, hb', hd, he, hf, -⟩
    · exact ⟨[b], isSequence_one.2 hb, rfl⟩
    · exact ⟨[b, d], isSequence_two.2 ⟨hb, hb', hd⟩, rfl⟩
    · exact ⟨[b, d, e], isSequence_three.2 ⟨hb, hb', hd, he⟩, rfl⟩
    · exact ⟨[b, d, e, f], isSequence_four.2 ⟨hb, hb', hd, he, hf⟩, rfl⟩
  · rintro ⟨s, hs, rfl⟩
    obtain ⟨hpos, hle⟩ := hs.length_pos_le
    rcases s with _ | ⟨b, _ | ⟨d, _ | ⟨e, _ | ⟨f, _ | ⟨g, s⟩⟩⟩⟩⟩
    · cases hpos
    · have hb := isSequence_one.1 hs
      exact ⟨_, step_one hb (CodePoint.val_ofNat (by omega)).symm⟩
    · obtain ⟨hb, hb', hd⟩ := isSequence_two.1 hs
      have hdBounds := isContinuation_iff.1 hd
      exact ⟨_, step_two hb hb' hd (CodePoint.val_ofNat (by omega)).symm⟩
    · obtain ⟨hb, hb', hd, he⟩ := isSequence_three.1 hs
      have hdBounds := isSecond_iff.1 hd
      have heBounds := isContinuation_iff.1 he
      exact ⟨_, step_three hb hb' hd he (CodePoint.val_ofNat (by omega)).symm⟩
    · obtain ⟨hb, hb', hd, he, hf⟩ := isSequence_four.1 hs
      have hdBounds := isSecond_iff.1 hd
      have heBounds := isContinuation_iff.1 he
      have hfBounds := isContinuation_iff.1 hf
      exact ⟨_, step_four hb hb' hd he hf (CodePoint.val_ofNat (by omega)).symm⟩
    · simp only [List.length_cons] at hle
      omega

/-- **Sequences.** The sequences of the table are the bytes of the code points that are no
surrogates. -/
theorem isSequence_iff : IsSequence s ↔ ∃ c, c.isSurrogate = false ∧ s = encodeCodePoint c := by
  constructor
  · intro hs
    obtain ⟨c, hc⟩ := exists_step_iff.2 ⟨s, hs, (List.append_nil s).symm⟩
    obtain ⟨hsurrogate, heq⟩ := eq_of_step hc
    rw [List.append_nil] at heq
    exact ⟨c, hsurrogate, heq⟩
  · rintro ⟨c, hc, rfl⟩
    obtain ⟨s, hs, heq⟩ := exists_step_iff.1 ⟨c, step_encodeCodePoint hc []⟩
    rw [List.append_nil, List.append_nil] at heq
    rwa [heq]

theorem isWellFormed_encodeAll (ht : t.IsEncodable) : IsWellFormed (encodeAll t) := by
  induction t with
  | nil => exact .nil
  | cons c t ih =>
    obtain ⟨hc, ht⟩ := List.forall_mem_cons.1 ht
    exact .append (isSequence_iff.2 ⟨c, hc, rfl⟩) (ih ht)

/-- **Well-formed bytes.** The well-formed byte strings are the bytes of texts. -/
theorem isWellFormed_iff : IsWellFormed bs ↔ ∃ t, encode t = .ok bs := by
  constructor
  · intro h
    induction h with
    | nil => exact ⟨[], rfl⟩
    | append hs _ ih =>
      obtain ⟨c, hc, rfl⟩ := isSequence_iff.1 hs
      obtain ⟨t, hbytes⟩ := ih
      obtain ⟨ht, rfl⟩ := encode_eq_ok_iff.1 hbytes
      exact ⟨c :: t, encode_eq_ok (List.forall_mem_cons.2 ⟨hc, ht⟩)⟩
  · rintro ⟨t, h⟩
    obtain ⟨ht, rfl⟩ := encode_eq_ok_iff.1 h
    exact isWellFormed_encodeAll ht

/-! ## Strict decoding -/

theorem eq_nil_of_step (h : step bs = .done) : bs = [] := by
  revert h
  fun_cases step bs
  case case1 => exact fun _ => rfl
  all_goals exact nofun

variable {fuel pos : Nat}

theorem decodeFrom_encodeAll (ht : t.IsEncodable) (hfuel : t.length ≤ fuel) :
    decodeFrom fuel pos done (encodeAll t) = .ok (done.reverse ++ t) := by
  -- what was read before and its length do not matter to what is read next
  induction t generalizing fuel pos done with
  | nil =>
    rw [List.append_nil]
    cases fuel <;> rfl
  | cons c t ih =>
    obtain ⟨hc, ht⟩ := List.forall_mem_cons.1 ht
    obtain ⟨fuel, rfl⟩ := Nat.exists_eq_add_one.2 (Nat.zero_lt_of_lt hfuel)
    have hstep : step (encodeAll (c :: t)) = .codePoint c (encodeAll t) :=
      step_encodeCodePoint hc _
    unfold decodeFrom
    rw [hstep]
    dsimp only
    rw [ih ht (Nat.le_of_succ_le_succ hfuel), List.reverse_cons, List.append_assoc]
    rfl

theorem eq_of_decodeFrom (hfuel : bs.length ≤ fuel) (h : decodeFrom fuel pos done bs = .ok t) :
    ∃ u : Text, u.IsEncodable ∧ t = done.reverse ++ u ∧ bs = encodeAll u := by
  -- each step takes a byte at least, so that fuel for all bytes never runs out before them
  induction fuel generalizing pos done bs with
  | zero =>
    obtain rfl := List.length_eq_zero_iff.1 (Nat.le_zero.1 hfuel)
    exact ⟨[], List.forall_mem_nil _, by simpa using (Except.ok.inj h).symm, rfl⟩
  | succ fuel ih =>
    unfold decodeFrom at h
    cases hstep : step bs with
    | done =>
      rw [hstep] at h
      obtain rfl := eq_nil_of_step hstep
      exact ⟨[], List.forall_mem_nil _, by simpa using (Except.ok.inj h).symm, rfl⟩
    | codePoint c rest =>
      rw [hstep] at h
      obtain ⟨hc, rfl⟩ := eq_of_step hstep
      have hpos := length_encodeCodePoint_pos c
      rw [List.length_append] at hfuel
      obtain ⟨u, hu, rfl, rfl⟩ := ih (by omega) h
      refine ⟨c :: u, List.forall_mem_cons.2 ⟨hc, hu⟩, ?_, rfl⟩
      rw [List.reverse_cons, List.append_assoc]
      rfl
    | illFormed fault n rest =>
      rw [hstep] at h
      cases h

/-- **Strict decoding.** It is the inverse of encoding. -/
theorem decode_eq_ok_iff : decode bs = .ok t ↔ encode t = .ok bs := by
  constructor
  · intro h
    obtain ⟨u, hu, rfl, rfl⟩ := eq_of_decodeFrom (Nat.le_refl _) h
    exact encode_eq_ok hu
  · intro h
    obtain ⟨ht, rfl⟩ := encode_eq_ok_iff.1 h
    exact decodeFrom_encodeAll ht (length_le_encodeAll t)

theorem exists_decode_iff : (∃ t, decode bs = .ok t) ↔ IsWellFormed bs := by
  simp only [decode_eq_ok_iff, isWellFormed_iff]

instance : DecidablePred IsWellFormed := fun bs =>
  match h : decode bs with
  | .ok t => .isTrue (exists_decode_iff.1 ⟨t, h⟩)
  | .error _ => .isFalse fun hwell => by
    obtain ⟨t, ht⟩ := exists_decode_iff.2 hwell
    rw [h] at ht
    cases ht

theorem decode_isEncodable (h : decode bs = .ok t) : t.IsEncodable :=
  (encode_eq_ok_iff.1 (decode_eq_ok_iff.1 h)).1

/-! ## Lossy decoding -/

theorem decodeLossyFrom_eq (h : decodeFrom fuel pos done bs = .ok t) :
    decodeLossyFrom fuel done bs = t := by
  induction fuel generalizing pos done bs with
  | zero =>
    unfold decodeFrom at h
    unfold decodeLossyFrom
    cases hstep : step bs <;> rw [hstep] at h <;> exact Except.ok.inj h
  | succ fuel ih =>
    unfold decodeFrom at h
    unfold decodeLossyFrom
    cases hstep : step bs with
    | done =>
      rw [hstep] at h
      exact Except.ok.inj h
    | codePoint c rest =>
      rw [hstep] at h
      exact ih h
    | illFormed fault n rest =>
      rw [hstep] at h
      cases h

theorem decodeLossyFrom_isEncodable (hdone : done.IsEncodable) :
    (decodeLossyFrom fuel done bs).IsEncodable := by
  have hreverse : ∀ done : Text, done.IsEncodable → Text.IsEncodable done.reverse :=
    fun done hdone c hc => hdone c (List.mem_reverse.1 hc)
  induction fuel generalizing done bs with
  | zero =>
    unfold decodeLossyFrom
    cases step bs <;> exact hreverse _ hdone
  | succ fuel ih =>
    unfold decodeLossyFrom
    cases hstep : step bs with
    | done => exact hreverse _ hdone
    | codePoint c rest => exact ih (List.forall_mem_cons.2 ⟨(eq_of_step hstep).1, hdone⟩)
    | illFormed fault n rest => exact ih (List.forall_mem_cons.2 ⟨by decide, hdone⟩)

/-- **Lossy decoding.** It makes a text that has bytes, and these are the bytes decoded exactly if
they are well-formed. -/
theorem encode_decodeLossy (bs : Bytes) :
    encode (decodeLossy bs) = .ok (encodeAll (decodeLossy bs))
      ∧ (encodeAll (decodeLossy bs) = bs ↔ IsWellFormed bs) := by
  have hencodable : (decodeLossy bs).IsEncodable :=
    decodeLossyFrom_isEncodable (List.forall_mem_nil _)
  refine ⟨encode_eq_ok hencodable, ?_, ?_⟩
  · intro h
    exact isWellFormed_iff.2 ⟨_, encode_eq_ok_iff.2 ⟨hencodable, h⟩⟩
  · intro h
    obtain ⟨t, ht⟩ := exists_decode_iff.2 h
    rw [show decodeLossy bs = t from decodeLossyFrom_eq ht]
    exact (encode_eq_ok_iff.1 (decode_eq_ok_iff.1 ht)).2

end Utf8

/-! ## Latin-1 -/

namespace Latin1

theorem encode?_decode (bs : Bytes) : encode? (decode bs) = some bs := by
  induction bs with
  | nil => rfl
  | cons b bs ih =>
    have hb := b.toNat_lt
    have hval : (CodePoint.ofNat b.toNat).val = b.toNat := CodePoint.val_ofNat (by omega)
    unfold encode? decode at ih ⊢
    rw [List.map_cons, List.mapM_cons, ih, hval, if_pos hb, Utf8.toUInt8_eq rfl]
    rfl

end Latin1

end ImportClosure
