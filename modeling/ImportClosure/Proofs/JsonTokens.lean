import ImportClosure.Json.Parser
import ImportClosure.Json.Printer
import ImportClosure.Proofs.SurrogatePairs
import Mathlib.Data.List.TakeDrop
/-!
Texts and numbers in JSON, written and read back.

A text is written code point by code point: as it stands, as an escape of two letters, or as one or
two UTF-16 units (`escapeCodePoint_cases`). Reading undoes each of these, but a unit that is the
second half of a pair is joined to the first half before it, whether the two came from one code
point or from two. So a text is read back with its pairs of surrogates joined (`readText_printText`,
`Text.joinPairs`), and a text that has bytes is read back as it was. A whole number is read back if
what follows could not be more of it (`readPlain_ofInt`).
-/

namespace ImportClosure

namespace Json

open ImportClosure.Text (pushHalf)

variable {c : CodePoint} {t done rest : Text} {fuel n : Nat} {joinable : Bool}

/-! ## UTF-16 units -/

theorem hexValue?_hexDigit (h : n < 16) : (hexDigit n).hexValue? = some n := by
  have hall : ∀ k : Fin 16, (hexDigit k.val).hexValue? = some k.val := by decide
  exact hall ⟨n, h⟩

theorem readUnit?_hexDigits (h : n < 0x10000) :
    readUnit? (hexDigits 4 n ++ rest) = some (n, rest) := by
  have hdigits : hexDigits 4 n = [hexDigit (n / 16 / 16 / 16 % 16), hexDigit (n / 16 / 16 % 16),
      hexDigit (n / 16 % 16), hexDigit (n % 16)] := rfl
  have hmod : ∀ m, m % 16 < 16 := fun m => Nat.mod_lt m (by decide)
  rw [hdigits]
  simp only [List.cons_append, List.nil_append, readUnit?, hexValue?_hexDigit (hmod _),
    Option.bind_eq_bind, Option.bind_some, Option.pure_def, Option.some.injEq, Prod.mk.injEq,
    and_true]
  omega

/-- Where a first half is known to come from an escape, a unit is added as a code point is. -/
theorem pushUnit_eq (hdone : ∀ last ∈ done.head?, last.isHighSurrogate = true → joinable = true)
    (c : CodePoint) : pushUnit c.val joinable done = pushHalf done c := by
  unfold pushUnit pushHalf unitCodePoint CodePoint.ofPair
  rw [CodePoint.ofNat_val]
  cases done with
  | nil => rfl
  | cons last before =>
    dsimp only
    cases hlast : last.isHighSurrogate with
    | false => rw [Bool.and_false]
    | true => rw [hdone last rfl hlast, Bool.true_and]

/-! ## Reading an escape -/

theorem readTextFrom_quote :
    readTextFrom (fuel + 1) joinable done (('"' : CodePoint) :: rest)
      = some (done.reverse, rest) := rfl

theorem readTextFrom_unit (h : n < 0x10000) :
    readTextFrom (fuel + 1) joinable done (escapeUnit n ++ rest)
      = readTextFrom fuel true (pushUnit n joinable done) rest := by
  have hunit : escapeUnit n ++ rest
      = ('\\' : CodePoint) :: ('u' : CodePoint) :: (hexDigits 4 n ++ rest) := rfl
  rw [hunit]
  conv_lhs => unfold readTextFrom
  rw [if_neg (by decide), if_pos rfl]
  dsimp only
  rw [if_pos rfl, readUnit?_hexDigits h]

theorem readTextFrom_simple {e : CodePoint} (he : e ≠ 'u') (h : simpleEscape? e = some c) :
    readTextFrom (fuel + 1) joinable done (('\\' : CodePoint) :: e :: rest)
      = readTextFrom fuel false (c :: done) rest := by
  conv_lhs => unfold readTextFrom
  rw [if_neg (by decide), if_pos rfl]
  dsimp only
  rw [if_neg he, h]

theorem readTextFrom_plain (hquote : c ≠ '"') (hbackslash : c ≠ '\\') (h : 0x20 ≤ c.val) :
    readTextFrom (fuel + 1) joinable done (c :: rest)
      = readTextFrom fuel false (c :: done) rest := by
  conv_lhs => unfold readTextFrom
  rw [if_neg hquote, if_neg hbackslash, if_neg (Nat.not_lt.2 h)]

/-- How a code point is written. -/
theorem escapeCodePoint_cases (c : CodePoint) :
    (∃ e : CodePoint, escapeCodePoint c = [('\\' : CodePoint), e] ∧ e ≠ 'u'
        ∧ simpleEscape? e = some c ∧ c.val < 0x80)
      ∨ (escapeCodePoint c = [c] ∧ c ≠ '"' ∧ c ≠ '\\' ∧ 0x20 ≤ c.val ∧ c.val < 0x7F)
      ∨ (escapeCodePoint c = escapeUnit c.val ∧ c.val < 0x10000)
      ∨ (escapeCodePoint c = escapeUnit (0xD800 + (c.val - 0x10000) / 0x400)
          ++ escapeUnit (0xDC00 + (c.val - 0x10000) % 0x400) ∧ 0x10000 ≤ c.val) := by
  unfold escapeCodePoint
  split_ifs with hquote hn hr ht hb hf hplain hunit
  · refine Or.inl ⟨c, rfl, ?_, ?_, ?_⟩ <;> rcases hquote with rfl | rfl <;> decide
  · exact Or.inl ⟨'n', rfl, by decide, by rw [hn]; rfl, by rw [hn]; decide⟩
  · exact Or.inl ⟨'r', rfl, by decide, by rw [hr]; rfl, by rw [hr]; decide⟩
  · exact Or.inl ⟨'t', rfl, by decide, by rw [ht]; rfl, by rw [ht]; decide⟩
  · obtain rfl : c = CodePoint.ofNat 8 := Fin.ext hb
    exact Or.inl ⟨'b', rfl, by decide, rfl, by decide⟩
  · obtain rfl : c = CodePoint.ofNat 12 := Fin.ext hf
    exact Or.inl ⟨'f', rfl, by decide, rfl, by decide⟩
  · exact Or.inr (Or.inl ⟨rfl, fun h => hquote (Or.inl h), fun h => hquote (Or.inr h), hplain.1,
      hplain.2⟩)
  · exact Or.inr (Or.inr (Or.inl ⟨rfl, hunit⟩))
  · exact Or.inr (Or.inr (Or.inr ⟨rfl, Nat.not_lt.1 hunit⟩))

/-- A code point beyond the units is read from its two halves. -/
theorem pushUnit_pushUnit (h : 0x10000 ≤ c.val) :
    pushUnit (0xDC00 + (c.val - 0x10000) % 0x400) true
      (pushUnit (0xD800 + (c.val - 0x10000) / 0x400) joinable done) = c :: done := by
  have hlt := c.isLt
  have hhigh : (CodePoint.ofNat (0xD800 + (c.val - 0x10000) / 0x400)).val
      = 0xD800 + (c.val - 0x10000) / 0x400 := CodePoint.val_ofNat (by omega)
  have hlow : (CodePoint.ofNat (0xDC00 + (c.val - 0x10000) % 0x400)).val
      = 0xDC00 + (c.val - 0x10000) % 0x400 := CodePoint.val_ofNat (by omega)
  have hfirst : pushUnit (0xD800 + (c.val - 0x10000) / 0x400) joinable done
      = CodePoint.ofNat (0xD800 + (c.val - 0x10000) / 0x400) :: done := by
    -- a first half is joined to nothing
    have hnot : (CodePoint.ofNat (0xD800 + (c.val - 0x10000) / 0x400)).isLowSurrogate = false := by
      refine Text.isLowSurrogate_of_high (CodePoint.isHighSurrogate_iff.2 ?_)
      rw [hhigh]
      omega
    unfold pushUnit unitCodePoint
    cases done with
    | nil => rfl
    | cons last before =>
      dsimp only
      rw [hnot, Bool.and_false, if_neg Bool.false_ne_true]
  rw [hfirst]
  unfold pushUnit unitCodePoint
  dsimp only
  rw [if_pos]
  · refine congrArg (· :: done) (Fin.ext ?_)
    unfold CodePoint.ofNat
    dsimp only
    omega
  · rw [Bool.true_and, Bool.and_eq_true, CodePoint.isHighSurrogate_iff,
      CodePoint.isLowSurrogate_iff, hhigh, hlow]
    omega

/-! ## Texts -/

theorem length_escapeUnit (n : Nat) : (escapeUnit n).length = 6 := rfl

theorem pushHalf_of_ascii (h : c.val < 0x80) : pushHalf done c = c :: done := by
  refine Text.pushHalf_of_not_low (Text.isLowSurrogate_eq_false ?_)
  rw [CodePoint.isSurrogate_eq_false_iff]
  omega

theorem head_of_ascii (h : c.val < 0x80) :
    ∀ last ∈ (c :: done).head?, last.isHighSurrogate = true → joinable = true := by
  intro last hlast hhigh
  obtain rfl : c = last := Option.some.inj hlast
  have hrange := CodePoint.isHighSurrogate_iff.1 hhigh
  omega

/-- An escaped text is read up to the quote that ends it. -/
theorem readTextFrom_escaped (hfuel : (t.flatMap escapeCodePoint).length < fuel)
    (hdone : ∀ last ∈ done.head?, last.isHighSurrogate = true → joinable = true) :
    readTextFrom fuel joinable done (t.flatMap escapeCodePoint ++ ('"' : CodePoint) :: rest)
      = some ((t.foldl pushHalf done).reverse, rest) := by
  -- a half that was read from an escape is known to be one, whatever was read before it
  induction t generalizing fuel joinable done with
  | nil =>
    obtain ⟨fuel, rfl⟩ := Nat.exists_eq_add_of_lt hfuel
    exact readTextFrom_quote
  | cons c t ih =>
    rw [List.flatMap_cons, List.length_append] at hfuel
    rw [List.flatMap_cons, List.append_assoc, List.foldl_cons]
    rcases escapeCodePoint_cases c with
      ⟨e, heq, he, hsimple, hlow⟩ | ⟨heq, hquote, hbackslash, hge, hlt⟩ | ⟨heq, hlt⟩ | ⟨heq, hge⟩
    · rw [heq] at hfuel ⊢
      simp only [List.length_cons, List.length_nil] at hfuel
      obtain ⟨fuel, rfl⟩ := Nat.exists_eq_add_of_le' (show 1 ≤ fuel by omega)
      rw [pushHalf_of_ascii hlow]
      exact (readTextFrom_simple he hsimple).trans (ih (by omega) (head_of_ascii hlow))
    · rw [heq] at hfuel ⊢
      simp only [List.length_cons, List.length_nil] at hfuel
      obtain ⟨fuel, rfl⟩ := Nat.exists_eq_add_of_le' (show 1 ≤ fuel by omega)
      rw [pushHalf_of_ascii (by omega)]
      exact (readTextFrom_plain hquote hbackslash hge).trans
        (ih (by omega) (head_of_ascii (by omega)))
    · rw [heq, length_escapeUnit] at hfuel
      obtain ⟨fuel, rfl⟩ := Nat.exists_eq_add_of_le' (show 1 ≤ fuel by omega)
      rw [heq, readTextFrom_unit hlt, pushUnit_eq hdone]
      exact ih (by omega) fun _ _ _ => rfl
    · have hc := c.isLt
      rw [heq, List.length_append, length_escapeUnit, length_escapeUnit] at hfuel
      obtain ⟨fuel, rfl⟩ := Nat.exists_eq_add_of_le' (show 2 ≤ fuel by omega)
      rw [heq, List.append_assoc, readTextFrom_unit (by omega), readTextFrom_unit (by omega),
        pushUnit_pushUnit hge, Text.pushHalf_of_not_low (Text.isLowSurrogate_eq_false ?_)]
      · exact ih (by omega) fun _ _ _ => rfl
      · rw [CodePoint.isSurrogate_eq_false_iff]
        omega

theorem readText_printText :
    readText (t.flatMap escapeCodePoint ++ ('"' : CodePoint) :: rest)
      = some (t.joinPairs, rest) := by
  have hlength : (t.flatMap escapeCodePoint).length
      < (t.flatMap escapeCodePoint ++ ('"' : CodePoint) :: rest).length + 1 := by
    rw [List.length_append]
    omega
  unfold readText
  exact readTextFrom_escaped hlength nofun

/-! ## Whole numbers -/

/-- The text goes on with nothing that could be part of a number. -/
def EndsNumber (t : Text) : Prop :=
  ∀ c ∈ t.head?, c.isDigit = false ∧ c ≠ '.' ∧ c ≠ 'e' ∧ c ≠ 'E'

theorem ofNat_eq (n : Nat) : Text.ofNat n = (Nat.toDigits 10 n).map CodePoint.ofChar := by
  unfold Text.ofNat Text.ofString
  rw [Nat.toString_eq_ofList_toDigits, String.toList_ofList]

theorem ofNat_ne_nil (n : Nat) : Text.ofNat n ≠ [] := by
  rw [ofNat_eq]
  simp [Nat.toDigits_ne_nil]

theorem isDigit_of_mem_ofNat (h : c ∈ Text.ofNat n) : c.isDigit = true := by
  rw [ofNat_eq] at h
  obtain ⟨d, hd, rfl⟩ := List.mem_map.1 h
  have hdigit := Nat.isDigit_of_mem_toDigits (by decide) (by decide) hd
  unfold Char.isDigit at hdigit
  simp only [ge_iff_le, Bool.and_eq_true, decide_eq_true_eq, UInt32.le_iff_toNat_le] at hdigit
  unfold CodePoint.isDigit CodePoint.ofChar
  simp only [Bool.and_eq_true, decide_eq_true_eq]
  exact hdigit

theorem digitsValue_ofNat (n : Nat) : digitsValue (Text.ofNat n) = n := by
  have h : Nat.ofDigitChars 10 (Nat.toDigits 10 n) 0 = n :=
    Nat.ofDigitChars_toDigits (by decide) (by decide)
  rw [ofNat_eq]
  unfold digitsValue
  rw [List.foldl_map]
  conv_rhs => rw [← h]
  unfold Nat.ofDigitChars
  congr 1
  funext m d
  rw [Nat.mul_comm]
  rfl

/-- The first digit is zero only where it is the last. -/
theorem eq_nil_of_ofNat_cons (h : Text.ofNat n = ('0' : CodePoint) :: t) : t = [] := by
  induction n using Nat.strongRecOn generalizing t with
  | ind n ih =>
    rw [ofNat_eq, Nat.toDigits_eq_if (by decide)] at h
    split at h
    · exact (List.cons.inj h).2.symm
    · rename_i hten
      -- the number without its last digit begins in the same way, and is zero
      rw [List.map_append, ← ofNat_eq] at h
      obtain ⟨d, ds, hds⟩ := List.exists_cons_of_ne_nil (ofNat_ne_nil (n / 10))
      rw [hds, List.cons_append] at h
      obtain ⟨rfl, -⟩ := List.cons.inj h
      obtain rfl := ih (n / 10) (by omega) hds
      have hzero := digitsValue_ofNat (n / 10)
      rw [hds] at hzero
      have hvalue : digitsValue [('0' : CodePoint)] = 0 := rfl
      omega

theorem spanDigits_append (hdigits : ∀ c ∈ t, c.isDigit = true) (hrest : EndsNumber rest) :
    spanDigits (t ++ rest) = (t, rest) := by
  unfold spanDigits
  rw [List.span_eq_takeWhile_dropWhile, List.takeWhile_append_of_pos hdigits,
    List.dropWhile_append_of_pos hdigits]
  cases rest with
  | nil => simp
  | cons d rest =>
    have hd := (hrest d rfl).1
    rw [List.takeWhile_cons_of_neg (by simp [hd]), List.dropWhile_cons_of_neg (by simp [hd]),
      List.append_nil]

theorem readFraction_eq_none (hrest : EndsNumber rest) : readFraction rest = none := by
  cases rest with
  | nil => rfl
  | cons d rest =>
    unfold readFraction
    exact if_neg (hrest d rfl).2.1

theorem readExponent_eq_none (hrest : EndsNumber rest) : readExponent rest = none := by
  cases rest with
  | nil => rfl
  | cons d rest =>
    unfold readExponent
    exact if_neg (not_or.2 (hrest d rfl).2.2)

theorem readMagnitude_ofNat (negative : Bool) (n : Nat) (hrest : EndsNumber rest) :
    readMagnitude negative (Text.ofNat n ++ rest)
      = some (.int (if negative then -n else n), rest) := by
  have hspan := spanDigits_append (t := Text.ofNat n) (fun _ => isDigit_of_mem_ofNat) hrest
  have hvalue := digitsValue_ofNat n
  unfold readMagnitude
  rw [hspan]
  obtain ⟨d, ds, hds⟩ := List.exists_cons_of_ne_nil (ofNat_ne_nil n)
  have hzero : ¬ (d = '0' ∧ ds ≠ []) := by
    rintro ⟨rfl, hne⟩
    exact hne (eq_nil_of_ofNat_cons hds)
  rw [hds] at hvalue ⊢
  dsimp only
  rw [if_neg hzero]
  dsimp only
  rw [readFraction_eq_none hrest, readExponent_eq_none hrest]
  dsimp only
  rw [hvalue]

theorem afterWord?_eq_none {word : String} {d : CodePoint}
    (h : (Text.ofString word).head? = some d) (hc : c ≠ d) : afterWord? word (c :: t) = none := by
  obtain ⟨w, hw⟩ := List.head?_eq_some_iff.1 h
  unfold afterWord?
  rw [hw]
  simp [List.isPrefixOf, hc.symm]

/-- No word begins with a digit. -/
theorem findSome?_words_digit (hc : c.isDigit = true) :
    words.findSome? (fun w => (afterWord? w.1 (c :: t)).map fun rest => (w.2, rest)) = none := by
  have hne : ∀ d : CodePoint, d.isDigit = false → c ≠ d := by
    rintro d hd rfl
    rw [hc] at hd
    cases hd
  rw [List.findSome?_eq_none_iff]
  intro w hw
  simp only [words, List.mem_cons, List.not_mem_nil, or_false] at hw
  rcases hw with rfl | rfl | rfl | rfl | rfl | rfl <;>
    exact congrArg _ (afterWord?_eq_none rfl (hne _ (by decide)))

/-- No word is a sign and a digit. -/
theorem findSome?_words_sign (hc : c.isDigit = true) :
    words.findSome? (fun w => (afterWord? w.1 (('-' : CodePoint) :: c :: t)).map
      fun rest => (w.2, rest)) = none := by
  have hinfinity : afterWord? "-Infinity" (('-' : CodePoint) :: c :: t) = none := by
    have hne : ('I' : CodePoint) ≠ c := by
      rintro rfl
      exact absurd hc (by decide)
    have hword : Text.ofString "-Infinity"
        = ('-' : CodePoint) :: ('I' : CodePoint) :: Text.ofString "nfinity" := rfl
    unfold afterWord?
    rw [hword]
    simp [List.isPrefixOf, hne]
  rw [List.findSome?_eq_none_iff]
  intro w hw
  simp only [words, List.mem_cons, List.not_mem_nil, or_false] at hw
  rcases hw with rfl | rfl | rfl | rfl | rfl | rfl
  case inr.inr.inr.inr.inr => exact congrArg _ hinfinity
  all_goals exact congrArg _ (afterWord?_eq_none rfl (by decide))

theorem ofInt_negSucc (n : Nat) :
    Text.ofInt (.negSucc n) = ('-' : CodePoint) :: Text.ofNat (n + 1) := by
  have hstring : toString (Int.negSucc n) = "-" ++ toString (n + 1) := rfl
  unfold Text.ofInt Text.ofNat Text.ofString
  rw [hstring, String.toList_append, List.map_append]
  rfl

theorem exists_ofNat_cons (n : Nat) : ∃ d ds, Text.ofNat n = d :: ds ∧ d.isDigit = true := by
  obtain ⟨d, ds, hds⟩ := List.exists_cons_of_ne_nil (ofNat_ne_nil n)
  exact ⟨d, ds, hds, isDigit_of_mem_ofNat (n := n) (hds ▸ List.mem_cons_self)⟩

theorem exists_ofInt_cons (i : Int) :
    ∃ d ds, Text.ofInt i = d :: ds ∧ (d.isDigit = true ∨ d = '-') := by
  cases i with
  | ofNat n =>
    obtain ⟨d, ds, hds, hd⟩ := exists_ofNat_cons n
    exact ⟨d, ds, hds, Or.inl hd⟩
  | negSucc n => exact ⟨_, _, ofInt_negSucc n, Or.inr rfl⟩

/-- A whole number is read up to what cannot be part of it. -/
theorem readPlain_ofInt (i : Int) (hrest : EndsNumber rest) :
    readPlain (Text.ofInt i ++ rest) = some (.int i, rest) := by
  cases i with
  | ofNat n =>
    have htext : Text.ofInt (.ofNat n) = Text.ofNat n := rfl
    have hread := readMagnitude_ofNat false n hrest
    obtain ⟨d, ds, hds, hd⟩ := exists_ofNat_cons n
    rw [htext]
    rw [hds] at hread ⊢
    unfold readPlain
    rw [List.cons_append, findSome?_words_digit hd]
    dsimp only
    rw [if_neg (by rintro rfl; exact absurd hd (by decide))]
    exact hread
  | negSucc n =>
    have hread := readMagnitude_ofNat true (n + 1) hrest
    obtain ⟨d, ds, hds, hd⟩ := exists_ofNat_cons (n + 1)
    rw [ofInt_negSucc]
    rw [hds] at hread ⊢
    unfold readPlain
    rw [List.cons_append, List.cons_append, findSome?_words_sign hd]
    dsimp only
    rw [if_pos rfl]
    exact hread

end Json

end ImportClosure
