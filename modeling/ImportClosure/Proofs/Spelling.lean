import ImportClosure.Syntax.Literal
import Mathlib.Data.List.Chain
import Mathlib.Data.Nat.Digits.Defs
/-!
Spellings of a literal.

A literal is spelled piece by piece: a code point stands for itself, or an escape stands for one
code point, for none, or, if its number is too large, for its own spelling (`Piece`). Reading takes
exactly one piece at a time (`unescape_piece`), whatever stands behind it: hexadecimal digits that
follow a complete escape do not make it longer, a backslash that was escaped begins nothing, and a
zero takes no further digits. Only a carriage return that a backslash removes would take a line feed
along, so that a raw line feed may not follow it (`MayPrecede`). Hence a text is recovered from each
of its spellings (`unescape_spelled`).
-/

namespace ImportClosure.Literal

/-! ## Pieces -/

/-- A hexadecimal digit, in one case or the other. -/
structure HexDigit where
  /-- The value. -/
  value : Fin 16
  /-- A letter is a capital. -/
  isUpper : Bool

namespace HexDigit

/-- The digit as it is written. -/
def spelling (d : HexDigit) : CodePoint :=
  if d.value.val < 10 then CodePoint.ofNat ('0'.toNat + d.value)
  else CodePoint.ofNat ((if d.isUpper then 'A'.toNat else 'a'.toNat) + (d.value - 10))

/-- The number that digits spell. -/
def number (ds : List HexDigit) : Nat := Nat.ofDigits 16 (ds.reverse.map (·.value.val))

end HexDigit

/-- The end of a line within a literal. -/
inductive LineEnd where
  /-- A line feed. -/
  | lineFeed
  /-- A carriage return. -/
  | carriageReturn
  /-- A carriage return and a line feed. -/
  | both
  /-- U+2028. -/
  | lineSeparator
  /-- U+2029. -/
  | paragraphSeparator

/-- The line end as it is written. -/
def LineEnd.spelling : LineEnd → Text
  | lineFeed => ['\n']
  | carriageReturn => ['\r']
  | both => ['\r', '\n']
  | lineSeparator => [0x2028]
  | paragraphSeparator => [0x2029]

/-- The letters that stand for control characters, and these. -/
def controls : List (CodePoint × CodePoint) :=
  [('n', 0x0A), ('r', 0x0D), ('t', 0x09), ('b', 0x08), ('f', 0x0C), ('v', 0x0B), ('0', 0x00)]

/-- A code point that stands for itself after a backslash: it begins no number, ends no line and is
no letter for a control character. -/
structure IsOrdinary (c : CodePoint) : Prop where
  ne_u : c ≠ 'u'
  ne_x : c ≠ 'x'
  not_lineEnd : ∀ e : LineEnd, e.spelling ≠ [c]
  not_control : c ∉ controls.map Prod.fst

/-- A piece of a literal. -/
inductive Piece where
  /-- A code point that is not a backslash. -/
  | raw (c : CodePoint) (h : c ≠ backslash)
  /-- A letter for a control character. -/
  | control (e : CodePoint × CodePoint) (h : e ∈ controls)
  /-- A code point that stands for itself. -/
  | itself (c : CodePoint) (h : IsOrdinary c)
  /-- A number of two digits. -/
  | byte (d₁ d₂ : HexDigit)
  /-- A number of four digits. -/
  | unit (d₁ d₂ d₃ d₄ : HexDigit)
  /-- The number of a code point, in braces. -/
  | braced (d : HexDigit) (ds : List HexDigit) (h : HexDigit.number (d :: ds) ≤ 0x10FFFF)
  /-- A number in braces that is too large. -/
  | tooLarge (d : HexDigit) (ds : List HexDigit) (h : 0x10FFFF < HexDigit.number (d :: ds))
  /-- A line end that is removed. -/
  | lineEnd (e : LineEnd)

namespace Piece

/-- A number in braces as it is written. -/
def inBraces (ds : List HexDigit) : Text :=
  backslash :: 'u' :: '{' :: (ds.map HexDigit.spelling ++ (['}'] : Text))

/-- A piece as it is written. -/
def spelling : Piece → Text
  | raw c _ => [c]
  | control e _ => [backslash, e.1]
  | itself c _ => [backslash, c]
  | byte d₁ d₂ => [backslash, 'x', d₁.spelling, d₂.spelling]
  | unit d₁ d₂ d₃ d₄ => [backslash, 'u', d₁.spelling, d₂.spelling, d₃.spelling, d₄.spelling]
  | braced d ds _ => inBraces (d :: ds)
  | tooLarge d ds _ => inBraces (d :: ds)
  | lineEnd e => backslash :: e.spelling

/-- What a piece stands for. -/
def value : Piece → Text
  | raw c _ => [c]
  | control e _ => [e.2]
  | itself c _ => [c]
  | byte d₁ d₂ => [CodePoint.ofNat (HexDigit.number [d₁, d₂])]
  | unit d₁ d₂ d₃ d₄ => [CodePoint.ofNat (HexDigit.number [d₁, d₂, d₃, d₄])]
  | braced d ds _ => [CodePoint.ofNat (HexDigit.number (d :: ds))]
  | tooLarge d ds _ => inBraces (d :: ds)
  | lineEnd _ => []

/-- One piece may stand directly before the other: a raw line feed would be read with the carriage
return before it. -/
def MayPrecede : Piece → Piece → Prop
  | lineEnd .carriageReturn, raw c _ => c ≠ '\n'
  | _, _ => True

end Piece

/-! ## Numbers -/

theorem HexDigit.hexValue?_spelling (d : HexDigit) : d.spelling.hexValue? = some d.value.val := by
  obtain ⟨value, isUpper⟩ := d
  revert value isUpper
  decide

theorem HexDigit.number_eq_foldl (ds : List HexDigit) :
    number ds = ds.foldl (fun n d => n * 16 + d.value.val) 0 := by
  unfold number
  rw [Nat.ofDigits_eq_foldr, List.foldr_map, List.foldr_reverse]
  congr 1
  funext n d
  simp only [Nat.cast_id]
  omega

theorem hexNumber?_spelling (ds : List HexDigit) :
    hexNumber? (ds.map HexDigit.spelling) = some (HexDigit.number ds) := by
  have hfold : ∀ n, (ds.map HexDigit.spelling).foldl
      (fun (n : Option Nat) d => do pure ((← n) * 16 + (← d.hexValue?))) (some n)
      = some (ds.foldl (fun n d => n * 16 + d.value.val) n) := by
    induction ds with
    | nil => exact fun _ => rfl
    | cons d ds ih =>
      intro n
      rw [List.map_cons, List.foldl_cons, List.foldl_cons, d.hexValue?_spelling]
      exact ih _
  rw [HexDigit.number_eq_foldl]
  exact hfold 0

/-- Digits in front of something else are taken as a whole. -/
theorem takeWhile_spelling (ds : List HexDigit) {c : CodePoint} (hc : c.hexValue? = none)
    (rest : Text) :
    (ds.map HexDigit.spelling ++ c :: rest).takeWhile (fun d => d.hexValue?.isSome)
      = ds.map HexDigit.spelling := by
  rw [List.takeWhile_append_of_pos, List.takeWhile_cons_of_neg (by simp [hc]), List.append_nil]
  intro c hc
  obtain ⟨d, -, rfl⟩ := List.mem_map.1 hc
  rw [d.hexValue?_spelling]
  rfl

/-! ## Escapes by number -/

theorem readNumbered?_of_ne {c : CodePoint} (hu : c ≠ 'u') (hx : c ≠ 'x') (rest : Text) :
    readNumbered? (c :: rest) = none := by
  unfold readNumbered?
  dsimp only
  rw [if_neg hu, if_neg hx]

theorem readNumbered?_byte (d₁ d₂ : HexDigit) (rest : Text) :
    readNumbered? ('x' :: d₁.spelling :: d₂.spelling :: rest)
      = some (numbered (HexDigit.number [d₁, d₂]), rest) := by
  have hnumber := hexNumber?_spelling [d₁, d₂]
  unfold readNumbered?
  dsimp only
  rw [if_neg (by decide), if_pos rfl, if_neg (by simp)]
  exact congrArg (Option.map _) hnumber

theorem readNumbered?_unit (d₁ d₂ d₃ d₄ : HexDigit) (rest : Text) :
    readNumbered? ('u' :: d₁.spelling :: d₂.spelling :: d₃.spelling :: d₄.spelling :: rest)
      = some (numbered (HexDigit.number [d₁, d₂, d₃, d₄]), rest) := by
  have hnumber := hexNumber?_spelling [d₁, d₂, d₃, d₄]
  have hbrace : d₁.spelling ≠ '{' := by
    intro h
    have hvalue := d₁.hexValue?_spelling
    rw [h] at hvalue
    exact absurd hvalue nofun
  unfold readNumbered?
  dsimp only
  rw [if_pos rfl, if_neg hbrace]
  dsimp only
  rw [if_neg (by simp)]
  exact congrArg (Option.map _) hnumber

theorem readNumbered?_inBraces (d : HexDigit) (ds : List HexDigit) (rest : Text) :
    readNumbered? ((Piece.inBraces (d :: ds)).tail ++ rest)
      = some (if HexDigit.number (d :: ds) ≤ 0x10FFFF then numbered (HexDigit.number (d :: ds))
          else Piece.inBraces (d :: ds), rest) := by
  have hnumber := hexNumber?_spelling (d :: ds)
  have htake := takeWhile_spelling (d :: ds) (c := '}') (by decide) rest
  have hspelled : (Piece.inBraces (d :: ds)).tail ++ rest
      = CodePoint.ofChar 'u' :: CodePoint.ofChar '{'
        :: ((d :: ds).map HexDigit.spelling ++ CodePoint.ofChar '}' :: rest) := by
    simp [Piece.inBraces]
  rw [hspelled]
  unfold readNumbered?
  dsimp only
  rw [if_pos rfl, if_pos rfl, htake, List.drop_left, List.map_cons]
  dsimp only
  rw [List.map_cons] at hnumber
  rw [if_pos rfl, hnumber, Option.getD_some]
  by_cases hle : HexDigit.number (d :: ds) ≤ 0x10FFFF
  · rw [if_pos hle, if_pos hle]
  · rw [if_neg hle, if_neg hle]
    rfl

/-! ## Escapes -/

/-- An escape of one code point. -/
theorem readEscape_single {c : CodePoint} {rest : Text} (hu : c ≠ 'u') (hx : c ≠ 'x')
    (hr : c = '\r' → rest.head? ≠ some (CodePoint.ofChar '\n')) :
    readEscape (c :: rest) = (escaped c, rest) := by
  unfold readEscape
  dsimp only
  rw [readNumbered?_of_ne hu hx]
  cases rest with
  | nil => rfl
  | cons d rest =>
    dsimp only
    rw [if_neg]
    rintro ⟨hc, hd⟩
    exact hr hc (congrArg some hd)

theorem readEscape_numbered {t value rest : Text} (h : readNumbered? t = some (value, rest)) :
    readEscape t = (value, rest) := by
  cases t with
  | nil => exact absurd h nofun
  | cons c t =>
    unfold readEscape
    dsimp only
    rw [h]

theorem isLineTerminator_iff {c : CodePoint} :
    isLineTerminator c = true ↔ ∃ e : LineEnd, e.spelling = [c] := by
  unfold isLineTerminator
  simp only [Bool.or_eq_true, decide_eq_true_eq]
  constructor
  · rintro (((rfl | rfl) | hc) | hc)
    · exact ⟨.lineFeed, rfl⟩
    · exact ⟨.carriageReturn, rfl⟩
    · exact ⟨.lineSeparator, congrArg (fun c => [c]) (Fin.ext hc.symm)⟩
    · exact ⟨.paragraphSeparator, congrArg (fun c => [c]) (Fin.ext hc.symm)⟩
  · rintro ⟨e, he⟩
    cases e with
    | both => simp [LineEnd.spelling] at he
    | lineFeed | carriageReturn | lineSeparator | paragraphSeparator =>
      rw [← List.singleton_inj.1 he]
      decide

theorem escaped_of_mem_controls {e : CodePoint × CodePoint} (he : e ∈ controls) :
    escaped e.1 = [e.2] := by
  have hall : controls.all (fun e => escaped e.1 = [e.2]) = true := by decide
  exact of_decide_eq_true (List.all_eq_true.1 hall e he)

theorem escaped_of_isOrdinary {c : CodePoint} (h : IsOrdinary c) : escaped c = [c] := by
  have hline : ¬ isLineTerminator c = true := by
    rw [isLineTerminator_iff]
    rintro ⟨e, he⟩
    exact h.not_lineEnd e he
  have hcontrol := h.not_control
  simp only [controls, List.map_cons, List.map_nil, List.mem_cons, List.not_mem_nil, or_false,
    not_or] at hcontrol
  obtain ⟨hn, hr, ht, hb, hf, hv, h0⟩ := hcontrol
  unfold escaped
  rw [if_neg hline, if_neg hn, if_neg hr, if_neg ht, if_neg hb, if_neg hf, if_neg hv, if_neg h0]

/-! ## One step of reading -/

/-- What an escape by number leaves is the end of what there was. -/
theorem suffix_of_readNumbered? {t value rest : Text}
    (h : readNumbered? t = some (value, rest)) : rest <:+ t := by
  have hmap : ∀ {digits : Text} {t : Text} {n : Nat},
      (hexNumber? digits).map (fun k => (numbered k, t.drop n)) = some (value, rest) →
        rest <:+ t := by
    intro digits t n h
    obtain ⟨k, -, hk⟩ := Option.map_eq_some_iff.1 h
    obtain rfl := (Prod.mk.inj hk).2
    exact List.drop_suffix n t
  cases t with
  | nil => exact absurd h nofun
  | cons c t =>
    refine List.IsSuffix.trans ?_ (List.suffix_cons c t)
    unfold readNumbered? at h
    dsimp only at h
    split at h
    case isFalse =>
      split_ifs at h
      exact hmap h
    case isTrue =>
      split at h
      case h_2 =>
        split_ifs at h
        exact hmap h
      case h_1 found hfound =>
        obtain rfl := Option.some.inj h
        cases t with
        | nil => cases hfound
        | cons brace t =>
          refine List.IsSuffix.trans ?_ (List.suffix_cons brace t)
          dsimp only at hfound
          split at hfound
          case isFalse => cases hfound
          case isTrue =>
            split at hfound
            case h_1 => cases hfound
            case h_2 => cases hfound
            case h_3 d ds close after _ hdrop =>
              have hafter : after <:+ t := (List.suffix_cons close after).trans
                (hdrop ▸ List.drop_suffix _ t)
              split_ifs at hfound
              · obtain rfl := (Prod.mk.inj (Option.some.inj hfound)).2
                exact hafter
              · obtain rfl := (Prod.mk.inj (Option.some.inj hfound)).2
                exact hafter

/-- What an escape leaves is the end of what there was. -/
theorem readEscape_suffix (t : Text) : (readEscape t).2 <:+ t := by
  unfold readEscape
  cases t with
  | nil => exact List.suffix_rfl
  | cons c t =>
    dsimp only
    split
    case h_1 found hfound => exact suffix_of_readNumbered? hfound
    case h_2 =>
      cases t with
      | nil => exact List.nil_suffix
      | cons d t =>
        dsimp only
        split_ifs
        · exact (List.suffix_cons d t).trans (List.suffix_cons c (d :: t))
        · exact List.suffix_cons c (d :: t)

theorem unescapeFrom_cons (n : Nat) (c : CodePoint) (t : Text) :
    unescapeFrom (n + 1) (c :: t)
      = if c = backslash then (readEscape t).1 ++ unescapeFrom n (readEscape t).2
        else c :: unescapeFrom n t := rfl

/-- The value does not depend on a number of steps that is large enough. -/
theorem unescapeFrom_of_length_le {m n : Nat} {t : Text} (hm : t.length ≤ m) (hn : t.length ≤ n) :
    unescapeFrom m t = unescapeFrom n t := by
  induction m generalizing n t with
  | zero =>
    obtain rfl := List.length_eq_zero_iff.1 (Nat.le_zero.1 hm)
    cases n <;> rfl
  | succ m ih =>
    cases t with
    | nil => cases n <;> rfl
    | cons c t =>
      cases n with
      | zero => exact absurd hn (Nat.not_succ_le_zero _)
      | succ n =>
        have hm := Nat.le_of_succ_le_succ hm
        have hn := Nat.le_of_succ_le_succ hn
        have hrest : (readEscape t).2.length ≤ t.length := (readEscape_suffix t).length_le
        rw [unescapeFrom_cons, unescapeFrom_cons, ih (hrest.trans hm) (hrest.trans hn), ih hm hn]

theorem unescape_cons {c : CodePoint} (hc : c ≠ backslash) (t : Text) :
    unescape (c :: t) = c :: unescape t := by
  unfold unescape
  rw [List.length_cons, unescapeFrom_cons, if_neg hc]

theorem unescape_backslash {t value rest : Text} (h : readEscape t = (value, rest)) :
    unescape (backslash :: t) = value ++ unescape rest := by
  have hlen : rest.length ≤ t.length := by
    have hsuffix := readEscape_suffix t
    rw [h] at hsuffix
    exact hsuffix.length_le
  unfold unescape
  rw [List.length_cons, unescapeFrom_cons, if_pos rfl, h]
  exact congrArg _ (unescapeFrom_of_length_le hlen le_rfl)

/-! ## Reading piece by piece -/

/-- A backslash and a line end are removed. -/
theorem readEscape_lineEnd (e : LineEnd) {rest : Text}
    (h : e = .carriageReturn → rest.head? ≠ some (CodePoint.ofChar '\n')) :
    readEscape (e.spelling ++ rest) = ([], rest) := by
  cases e with
  | both =>
    have hnumbered := readNumbered?_of_ne (c := '\r') (by decide) (by decide)
      (CodePoint.ofChar '\n' :: rest)
    unfold readEscape
    dsimp only [LineEnd.spelling, List.cons_append, List.nil_append]
    rw [hnumbered]
    dsimp only
    rw [if_pos ⟨rfl, rfl⟩]
  | carriageReturn =>
    exact readEscape_single (by decide) (by decide) fun _ => h rfl
  | lineFeed | lineSeparator | paragraphSeparator =>
    exact readEscape_single (by decide) (by decide) fun he => absurd he (by decide)

theorem readEscape_control {e : CodePoint × CodePoint} (he : e ∈ controls) (rest : Text) :
    readEscape (e.1 :: rest) = ([e.2], rest) := by
  have hletters : controls.all (fun e => e.1 ≠ 'u' ∧ e.1 ≠ 'x' ∧ e.1 ≠ '\r') = true := by decide
  obtain ⟨hu, hx, hr⟩ := of_decide_eq_true (List.all_eq_true.1 hletters e he)
  rw [readEscape_single hu hx fun h => absurd h hr, escaped_of_mem_controls he]

theorem readEscape_itself {c : CodePoint} (h : IsOrdinary c) (rest : Text) :
    readEscape (c :: rest) = ([c], rest) := by
  have hr : c ≠ '\r' := fun hc => h.not_lineEnd .carriageReturn (by rw [hc]; rfl)
  rw [readEscape_single h.ne_u h.ne_x fun hc => absurd hc hr, escaped_of_isOrdinary h]

/-- **One piece.** A piece is read for what it stands for, whatever follows it; only behind a
carriage return that is removed there must not be a line feed. -/
theorem unescape_piece (p : Piece) {rest : Text}
    (h : p = .lineEnd .carriageReturn → rest.head? ≠ some (CodePoint.ofChar '\n')) :
    unescape (p.spelling ++ rest) = p.value ++ unescape rest := by
  cases p with
  | raw c hc => exact unescape_cons hc rest
  | control e he => exact unescape_backslash (readEscape_control he rest)
  | itself c hc => exact unescape_backslash (readEscape_itself hc rest)
  | byte d₁ d₂ => exact unescape_backslash (readEscape_numbered (readNumbered?_byte d₁ d₂ rest))
  | unit d₁ d₂ d₃ d₄ =>
    exact unescape_backslash (readEscape_numbered (readNumbered?_unit d₁ d₂ d₃ d₄ rest))
  | braced d ds hd =>
    have hread := readEscape_numbered (readNumbered?_inBraces d ds rest)
    rw [if_pos hd] at hread
    exact unescape_backslash hread
  | tooLarge d ds hd =>
    have hread := readEscape_numbered (readNumbered?_inBraces d ds rest)
    rw [if_neg (Nat.not_le.2 hd)] at hread
    exact unescape_backslash hread
  | lineEnd e =>
    exact unescape_backslash (readEscape_lineEnd e fun he => h (congrArg _ he))

/-- A line feed begins what follows a piece only if a raw line feed follows it. -/
theorem head?_flatMap_spelling_ne {p : Piece} {ps : List Piece}
    (h : ∀ q ∈ ps.head?, Piece.MayPrecede p q) (hp : p = .lineEnd .carriageReturn) :
    (ps.flatMap Piece.spelling).head? ≠ some (CodePoint.ofChar '\n') := by
  subst hp
  cases ps with
  | nil => exact nofun
  | cons q ps =>
    have hq := h q rfl
    intro hhead
    cases q with
    | raw c hc => exact hq (Option.some.inj hhead)
    | control | itself | byte | unit | braced | tooLarge | lineEnd =>
      exact absurd (Option.some.inj hhead) (by decide)

theorem unescape_flatMap_spelling {ps : List Piece} (h : ps.IsChain Piece.MayPrecede) :
    unescape (ps.flatMap Piece.spelling) = ps.flatMap Piece.value := by
  induction ps with
  | nil => rfl
  | cons p ps ih =>
    obtain ⟨hhead, htail⟩ := List.isChain_cons.1 h
    rw [List.flatMap_cons, List.flatMap_cons, unescape_piece p (head?_flatMap_spelling_ne hhead),
      ih htail]

/-! ## Spellings of a text -/

/-- Raw text that spells a text in pieces. -/
def Spells (raw t : Text) : Prop :=
  ∃ ps : List Piece, ps.IsChain Piece.MayPrecede ∧ ps.flatMap Piece.spelling = raw
    ∧ ps.flatMap Piece.value = t

theorem isOrdinary_backslash : IsOrdinary backslash where
  ne_u := by decide
  ne_x := by decide
  not_lineEnd e := by cases e <;> decide
  not_control := by decide

/-- A text can be written as it is, with its backslashes doubled. -/
theorem exists_spells (t : Text) : ∃ raw, Spells raw t := by
  suffices hpieces : ∃ ps : List Piece, ps.IsChain Piece.MayPrecede
      ∧ ps.flatMap Piece.value = t by
    obtain ⟨ps, hchain, hvalue⟩ := hpieces
    exact ⟨_, ps, hchain, rfl, hvalue⟩
  induction t with
  | nil => exact ⟨[], .nil, rfl⟩
  | cons c t ih =>
    obtain ⟨ps, hchain, rfl⟩ := ih
    by_cases hc : c = backslash
    · subst hc
      exact ⟨.itself backslash isOrdinary_backslash :: ps,
        List.isChain_cons.2 ⟨fun _ _ => trivial, hchain⟩, rfl⟩
    · exact ⟨.raw c hc :: ps, List.isChain_cons.2 ⟨fun _ _ => trivial, hchain⟩, rfl⟩

/-- **Spellings.** A literal is read piece by piece, whichever pieces stand next to each other. So
every text, which can be spelled in some way, is recovered from each of its spellings. -/
theorem unescape_spelled (ps : List Piece) (h : ps.IsChain Piece.MayPrecede) :
    unescape (ps.flatMap Piece.spelling) = ps.flatMap Piece.value
      ∧ ∀ t, (∃ raw, Spells raw t) ∧ ∀ raw, Spells raw t → unescape raw = t := by
  refine ⟨unescape_flatMap_spelling h, fun t => ⟨exists_spells t, ?_⟩⟩
  rintro raw ⟨ps, hchain, rfl, rfl⟩
  exact unescape_flatMap_spelling hchain

/-- Pieces that touch: a backslash that was escaped before a `u`, a digit behind a number of two
digits and behind one in braces, a number that is too large, a digit behind a zero, and line ends
of each kind. -/
def touchingPieces : List Piece :=
  [.itself backslash isOrdinary_backslash, .raw 'u' (by decide),
    .byte ⟨4, false⟩ ⟨1, false⟩, .raw '2' (by decide),
    .unit ⟨0, false⟩ ⟨0, false⟩ ⟨4, false⟩ ⟨11, true⟩,
    .braced ⟨0, false⟩ [⟨0, false⟩, ⟨1, false⟩, ⟨15, false⟩, ⟨6, false⟩, ⟨0, false⟩, ⟨0, false⟩]
      (by decide),
    .raw '0' (by decide),
    .tooLarge ⟨1, false⟩ [⟨1, false⟩, ⟨0, false⟩, ⟨0, false⟩, ⟨0, false⟩, ⟨0, false⟩] (by decide),
    .control ('0', 0x00) (by decide), .raw '1' (by decide),
    .lineEnd .carriageReturn, .lineEnd .lineFeed, .raw '\n' (by decide), .lineEnd .both,
    .raw '\n' (by decide), .lineEnd .carriageReturn, .raw 'z' (by decide)]

theorem touchingPieces_isChain : touchingPieces.IsChain Piece.MayPrecede := by
  have hz : CodePoint.ofChar 'z' ≠ '\n' := by decide
  simp [touchingPieces, Piece.MayPrecede, hz]

theorem touchingPieces_spelled :
    touchingPieces.IsChain Piece.MayPrecede
      ∧ unescape (Text.ofString
          ("\\\\u\\x412\\u004B\\u\x7b001f600\x7d0\\u\x7b110000\x7d\\01"
            ++ "\\\r\\\n\n\\\r\n\n\\\rz"))
        = Text.ofString "\\uA2K😀0\\u\x7b110000\x7d\x001\n\nz" :=
  ⟨touchingPieces_isChain, (unescape_spelled touchingPieces touchingPieces_isChain).1⟩

end ImportClosure.Literal
