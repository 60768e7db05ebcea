import ImportClosure.Proofs.JsonTokens
import Mathlib.Data.List.Forall2
import Mathlib.Data.List.TakeWhile
/-!
JSON, written and read back.

A value is read back from its text wherever the text stands: after blanks, before anything that
could not be more of a number, and with as much fuel as the text is long (`ReadsAs`). Stated in this
way it passes from the items of a list to the list and from the values of an object to the object,
in every layout, since a layout only chooses the blanks between them. A value without
floating-point numbers is therefore read back, whatever its size and depth, with the pairs of
surrogates in its texts joined (`parse_print_joinPairs`), and as it was if its texts have bytes
(`parse_print`).
-/

namespace ImportClosure.Json

variable {layout : Layout} {depth fuel : Nat} {j j' item item' : Json} {items items' : List Json}
variable {fields fields' : List (Text × Json)} {c : CodePoint} {t blanks blanks' rest : Text}

/-! ## Blanks -/

theorem skipSpace_append (hblanks : ∀ c ∈ blanks, isSpace c = true) (hc : isSpace c = false) :
    skipSpace (blanks ++ c :: t) = c :: t := by
  unfold skipSpace
  rw [List.dropWhile_append_of_pos hblanks]
  exact List.dropWhile_cons_of_neg (by simp [hc])

theorem endsNumber_cons (hc : c.isDigit = false ∧ c ≠ '.' ∧ c ≠ 'e' ∧ c ≠ 'E') :
    EndsNumber (c :: t) := by
  rintro d ⟨⟩
  exact hc

theorem endsNumber_append (hblanks : ∀ c ∈ blanks, isSpace c = true) (ht : EndsNumber t) :
    EndsNumber (blanks ++ t) := by
  cases blanks with
  | nil => exact ht
  | cons b blanks =>
    have hb := hblanks b List.mem_cons_self
    unfold isSpace at hb
    simp only [Bool.or_eq_true, decide_eq_true_eq] at hb
    refine endsNumber_cons ?_
    rcases hb with ((rfl | rfl) | rfl) | rfl <;> decide

theorem skipSpace_cons (hc : isSpace c = false) : skipSpace (c :: t) = c :: t :=
  List.dropWhile_cons_of_neg (by simp [hc])

theorem isSpace_of_mem_lineBreak (h : c ∈ lineBreak layout depth) : isSpace c = true := by
  unfold lineBreak at h
  cases layout with
  | none => exact absurd h List.not_mem_nil
  | some width =>
    rcases List.mem_cons.1 h with rfl | h
    · decide
    · rw [List.eq_of_mem_replicate h]
      decide

/-- A separator is a comma and blanks. -/
theorem exists_separator (layout : Layout) (depth : Nat) : ∃ blanks,
    separator layout depth = (',' : CodePoint) :: blanks ∧ ∀ c ∈ blanks, isSpace c = true := by
  cases layout with
  | none => exact ⟨[' '], rfl, List.forall_mem_singleton.2 (by decide)⟩
  | some width => exact ⟨_, rfl, fun _ h => isSpace_of_mem_lineBreak h⟩

/-! ## Values -/

/-- Wherever the first value is written, the second one is read. -/
structure ReadsAs (layout : Layout) (j j' : Json) : Prop where
  /-- The text begins with no blank, and not as the end of a list. -/
  head : ∀ depth, ∃ d t, printAt layout depth j = d :: t ∧ isSpace d = false ∧ d ≠ ']'
  /-- With as much fuel as the text is long, it is read. -/
  read : ∀ {depth fuel : Nat} {blanks rest : Text}, (∀ c ∈ blanks, isSpace c = true) →
    (printAt layout depth j).length ≤ fuel → EndsNumber rest →
    readValue fuel (blanks ++ (printAt layout depth j ++ rest)) = some (j', rest)

/-- What begins like no text, list or object is a word or a number. -/
theorem readValue_plain (hblanks : ∀ c ∈ blanks, isSpace c = true) (hc : isSpace c = false)
    (hquote : c ≠ '"') (hbracket : c ≠ '[') (hbrace : c ≠ '\x7b') :
    readValue (fuel + 1) (blanks ++ c :: t) = readPlain (c :: t) := by
  conv_lhs => unfold readValue
  rw [skipSpace_append hblanks hc]
  dsimp only
  rw [if_neg hquote, if_neg hbracket, if_neg hbrace]

/-- A value is read so if it is a word or a number and is read as one. -/
theorem readsAs_of_plain {word : Text} {d : CodePoint}
    (hprint : ∀ depth, printAt layout depth j = d :: word)
    (hd : d.isDigit = true ∨ d = '-' ∨ d = 'n' ∨ d = 't' ∨ d = 'f')
    (hread : ∀ rest, EndsNumber rest → readPlain (d :: (word ++ rest)) = some (j', rest)) :
    ReadsAs layout j j' := by
  have hne : ∀ e : CodePoint, e.isDigit = false → e ∉ [('-' : CodePoint), 'n', 't', 'f'] →
      d ≠ e := by
    rintro e he hmem rfl
    rcases hd with hd | rfl | rfl | rfl | rfl
    · rw [he] at hd
      cases hd
    all_goals exact hmem (by decide)
  have hspace : isSpace d = false := by
    unfold isSpace
    simp only [Bool.or_eq_false_iff, decide_eq_false_iff_not]
    refine ⟨⟨⟨?_, ?_⟩, ?_⟩, ?_⟩ <;> exact hne _ (by decide) (by decide)
  refine ⟨fun depth => ⟨d, word, hprint depth, hspace, hne _ (by decide) (by decide)⟩, ?_⟩
  intro depth fuel blanks rest hblanks hfuel hrest
  rw [hprint, List.length_cons] at hfuel
  obtain ⟨fuel, rfl⟩ := Nat.exists_eq_add_of_le' (show 1 ≤ fuel by omega)
  rw [hprint, List.cons_append, readValue_plain hblanks hspace (hne _ (by decide) (by decide))
    (hne _ (by decide) (by decide)) (hne _ (by decide) (by decide))]
  exact hread rest hrest

theorem readsAs_null : ReadsAs layout null null :=
  readsAs_of_plain (fun _ => rfl) (by decide) fun _ _ => rfl

theorem readsAs_bool (b : Bool) : ReadsAs layout (bool b) (bool b) := by
  cases b <;> exact readsAs_of_plain (fun _ => rfl) (by decide) fun _ _ => rfl

theorem readsAs_int (i : Int) : ReadsAs layout (int i) (int i) := by
  obtain ⟨d, ds, hds, hd⟩ := exists_ofInt_cons i
  refine readsAs_of_plain (fun _ => hds) (hd.imp_right Or.inl) fun rest hrest => ?_
  have hread := readPlain_ofInt i hrest
  rwa [hds] at hread

/-- A text is read with its pairs of surrogates joined. -/
theorem readsAs_text (t : Text) : ReadsAs layout (text t) (text t.joinPairs) := by
  have hprint : ∀ rest, printText t ++ rest
      = ('"' : CodePoint) :: (t.flatMap escapeCodePoint ++ ('"' : CodePoint) :: rest) := by
    intro rest
    unfold printText
    rw [List.cons_append, List.append_assoc]
    rfl
  refine ⟨fun depth => ⟨'"', _, rfl, by decide, by decide⟩, ?_⟩
  intro depth fuel blanks rest hblanks hfuel _
  have htext : printAt layout depth (text t) = printText t := rfl
  have hlength : 1 ≤ (printText t).length := by
    unfold printText
    rw [List.length_cons]
    omega
  rw [htext] at hfuel ⊢
  obtain ⟨fuel, rfl⟩ := Nat.exists_eq_add_of_le' (Nat.le_trans hlength hfuel)
  rw [hprint]
  conv_lhs => unfold readValue
  rw [skipSpace_append hblanks (by decide)]
  dsimp only
  rw [if_pos rfl, readText_printText]
  rfl

/-! ## Lists -/

/-- After an item the list goes on or ends. -/
theorem readItems_step {done : List Json} {rest' : Text} (hread : readValue fuel t = some (j, rest))
    (hspace : skipSpace rest = c :: rest') :
    readItems (fuel + 1) done t =
      if c = ',' then readItems fuel (j :: done) rest'
      else if c = ']' then some (list (j :: done).reverse, rest') else none := by
  conv_lhs => unfold readItems
  rw [hread]
  dsimp only
  rw [hspace]

theorem readItems_printItems (hitems : List.Forall₂ (ReadsAs layout) items items')
    (hitem : ReadsAs layout item item') (hblanks : ∀ c ∈ blanks, isSpace c = true)
    (hblanks' : ∀ c ∈ blanks', isSpace c = true) {done : List Json}
    (hfuel : (printAt layout depth item).length + (printItems layout depth items).length < fuel) :
    readItems fuel done (blanks ++ (printAt layout depth item ++ (printItems layout depth items
        ++ (blanks' ++ (']' : CodePoint) :: rest))))
      = some (list (done.reverse ++ item' :: items'), rest) := by
  induction hitems generalizing fuel done item item' blanks with
  | nil =>
    obtain ⟨fuel, rfl⟩ := Nat.exists_eq_add_of_le' (show 1 ≤ fuel by omega)
    have hnil : printItems layout depth [] = [] := rfl
    rw [hnil, List.nil_append, readItems_step (hitem.read hblanks (by omega)
      (endsNumber_append hblanks' (endsNumber_cons (by decide))))
      (skipSpace_append hblanks' (by decide)), if_neg (by decide), if_pos rfl, List.reverse_cons]
  | @cons next next' items items' hnext hitems ih =>
    obtain ⟨fuel, rfl⟩ := Nat.exists_eq_add_of_le' (show 1 ≤ fuel by omega)
    obtain ⟨gap, hgap, hgapBlanks⟩ := exists_separator layout depth
    have hcons : printItems layout depth (next :: items)
        = (',' : CodePoint) :: (gap ++ (printAt layout depth next
          ++ printItems layout depth items)) := by
      conv_lhs => unfold printItems
      rw [hgap, List.append_assoc, List.cons_append]
    rw [hcons] at hfuel ⊢
    simp only [List.length_cons, List.length_append] at hfuel
    rw [List.cons_append, readItems_step (hitem.read hblanks (by omega)
      (endsNumber_cons (by decide))) (skipSpace_cons (by decide)), if_pos rfl,
      List.append_assoc, List.append_assoc, ih hnext hgapBlanks (by omega), List.reverse_cons,
      List.append_assoc]
    rfl

/-- A list is read item by item. -/
theorem readsAs_list (h : List.Forall₂ (ReadsAs layout) items items') :
    ReadsAs layout (list items) (list items') := by
  cases h with
  | nil =>
    refine ⟨fun depth => ⟨'[', _, rfl, by decide, by decide⟩, ?_⟩
    intro depth fuel blanks rest hblanks hfuel _
    obtain ⟨fuel, rfl⟩ := Nat.exists_eq_add_of_le' (Nat.le_trans (Nat.succ_pos _) hfuel)
    have hprint : printAt layout depth (list []) ++ rest
        = ('[' : CodePoint) :: (']' : CodePoint) :: rest := rfl
    rw [hprint]
    unfold readValue
    rw [skipSpace_append hblanks (by decide)]
    rfl
  | @cons item item' items items' hitem hitems =>
    have hprint : ∀ depth, printAt layout depth (list (item :: items))
        = ('[' : CodePoint) :: (lineBreak layout (depth + 1) ++ (printAt layout (depth + 1) item
          ++ (printItems layout (depth + 1) items
            ++ (lineBreak layout depth ++ [(']' : CodePoint)])))) := by
      intro depth
      conv_lhs => unfold printAt
      simp only [List.append_assoc]
    refine ⟨fun depth => ⟨'[', _, hprint depth, by decide, by decide⟩, ?_⟩
    intro depth fuel blanks rest hblanks hfuel _
    obtain ⟨d, t, hd, hspace, hne⟩ := hitem.head (depth + 1)
    rw [hprint] at hfuel ⊢
    simp only [List.length_cons, List.length_append] at hfuel
    obtain ⟨fuel, rfl⟩ := Nat.exists_eq_add_of_le' (show 1 ≤ fuel by omega)
    have hread : readItems fuel [] ([] ++ (printAt layout (depth + 1) item
        ++ (printItems layout (depth + 1) items
          ++ (lineBreak layout depth ++ (']' : CodePoint) :: rest))))
        = some (list (item' :: items'), rest) :=
      readItems_printItems hitems hitem (List.forall_mem_nil _)
        (fun c hc => isSpace_of_mem_lineBreak hc) (by omega)
    rw [hd] at hread ⊢
    conv_lhs => unfold readValue
    simp only [List.cons_append, List.append_assoc, List.nil_append] at hread ⊢
    rw [skipSpace_append hblanks (by decide)]
    dsimp only
    rw [if_neg (by decide), if_pos rfl,
      skipSpace_append (fun c hc => isSpace_of_mem_lineBreak hc) hspace]
    dsimp only
    rw [if_neg hne]
    exact hread

/-! ## Objects -/

/-- Wherever the first field is written, the second one is read. -/
structure FieldReadsAs (layout : Layout) (f f' : Text × Json) : Prop where
  name : f'.1 = f.1.joinPairs
  value : ReadsAs layout f.2 f'.2

/-- A field as it is written. -/
def printField (layout : Layout) (depth : Nat) (f : Text × Json) : Text :=
  printText f.1 ++ (':' : CodePoint) :: (' ' : CodePoint) :: printAt layout depth f.2

variable {f f' : Text × Json}

/-- After a field the object goes on or ends. -/
theorem readFields_step {done : List (Text × Json)} {rest' : Text} (h : FieldReadsAs layout f f')
    (hblanks : ∀ c ∈ blanks, isSpace c = true) (hfuel : (printField layout depth f).length ≤ fuel)
    (hrest : EndsNumber rest) (hspace : skipSpace rest = c :: rest') :
    readFields (fuel + 1) done (blanks ++ (printField layout depth f ++ rest)) =
      if c = ',' then readFields fuel (f' :: done) rest'
      else if c = '}' then some (object (f' :: done).reverse, rest') else none := by
  obtain ⟨name', value'⟩ := f'
  obtain ⟨hname, hvalue⟩ := h
  obtain rfl : name' = f.1.joinPairs := hname
  have htext : printField layout depth f ++ rest
      = ('"' : CodePoint) :: (f.1.flatMap escapeCodePoint ++ ('"' : CodePoint)
        :: (':' : CodePoint) :: ([(' ' : CodePoint)] ++ (printAt layout depth f.2 ++ rest))) := by
    unfold printField printText
    simp
  unfold printField at hfuel
  simp only [List.length_append, List.length_cons] at hfuel
  have hread : readValue fuel ([(' ' : CodePoint)] ++ (printAt layout depth f.2 ++ rest))
      = some (value', rest) :=
    hvalue.read (List.forall_mem_singleton.2 (by decide)) (by omega) hrest
  rw [htext]
  conv_lhs => unfold readFields
  rw [skipSpace_append hblanks (by decide)]
  dsimp only
  rw [if_pos rfl, readText_printText]
  dsimp only
  rw [skipSpace_cons (by decide)]
  dsimp only
  rw [if_pos rfl, hread]
  dsimp only
  rw [hspace]

theorem readFields_printFields (hfields : List.Forall₂ (FieldReadsAs layout) fields fields')
    (hfield : FieldReadsAs layout f f') (hblanks : ∀ c ∈ blanks, isSpace c = true)
    (hblanks' : ∀ c ∈ blanks', isSpace c = true) {done : List (Text × Json)}
    (hfuel : (printField layout depth f).length + (printFields layout depth fields).length < fuel) :
    readFields fuel done (blanks ++ (printField layout depth f
        ++ (printFields layout depth fields ++ (blanks' ++ ('}' : CodePoint) :: rest))))
      = some (object (done.reverse ++ f' :: fields'), rest) := by
  induction hfields generalizing fuel done f f' blanks with
  | nil =>
    obtain ⟨fuel, rfl⟩ := Nat.exists_eq_add_of_le' (show 1 ≤ fuel by omega)
    have hnil : printFields layout depth [] = [] := rfl
    rw [hnil, List.nil_append, readFields_step hfield hblanks (by omega)
      (endsNumber_append hblanks' (endsNumber_cons (by decide)))
      (skipSpace_append hblanks' (by decide)), if_neg (by decide), if_pos rfl, List.reverse_cons]
  | @cons next next' fields fields' hnext hfields ih =>
    obtain ⟨fuel, rfl⟩ := Nat.exists_eq_add_of_le' (show 1 ≤ fuel by omega)
    obtain ⟨gap, hgap, hgapBlanks⟩ := exists_separator layout depth
    have hcons : printFields layout depth (next :: fields)
        = (',' : CodePoint) :: (gap ++ (printField layout depth next
          ++ printFields layout depth fields)) := by
      conv_lhs => unfold printFields
      rw [hgap]
      unfold printField
      simp
    rw [hcons] at hfuel ⊢
    simp only [List.length_cons, List.length_append] at hfuel
    rw [List.cons_append, readFields_step hfield hblanks (by omega)
      (endsNumber_cons (by decide)) (skipSpace_cons (by decide)), if_pos rfl,
      List.append_assoc, List.append_assoc, ih hnext hgapBlanks (by omega), List.reverse_cons,
      List.append_assoc]
    rfl

/-- An object is read field by field. -/
theorem readsAs_object (h : List.Forall₂ (FieldReadsAs layout) fields fields') :
    ReadsAs layout (object fields) (object fields') := by
  cases h with
  | nil =>
    refine ⟨fun depth => ⟨'\x7b', _, rfl, by decide, by decide⟩, ?_⟩
    intro depth fuel blanks rest hblanks hfuel _
    obtain ⟨fuel, rfl⟩ := Nat.exists_eq_add_of_le' (Nat.le_trans (Nat.succ_pos _) hfuel)
    have hprint : printAt layout depth (object []) ++ rest
        = ('\x7b' : CodePoint) :: ('}' : CodePoint) :: rest := rfl
    rw [hprint]
    unfold readValue
    rw [skipSpace_append hblanks (by decide)]
    rfl
  | @cons f f' fields fields' hfield hfields =>
    have hprint : ∀ depth, printAt layout depth (object (f :: fields))
        = ('\x7b' : CodePoint) :: (lineBreak layout (depth + 1) ++ (printField layout (depth + 1) f
          ++ (printFields layout (depth + 1) fields
            ++ (lineBreak layout depth ++ [('}' : CodePoint)])))) := by
      intro depth
      conv_lhs => unfold printAt
      unfold printField
      simp
    refine ⟨fun depth => ⟨'\x7b', _, hprint depth, by decide, by decide⟩, ?_⟩
    intro depth fuel blanks rest hblanks hfuel _
    have hquote : ∃ t, printField layout (depth + 1) f = ('"' : CodePoint) :: t := ⟨_, rfl⟩
    obtain ⟨t, ht⟩ := hquote
    rw [hprint] at hfuel ⊢
    simp only [List.length_cons, List.length_append] at hfuel
    obtain ⟨fuel, rfl⟩ := Nat.exists_eq_add_of_le' (show 1 ≤ fuel by omega)
    have hread : readFields fuel [] ([] ++ (printField layout (depth + 1) f
        ++ (printFields layout (depth + 1) fields
          ++ (lineBreak layout depth ++ ('}' : CodePoint) :: rest))))
        = some (object (f' :: fields'), rest) :=
      readFields_printFields hfields hfield (List.forall_mem_nil _)
        (fun c hc => isSpace_of_mem_lineBreak hc) (by omega)
    rw [ht] at hread ⊢
    conv_lhs => unfold readValue
    simp only [List.cons_append, List.append_assoc, List.nil_append] at hread ⊢
    rw [skipSpace_append hblanks (by decide)]
    dsimp only
    rw [if_neg (by decide), if_neg (by decide), if_pos rfl,
      skipSpace_append (fun c hc => isSpace_of_mem_lineBreak hc) (by decide)]
    dsimp only
    rw [if_neg (by decide)]
    exact hread

/-! ## Whole texts -/

/-- A value is read from its text, blanks after it apart. -/
theorem parse_append (h : ReadsAs layout j j') (hblanks : ∀ c ∈ blanks, isSpace c = true) :
    parse (print layout j ++ blanks) = some j' := by
  have hends : EndsNumber (blanks ++ []) := endsNumber_append hblanks nofun
  rw [List.append_nil] at hends
  have hfuel : (print layout j).length ≤ (print layout j ++ blanks).length + 1 := by
    rw [List.length_append]
    omega
  have hread : readValue ((print layout j ++ blanks).length + 1) ([] ++ (print layout j ++ blanks))
      = some (j', blanks) :=
    h.read (List.forall_mem_nil _) hfuel hends
  have hskip : skipSpace blanks = [] := List.dropWhile_eq_nil_iff.2 hblanks
  unfold parse
  rw [List.nil_append] at hread
  rw [hread]
  dsimp only
  rw [if_pos hskip]

/-! ## Values without floating-point numbers -/

mutual

/-- The value with its texts mapped; the names of the fields and the order of everything are
kept. -/
def mapTexts (f : Text → Text) : Json → Json
  | null => null
  | bool b => bool b
  | int i => int i
  | float x => float x
  | text t => text (f t)
  | list items => list (mapItems f items)
  | object fields => object (mapFields f fields)

/-- The items of a list with their texts mapped. -/
def mapItems (f : Text → Text) : List Json → List Json
  | [] => []
  | item :: items => mapTexts f item :: mapItems f items

/-- The fields of an object with the texts of their values mapped. -/
def mapFields (f : Text → Text) : List (Text × Json) → List (Text × Json)
  | [] => []
  | field :: fields => (field.1, mapTexts f field.2) :: mapFields f fields

end

theorem mapTexts_list (f : Text → Text) (items : List Json) :
    (list items).mapTexts f = list (items.map (mapTexts f)) := by
  have hitems : mapItems f items = items.map (mapTexts f) := by
    induction items with
    | nil => rfl
    | cons item items ih => rw [mapItems, ih, List.map_cons]
  rw [mapTexts, hitems]

theorem mapTexts_object (f : Text → Text) (fields : List (Text × Json)) :
    (object fields).mapTexts f
      = object (fields.map fun field => (field.1, field.2.mapTexts f)) := by
  have hfields : mapFields f fields = fields.map fun field => (field.1, field.2.mapTexts f) := by
    induction fields with
    | nil => rfl
    | cons field fields ih => rw [mapFields, ih, List.map_cons]
  rw [mapTexts, hfields]

/-- A value without floating-point numbers, with names that have bytes and such texts. -/
inductive IsPlain (p : Text → Prop) : Json → Prop
  | null : IsPlain p null
  | bool (b : Bool) : IsPlain p (bool b)
  | int (i : Int) : IsPlain p (int i)
  | text {t : Text} (h : p t) : IsPlain p (text t)
  | list {items : List Json} (h : ∀ j ∈ items, IsPlain p j) : IsPlain p (list items)
  | object {fields : List (Text × Json)} (hnames : ∀ f ∈ fields, f.1.IsEncodable)
      (hvalues : ∀ f ∈ fields, IsPlain p f.2) : IsPlain p (object fields)

variable {p : Text → Prop}

theorem IsPlain.readsAs (h : j.IsPlain p) (layout : Layout) :
    ReadsAs layout j (j.mapTexts Text.joinPairs) := by
  induction h with
  | null => exact readsAs_null
  | bool b => exact readsAs_bool b
  | int i => exact readsAs_int i
  | text _ => exact readsAs_text _
  | list _ ih =>
    rw [mapTexts_list]
    exact readsAs_list (List.forall₂_map_right_iff.2 (List.forall₂_same.2 ih))
  | object hnames _ ih =>
    rw [mapTexts_object]
    refine readsAs_object (List.forall₂_map_right_iff.2 (List.forall₂_same.2 fun f hf => ?_))
    exact ⟨(Text.joinPairs_of_isEncodable (hnames f hf)).symm, ih f hf⟩

theorem IsPlain.mapTexts_eq_self (h : j.IsPlain p) {f : Text → Text} (hf : ∀ t, p t → f t = t) :
    j.mapTexts f = j := by
  induction h with
  | null => rfl
  | bool b => rfl
  | int i => rfl
  | text ht => exact congrArg Json.text (hf _ ht)
  | list _ ih => rw [mapTexts_list, List.map_congr_left ih, List.map_id']
  | @object fields _ _ ih =>
    have hfields : ∀ field ∈ fields, (field.1, field.2.mapTexts f) = field :=
      fun field hfield => Prod.ext rfl (ih field hfield)
    rw [mapTexts_object, List.map_congr_left hfields, List.map_id']

/-- **Round trip.** A value without floating-point numbers is read back from its text in every
layout, with blanks after it or without: the pairs of surrogates in its texts are joined. -/
theorem parse_print_joinPairs (h : j.IsPlain p) (layout : Layout)
    (hblanks : ∀ c ∈ blanks, isSpace c = true) :
    parse (print layout j ++ blanks) = some (j.mapTexts Text.joinPairs) :=
  parse_append (h.readsAs layout) hblanks

/-- Texts that have bytes are read back as they were. -/
theorem parse_print (h : j.IsPlain Text.IsEncodable) (layout : Layout)
    (hblanks : ∀ c ∈ blanks, isSpace c = true) : parse (print layout j ++ blanks) = some j := by
  rw [parse_print_joinPairs h layout hblanks,
    h.mapTexts_eq_self fun _ => Text.joinPairs_of_isEncodable]

end ImportClosure.Json
