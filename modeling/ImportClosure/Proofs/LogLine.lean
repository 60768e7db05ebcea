import ImportClosure.Log.Line
import ImportClosure.Proofs.OrderedMap
import ImportClosure.Proofs.PrintedText
import ImportClosure.Proofs.SurrogatePairs
/-!
A log record as a line.

In a log file a record is one JSON object. Whatever its message, its exception and its further
fields say, the object is written in printable ASCII, on one line (`isPrintable_fileLine`), and it
is read back (`exists_told`): its fields are those of the record itself, but a further field takes
the place of one that has its name, and in a name as in a value the pairs of surrogates are joined.

The names of the record's own fields are spelled in ASCII, so that no other text becomes one of them
when pairs are joined. Two further fields may get one name in this way. Both stand on the line, and
the later one is the one that is found.
-/

namespace ImportClosure

namespace Json

variable {fields fields' : List (Text × Json)} {f : Text × Json} {name : Text}

/-! ## Fields by name -/

/-- A field with the pairs of surrogates joined in its name and in its value. -/
def joinField (f : Text × Json) : Text × Json := (f.1.joinPairs, f.2.mapTexts Text.joinPairs)

/-- The fields that come later are looked up first. -/
theorem field?_object_append :
    (object (fields ++ fields')).field? name
      = ((object fields').field? name).or ((object fields).field? name) := by
  dsimp only [field?]
  rw [List.reverse_append, List.find?_append, Option.map_or]

/-- Where no name stands twice, it does not matter which one is looked up first. -/
theorem field?_object (h : (fields.map Prod.fst).Nodup) :
    (object fields).field? name = Entries.lookup name fields := by
  induction fields with
  | nil => rfl
  | cons f fields ih =>
    obtain ⟨name', value⟩ := f
    rw [List.map_cons, List.nodup_cons] at h
    have hone : (object [(name', value)]).field? name
        = if name' = name then some value else none := by
      by_cases hname : name' = name <;> simp [field?, hname]
    rw [← List.singleton_append, field?_object_append, ih h.2, hone, List.singleton_append,
      Entries.lookup]
    by_cases hname : name' = name
    · subst hname
      rw [if_pos rfl, if_pos rfl, Entries.lookup_eq_none_iff.2 h.1]
      rfl
    · rw [if_neg hname, if_neg hname, Option.or_none]

theorem field?_map_joinField : (object (fields.map joinField)).field? name
    = (fields.reverse.find? fun f => f.1.joinPairs = name).map fun f =>
      f.2.mapTexts Text.joinPairs := by
  dsimp only [field?]
  rw [← List.map_reverse, List.find?_map, Option.map_map]
  rfl

/-- A field is found that has a name which comes of no other one. -/
theorem field?_map_joinField_of_plain (h : (fields.map Prod.fst).Nodup)
    (hname : ∀ c ∈ name, c.val < 0xD800) : (object (fields.map joinField)).field? name
      = (Entries.lookup name fields).map (mapTexts Text.joinPairs) := by
  have hplain : (fun f : Text × Json => decide (f.1.joinPairs = name))
      = fun f => decide (f.1 = name) := by
    funext f
    exact decide_eq_decide.2 (Text.joinPairs_eq_iff hname)
  rw [field?_map_joinField, hplain, ← field?_object h]
  dsimp only [field?]
  rw [Option.map_map]
  rfl

theorem field?_map_joinField_eq_none (h : ∀ f ∈ fields, f.1.joinPairs ≠ name) :
    (object (fields.map joinField)).field? name = none := by
  rw [field?_map_joinField, Option.map_eq_none_iff, List.find?_eq_none]
  intro f hf hjoin
  exact h f (List.mem_reverse.1 hf) (of_decide_eq_true hjoin)

/-- Fields that do not get this name may be left out. -/
theorem field?_map_joinField_filter {p : Text × Json → Bool}
    (h : ∀ f : Text × Json, f.1.joinPairs = name → p f = true) :
    (object ((fields.filter p).map joinField)).field? name
      = (object (fields.map joinField)).field? name := by
  rw [field?_map_joinField, field?_map_joinField, ← List.filter_reverse, List.find?_filter]
  refine congrArg (fun q => Option.map _ (List.find? q _)) (funext fun f => ?_)
  rw [decide_eq_decide, decide_eq_true_eq, and_iff_right_iff_imp]
  exact h f

/-! ## Objects whose values are texts -/

/-- The object is written on one line, in printable ASCII. -/
theorem isPrintable_object (h : ∀ f ∈ fields, ∃ t, f.2 = text t) :
    (print none (object fields)).IsPrintable := by
  refine (isWritten_object (fun f hf depth => ?_) 0).isPrintable
  obtain ⟨t, ht⟩ := h f hf
  rw [ht]
  exact isWritten_of_isPrintable none (isPrintable_printText t)

/-- The object is read back field by field, whatever the names are. -/
theorem parse_object {layout : Layout} (h : ∀ f ∈ fields, ∃ t, f.2 = text t) :
    parse (print layout (object fields)) = some (object (fields.map joinField)) := by
  have hfields : ∀ f ∈ fields, FieldReadsAs layout f (joinField f) := by
    intro f hf
    obtain ⟨name, value⟩ := f
    obtain ⟨t, rfl⟩ := h _ hf
    exact ⟨rfl, readsAs_text t⟩
  have hread := readsAs_object
    (List.forall₂_map_right_iff.2 (List.forall₂_same.2 hfields))
  rw [← parse_append hread (List.forall_mem_nil _), List.append_nil]

end Json

namespace LogRecord

variable {now : Moment} {r : LogRecord} {f : Text × Json} {name : Text}

/-! ## The fields of a record -/

/-- The fields that a record has of itself. -/
def ownFields (now : Moment) (r : LogRecord) : List (Text × Text) :=
  let always : List (Text × Text) :=
    [("timestamp", timestamp now), ("level", LogLevel.name r.level), ("logger", r.source),
      ("message", r.message)]
  always ++ (r.exception.map fun e => (Text.ofString "exception", e)).toList

/-- The names that such a field may have. -/
def ownNames : List Text := ["timestamp", "level", "logger", "message", "exception"]

/-- The further fields are texts by name. -/
structure HasTextFields (r : LogRecord) : Prop where
  /-- No name stands twice. -/
  nodup : (r.extra.map Prod.fst).Nodup
  /-- Each value is a text. -/
  text : ∀ f ∈ r.extra, ∃ t, f.2 = .text t

/-- The own fields as they are written. -/
def ownJson (now : Moment) (r : LogRecord) : List (Text × Json) :=
  (r.ownFields now).map fun f => (f.1, .text f.2)

theorem sublist_ownNames (now : Moment) (r : LogRecord) :
    List.Sublist ((r.ownJson now).map Prod.fst) ownNames := by
  unfold ownJson ownFields
  cases r.exception with
  | none => exact List.sublist_append_left _ [Text.ofString "exception"]
  | some e => exact List.Sublist.refl _

theorem nodup_ownJson (now : Moment) (r : LogRecord) : ((r.ownJson now).map Prod.fst).Nodup :=
  (sublist_ownNames now r).nodup (by decide)

/-- The names of the own fields are spelled in ASCII. -/
theorem lt_of_mem_ownName (hname : name ∈ (r.ownJson now).map Prod.fst) :
    ∀ c ∈ name, c.val < 0xD800 := by
  have hascii : ∀ name ∈ ownNames, Text.IsAscii name := by decide
  intro c hc
  exact (hascii name ((sublist_ownNames now r).subset hname) c hc).trans (by decide)

/-- The own fields come first, and the further ones are put to them one by one. -/
theorem fields_eq (now : Moment) (r : LogRecord) :
    r.fields now = r.extra.foldl (fun m f => m.insert f.1 f.2) (.ofList (r.ownJson now)) := by
  unfold fields ownJson ownFields OrderedMap.ofList
  cases r.exception <;> rw [List.foldl_append] <;> rfl

theorem entries_ownJson (now : Moment) (r : LogRecord) :
    (OrderedMap.ofList (r.ownJson now)).entries = r.ownJson now := by
  have hempty : ((∅ : OrderedMap Text Json).keys ++ (r.ownJson now).map Prod.fst).Nodup :=
    nodup_ownJson now r
  exact OrderedMap.entries_foldl_insert hempty

/-- **The fields of a record.** The own fields are in their places, with the value of the further
field that has their name, if there is one, and the other further fields come after them. -/
theorem entries_fields (hr : r.HasTextFields) : (r.fields now).entries
    = (r.ownJson now).map (fun f => (f.1, (Entries.lookup f.1 r.extra).getD f.2))
      ++ r.extra.filter fun f => f.1 ∉ (r.ownJson now).map Prod.fst := by
  rw [fields_eq, OrderedMap.entries_foldl_insert_eq hr.nodup, OrderedMap.keys, entries_ownJson]
  -- the two sides only differ in how it is decided what is a member
  congr!

theorem get?_fields (hr : r.HasTextFields) (name : Text) : (r.fields now).get? name
    = (Entries.lookup name r.extra).or (Entries.lookup name (r.ownJson now)) := by
  rw [fields_eq, OrderedMap.get?_foldl_insert hr.nodup]
  unfold OrderedMap.get?
  rw [entries_ownJson]

/-- All values are texts. -/
theorem text_of_mem_fields (hr : r.HasTextFields) (hf : f ∈ (r.fields now).entries) :
    ∃ t, f.2 = .text t := by
  obtain ⟨name, value⟩ := f
  have hget := OrderedMap.get?_eq_some_iff.2 hf
  -- it is the value of a further field, or else of an own one
  rw [get?_fields hr, Option.or_eq_some_iff] at hget
  rcases hget with hextra | ⟨-, hown⟩
  · exact hr.text _ ((Entries.lookup_eq_some_iff hr.nodup).1 hextra)
  · obtain ⟨f, -, hf⟩ := List.mem_map.1 ((Entries.lookup_eq_some_iff (nodup_ownJson now r)).1 hown)
    exact ⟨f.2, (congrArg Prod.snd hf).symm⟩

/-! ## The line -/

/-- **One line.** A record is written in printable ASCII. -/
theorem isPrintable_fileLine (hr : r.HasTextFields) : (r.fileLine now).IsPrintable :=
  Json.isPrintable_object fun _ => text_of_mem_fields hr

/-- The fields are what a record says. -/
structure IsToldBy (now : Moment) (r : LogRecord) (fields : List (Text × Json)) : Prop where
  /-- Under any name there is the further field of this name, or else the own one. -/
  merged : ∀ name, (Json.object fields).field? name
    = ((Json.object (r.extra.map Json.joinField)).field? name).or
      ((Json.object ((r.ownJson now).map Json.joinField)).field? name)
  /-- An own field is found under its name, unless a further field has this name. -/
  own : ∀ f ∈ r.ownFields now, f.1 ∉ r.extra.map Prod.fst →
    (Json.object fields).field? f.1 = some (.text f.2.joinPairs)
  /-- No further field is left out. -/
  extra : ∀ f ∈ r.extra, Json.joinField f ∈ fields

/-- An own name becomes no other name when pairs are joined. -/
theorem joinPairs_ne_of_ownName {own : Text} (hown : own ∈ (r.ownJson now).map Prod.fst)
    (hname : name ∉ (r.ownJson now).map Prod.fst) : own.joinPairs ≠ name := by
  rw [(Text.joinPairs_eq_iff (lt_of_mem_ownName hown)).2 rfl]
  rintro rfl
  exact hname hown

theorem field?_fields (hr : r.HasTextFields) (name : Text) :
    (Json.object ((r.fields now).entries.map Json.joinField)).field? name
      = ((Json.object (r.extra.map Json.joinField)).field? name).or
        ((Json.object ((r.ownJson now).map Json.joinField)).field? name) := by
  by_cases hname : name ∈ (r.ownJson now).map Prod.fst
  · -- the name comes of no other one, so it is looked up in the record as it is
    have hplain := lt_of_mem_ownName hname
    rw [Json.field?_map_joinField_of_plain (r.fields now).nodup hplain,
      Json.field?_map_joinField_of_plain hr.nodup hplain,
      Json.field?_map_joinField_of_plain (nodup_ownJson now r) hplain, ← Option.map_or]
    exact congrArg _ (get?_fields hr name)
  · -- an own field has no other name, and a further field that gets this one has no own one
    have hown : ∀ f ∈ r.ownJson now, f.1.joinPairs ≠ name := fun f hf =>
      joinPairs_ne_of_ownName (List.mem_map_of_mem hf) hname
    have hreplaced : ∀ f ∈ (r.ownJson now).map fun f =>
        (f.1, (Entries.lookup f.1 r.extra).getD f.2), f.1.joinPairs ≠ name := by
      intro f hf
      obtain ⟨e, he, rfl⟩ := List.mem_map.1 hf
      exact hown e he
    have hextra : ∀ f : Text × Json, f.1.joinPairs = name →
        decide (f.1 ∉ (r.ownJson now).map Prod.fst) = true := fun f hjoin =>
      decide_eq_true fun hmem => joinPairs_ne_of_ownName hmem hname hjoin
    rw [entries_fields hr, List.map_append, Json.field?_object_append,
      Json.field?_map_joinField_filter hextra, Json.field?_map_joinField_eq_none hreplaced,
      Json.field?_map_joinField_eq_none hown]

/-- **Read back.** The line of a record is an object that has the fields of the record. -/
theorem exists_told (hr : r.HasTextFields) :
    ∃ fields, Json.parse (r.fileLine now) = some (.object fields) ∧ r.IsToldBy now fields := by
  refine ⟨_, Json.parse_object fun _ => text_of_mem_fields hr, field?_fields hr, ?_, ?_⟩
  · -- the map has the own value, and no other name becomes this one
    intro f hf hextra
    have hown : (f.1, Json.text f.2) ∈ r.ownJson now := List.mem_map_of_mem hf
    have hplain := lt_of_mem_ownName (List.mem_map_of_mem hown)
    have hget : (r.fields now).get? f.1 = some (.text f.2) := by
      rw [get?_fields hr, Entries.lookup_eq_none_iff.2 hextra]
      exact (Entries.lookup_eq_some_iff (nodup_ownJson now r)).2 hown
    rw [Json.field?_map_joinField_of_plain (r.fields now).nodup hplain]
    exact congrArg _ hget
  · intro f hf
    refine List.mem_map_of_mem (OrderedMap.get?_eq_some_iff.1 ?_)
    rw [get?_fields hr, (Entries.lookup_eq_some_iff hr.nodup).2 hf]
    rfl

end LogRecord

end ImportClosure
