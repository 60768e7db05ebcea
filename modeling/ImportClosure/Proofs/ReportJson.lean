import ImportClosure.Proofs.JsonRoundTrip
import ImportClosure.Proofs.OrderedMap
import ImportClosure.Proofs.Text
import ImportClosure.Resolution.Error
/-!
Errors and results that can be read back from their JSON.

An error is spelled from the texts it holds, which are paths, names of packages and reasons, and
from words of its own, which are plain (`texts`). If all texts it holds have bytes, then so do its
summary and all texts in its JSON object, and the object is read back as it was
(`isPlain_toJson`). The same holds of a result, whose texts are paths and contents.
-/

namespace ImportClosure

/-! ## Texts with bytes -/

namespace Text

variable {t sep : Text} {ts : List Text}

/-- No character is a surrogate, so words of the program have bytes. -/
theorem isEncodable_ofString (s : String) : (ofString s).IsEncodable := by
  intro c hc
  obtain ⟨char, -, rfl⟩ := List.mem_map.1 hc
  have hvalid := char.valid
  simp only [UInt32.isValidChar, Nat.isValidChar] at hvalid
  rw [CodePoint.isSurrogate_eq_false_iff]
  unfold CodePoint.ofChar Char.toNat
  dsimp only
  omega

theorem isEncodable_joinWith (hsep : sep.IsEncodable) (h : ∀ t ∈ ts, t.IsEncodable) :
    (joinWith sep ts).IsEncodable := forall_mem_joinWith hsep h

end Text

open Text (isEncodable_append isEncodable_ofString isEncodable_joinWith)

/-! ## Plain values -/

namespace Json

variable {p : Text → Prop} {ts : List Text} {fields : List (Text × Json)}

theorem isPlain_object_iff :
    (object fields).IsPlain p ↔ ∀ f ∈ fields, f.1.IsEncodable ∧ f.2.IsPlain p := by
  constructor
  · intro h
    cases h with
    | object hnames hvalues => exact fun f hf => ⟨hnames f hf, hvalues f hf⟩
  · exact fun h => .object (fun f hf => (h f hf).1) fun f hf => (h f hf).2

theorem isPlain_texts (h : ∀ t ∈ ts, p t) : (texts ts).IsPlain p := by
  refine .list fun j hj => ?_
  obtain ⟨t, ht, rfl⟩ := List.mem_map.1 hj
  exact .text (h t ht)

/-- A list of objects that have a text and something else each. -/
theorem isPlain_entries {ν : Type} {entries : List (Text × ν)} {file other : String} {f : ν → Json}
    (h : ∀ e ∈ entries, p e.1 ∧ (f e.2).IsPlain p) :
    (list (entries.map fun e => object [(file, text e.1), (other, f e.2)])).IsPlain p := by
  refine .list fun j hj => ?_
  obtain ⟨e, he, rfl⟩ := List.mem_map.1 hj
  obtain ⟨hkey, hvalue⟩ := h e he
  rw [isPlain_object_iff, List.forall_mem_cons, List.forall_mem_singleton]
  exact ⟨⟨isEncodable_ofString _, .text hkey⟩, isEncodable_ofString _, hvalue⟩

end Json

/-! ## Reports -/

namespace FaultReport

variable {p : Text → Prop} {r : FaultReport}

/-- The paths, names and reasons in a report. -/
def texts (r : FaultReport) : List Text :=
  r.entrypoint :: (r.missing.entries.flatMap fun e => e.1 :: e.2)
    ++ (r.unparsed.entries.flatMap fun e => [e.1, e.2])
    ++ (r.unsupported.entries.flatMap fun e => e.1 :: e.2)

theorem forall_mem_texts_iff :
    (∀ t ∈ r.texts, p t) ↔ p r.entrypoint ∧ (∀ e ∈ r.missing.entries, p e.1 ∧ ∀ t ∈ e.2, p t)
      ∧ (∀ e ∈ r.unparsed.entries, p e.1 ∧ p e.2)
      ∧ ∀ e ∈ r.unsupported.entries, p e.1 ∧ ∀ t ∈ e.2, p t := by
  unfold texts
  simp only [List.cons_append, List.forall_mem_cons, List.forall_mem_append,
    List.forall_mem_flatMap, List.not_mem_nil, false_implies, implies_true, and_true, and_assoc]

/-- The summary counts, and names nothing but the entrypoint. -/
theorem isEncodable_message (h : r.entrypoint.IsEncodable) : r.message.IsEncodable := by
  have hcounts : ∀ t ∈ r.counts, t.IsEncodable := by
    have hnumber : ∀ n s, (Text.ofNat n ++ Text.ofString s).IsEncodable := fun _ _ =>
      isEncodable_append.2 ⟨isEncodable_ofString _, isEncodable_ofString _⟩
    unfold counts
    intro t ht
    rw [List.mem_append, List.mem_append] at ht
    rcases ht with (ht | ht) | ht <;> split_ifs at ht <;>
      first
      | exact absurd ht List.not_mem_nil
      | exact List.mem_singleton.1 ht ▸ hnumber _ _
  unfold FaultReport.message
  simp only [isEncodable_append]
  exact ⟨⟨⟨isEncodable_ofString _, h⟩, isEncodable_ofString _⟩,
    isEncodable_joinWith (isEncodable_ofString _) hcounts⟩

theorem isPlain_jsonFields (h : ∀ t ∈ r.texts, p t) :
    ∀ f ∈ r.jsonFields, f.1.IsEncodable ∧ f.2.IsPlain p := by
  obtain ⟨-, hmissing, hunparsed, hunsupported⟩ := forall_mem_texts_iff.1 h
  unfold jsonFields
  rw [List.forall_mem_cons, List.forall_mem_cons, List.forall_mem_singleton]
  refine ⟨⟨isEncodable_ofString _, ?_⟩, ⟨isEncodable_ofString _, ?_⟩, isEncodable_ofString _, ?_⟩
  · exact Json.isPlain_entries fun e he => (hmissing e he).imp_right Json.isPlain_texts
  · exact Json.isPlain_entries fun e he => (hunparsed e he).imp_right .text
  · exact Json.isPlain_entries fun e he => (hunsupported e he).imp_right Json.isPlain_texts

end FaultReport

/-! ## Errors -/

namespace ResolutionError

/-- The paths, names and reasons in an error. -/
def texts : ResolutionError → List Text
  | general e m => [e, m]
  | unsupportedEntrypoint e => [e]
  | unreadableEntrypoint e reason => e :: reason.toList
  | limitExceeded e _ => [e]
  | faulty r => r.texts

/-- They all have bytes. -/
def IsEncodable (e : ResolutionError) : Prop := ∀ t ∈ e.texts, t.IsEncodable

instance (e : ResolutionError) : Decidable e.IsEncodable :=
  inferInstanceAs (Decidable (∀ t ∈ e.texts, t.IsEncodable))

variable {p : Text → Prop} {e : ResolutionError}

theorem entrypoint_mem_texts : e.entrypoint ∈ e.texts := by
  cases e <;> exact List.mem_cons_self

theorem IsEncodable.entrypoint (h : e.IsEncodable) : e.entrypoint.IsEncodable :=
  h _ entrypoint_mem_texts

theorem IsEncodable.message (h : e.IsEncodable) : e.message.IsEncodable := by
  have hentry := h.entrypoint
  cases e with
  | general e m => exact h m (List.mem_cons_of_mem _ List.mem_cons_self)
  | unsupportedEntrypoint e => exact isEncodable_append.2 ⟨isEncodable_ofString _, hentry⟩
  | unreadableEntrypoint e reason =>
    have hplain : (Text.ofString "Cannot read entrypoint " ++ e).IsEncodable :=
      isEncodable_append.2 ⟨isEncodable_ofString _, hentry⟩
    unfold ResolutionError.message
    dsimp only
    split
    · exact hplain
    · exact hplain
    · rename_i why _
      have hwhy : why.IsEncodable := h why (List.mem_cons_of_mem _ List.mem_cons_self)
      exact isEncodable_append.2
        ⟨isEncodable_append.2 ⟨hplain, isEncodable_ofString _⟩, hwhy⟩
  | limitExceeded e limit =>
    unfold ResolutionError.message
    simp only [isEncodable_append]
    exact ⟨⟨⟨⟨isEncodable_ofString _, hentry⟩, isEncodable_ofString _⟩, isEncodable_ofString _⟩,
      isEncodable_ofString _⟩
  | faulty r => exact FaultReport.isEncodable_message hentry

theorem isPlain_jsonFields (h : ∀ t ∈ e.texts, p t) :
    ∀ f ∈ e.jsonFields, f.1.IsEncodable ∧ f.2.IsPlain p := by
  cases e with
  | general e m => exact List.forall_mem_nil _
  | unsupportedEntrypoint e => exact List.forall_mem_nil _
  | unreadableEntrypoint e reason =>
    have hentry := List.forall_mem_singleton.2 (h e List.mem_cons_self)
    exact List.forall_mem_singleton.2 ⟨isEncodable_ofString _, Json.isPlain_texts hentry⟩
  | limitExceeded e limit =>
    exact List.forall_mem_singleton.2 ⟨isEncodable_ofString _, .int limit⟩
  | faulty r => exact FaultReport.isPlain_jsonFields h

/-- The JSON object of an error has the texts of the error, its kind and its summary. -/
theorem isPlain_toJson (hkind : p e.kind) (hmessage : p e.message) (h : ∀ t ∈ e.texts, p t) :
    e.toJson.IsPlain p := by
  unfold toJson
  rw [Json.isPlain_object_iff, List.forall_mem_append]
  refine ⟨?_, isPlain_jsonFields h⟩
  rw [List.forall_mem_cons, List.forall_mem_cons, List.forall_mem_singleton]
  exact ⟨⟨isEncodable_ofString _, .text hkind⟩,
    ⟨isEncodable_ofString _, .text (h _ entrypoint_mem_texts)⟩,
    isEncodable_ofString _, .text hmessage⟩

/-- **Errors.** An error all texts in which have bytes can be read back from its JSON. -/
theorem IsEncodable.isPlain_toJson (h : e.IsEncodable) : e.toJson.IsPlain Text.IsEncodable := by
  have hkind : e.kind.IsEncodable := by cases e <;> exact isEncodable_ofString _
  exact ResolutionError.isPlain_toJson hkind h.message h

end ResolutionError

/-! ## Results -/

namespace OrderedMap

variable {files files' : OrderedMap Text Text}

/-- Files as a JSON object. -/
def toJson (files : OrderedMap Text Text) : Json :=
  .object (files.entries.map fun f => (f.1, .text f.2))

theorem isPlain_toJson (h : ∀ f ∈ files.entries, f.1.IsEncodable ∧ f.2.IsEncodable) :
    files.toJson.IsPlain Text.IsEncodable := by
  unfold toJson
  rw [Json.isPlain_object_iff]
  intro field hfield
  obtain ⟨f, hf, rfl⟩ := List.mem_map.1 hfield
  exact ⟨(h f hf).1, .text (h f hf).2⟩

/-- The object tells the files, their contents and their order. -/
theorem toJson_injective (h : files.toJson = files'.toJson) : files = files' := by
  apply ext_entries
  refine List.map_injective_iff.2 ?_ (Json.object.inj h)
  intro f f' heq
  obtain ⟨hpath, htext⟩ := Prod.mk.inj heq
  exact Prod.ext hpath (Json.text.inj htext)

end OrderedMap

end ImportClosure
