import ImportClosure.Text.Utf8
import Mathlib.Data.List.Basic
/-!
Texts that have bytes.

A text has a byte form exactly if none of its code points is a surrogate
(`Utf8.exists_encode_iff`), and this is its only one (`Utf8.encode_eq_ok_iff`). Latin-1 has no code
point as high as the surrogates, so what it reads has bytes.
-/

namespace ImportClosure

/-- No code point of the text is a surrogate. -/
def Text.IsEncodable (t : Text) : Prop := ∀ c ∈ t, c.isSurrogate = false

instance (t : Text) : Decidable t.IsEncodable :=
  List.decidableBAll (fun c => CodePoint.isSurrogate c = false) t

theorem Text.isEncodable_append {t u : Text} :
    (t ++ u).IsEncodable ↔ t.IsEncodable ∧ u.IsEncodable :=
  List.forall_mem_append

namespace CodePoint

theorem isSurrogate_eq_false_iff {c : CodePoint} :
    c.isSurrogate = false ↔ c.val < 0xD800 ∨ 0xDFFF < c.val := by
  unfold isSurrogate
  rw [Bool.and_eq_false_iff, decide_eq_false_iff_not, decide_eq_false_iff_not, Nat.not_le,
    Nat.not_le]

theorem val_ofNat {n : Nat} (h : n < 0x110000) : (ofNat n).val = n := Nat.mod_eq_of_lt h

theorem ofNat_val (c : CodePoint) : ofNat c.val = c := Fin.ext (val_ofNat c.isLt)

end CodePoint

namespace Utf8

/-! ## Encoding -/

theorem findIdx?_eq_none_iff {t : Text} :
    t.findIdx? CodePoint.isSurrogate = none ↔ t.IsEncodable := by
  rw [List.findIdx?_eq_none_iff]
  exact Iff.rfl

theorem encode_eq_ok {t : Text} (h : t.IsEncodable) : encode t = .ok (encodeAll t) := by
  unfold encode
  rw [findIdx?_eq_none_iff.2 h]

theorem encode_eq_ok_iff {t : Text} {bs : Bytes} :
    encode t = .ok bs ↔ t.IsEncodable ∧ encodeAll t = bs := by
  constructor
  · intro h
    have hencodable : t.IsEncodable := by
      rw [← findIdx?_eq_none_iff]
      unfold encode at h
      cases hfind : t.findIdx? CodePoint.isSurrogate with
      | none => rfl
      | some i =>
        rw [hfind] at h
        cases h
    rw [encode_eq_ok hencodable] at h
    exact ⟨hencodable, Except.ok.inj h⟩
  · rintro ⟨h, rfl⟩
    exact encode_eq_ok h

theorem exists_encode_iff {t : Text} : (∃ bs, encode t = .ok bs) ↔ t.IsEncodable :=
  ⟨fun ⟨_, h⟩ => (encode_eq_ok_iff.1 h).1, fun h => ⟨_, encode_eq_ok h⟩⟩

theorem length_encodeCodePoint_pos (c : CodePoint) : 0 < (encodeCodePoint c).length := by
  unfold encodeCodePoint
  dsimp only
  split_ifs <;> exact Nat.succ_pos _

theorem length_le_encodeAll (t : Text) : t.length ≤ (encodeAll t).length := by
  induction t with
  | nil => exact Nat.le_refl 0
  | cons c t ih =>
    have hpos := length_encodeCodePoint_pos c
    unfold encodeAll at ih ⊢
    rw [List.flatMap_cons, List.length_append, List.length_cons]
    omega

end Utf8

theorem Latin1.decode_isEncodable (bs : Bytes) : (Latin1.decode bs).IsEncodable := by
  intro c hc
  obtain ⟨b, _, rfl⟩ := List.mem_map.1 hc
  have hb := b.toNat_lt
  rw [CodePoint.isSurrogate_eq_false_iff, CodePoint.val_ofNat (by omega)]
  omega

end ImportClosure
