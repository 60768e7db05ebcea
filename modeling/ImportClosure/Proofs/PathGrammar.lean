import ImportClosure.Proofs.PlainScripts
import ImportClosure.Proofs.SuffixGuessing
/-!
The grammar that a path tells.

A path ends in a name, which is what stands after its last slash, or the whole path
(`Path.IsNameOf`). The name alone tells the grammar: it has to end in the suffix of the grammar, and
before the suffix it needs something that is no dot (`Variant.ofPath?_exact`). So `a.js` is a plain
script and `.js` and `...js` are none, whatever directories stand before them and however many dots
those have in their names.
-/

namespace ImportClosure

namespace Path

variable {p d name : Text}

/-! ## The name at the end of a path -/

/-- The path ends in this name: there is no slash in it, and one directly before it unless it is the
whole path. -/
def IsNameOf (p name : Text) : Prop :=
  slash ∉ name ∧ (p = name ∨ ∃ d, p = d ++ slash :: name)

theorem lastComponent_eq_self (h : slash ∉ name) : lastComponent name = name :=
  lastComponent_append (p := []) h

theorem lastComponent_append_slash (h : slash ∉ name) :
    lastComponent (d ++ slash :: name) = name := by
  have hnil : lastComponent (d ++ [slash]) = [] := by
    unfold lastComponent
    rw [List.reverse_append, List.reverse_singleton, List.singleton_append,
      List.takeWhile_cons_of_neg (by simp), List.reverse_nil]
  rw [List.append_cons, lastComponent_append h, hnil, List.nil_append]

theorem slash_not_mem_lastComponent (p : Text) : slash ∉ lastComponent p := by
  unfold lastComponent
  rw [List.mem_reverse]
  intro hmem
  have hne := List.mem_takeWhile_imp hmem
  rw [decide_eq_true_eq] at hne
  exact hne rfl

/-- A path with a slash is cut at the last one. -/
theorem exists_last_slash (h : slash ∈ p) : ∃ d, p = d ++ slash :: lastComponent p := by
  obtain ⟨after, before, hp, hafter⟩ := List.eq_append_cons_of_mem (List.mem_reverse.2 h)
  have hcut : p = before.reverse ++ slash :: after.reverse := by
    rw [← List.reverse_reverse p, hp, List.reverse_append, List.reverse_cons, List.append_assoc]
    rfl
  refine ⟨before.reverse, ?_⟩
  conv_rhs => rw [hcut, lastComponent_append_slash fun hmem => hafter (List.mem_reverse.1 hmem)]
  exact hcut

theorem isNameOf_iff : IsNameOf p name ↔ name = lastComponent p := by
  constructor
  · rintro ⟨hname, rfl | ⟨d, rfl⟩⟩
    · exact (lastComponent_eq_self hname).symm
    · exact (lastComponent_append_slash hname).symm
  · rintro rfl
    refine ⟨slash_not_mem_lastComponent p, ?_⟩
    by_cases hslash : slash ∈ p
    · exact Or.inr (exists_last_slash hslash)
    · exact Or.inl (lastComponent_eq_self hslash).symm

/-- What stands before a slash does not matter for the name. -/
theorem lastComponent_append_cons (d p : Text) :
    lastComponent (d ++ slash :: p) = lastComponent p := by
  obtain ⟨hname, hp⟩ := isNameOf_iff.2 (rfl : lastComponent p = lastComponent p)
  refine (isNameOf_iff.1 ⟨hname, Or.inr ?_⟩).symm
  rcases hp with hp | ⟨d', hp⟩
  · exact ⟨d, by rw [← hp]⟩
  · refine ⟨d ++ slash :: d', ?_⟩
    conv_lhs => rw [hp]
    rw [List.append_assoc, List.cons_append]

theorem extension_congr {q : Text} (h : lastComponent p = lastComponent q) :
    extension p = extension q := by
  unfold extension
  rw [h]

/-- The extension is this one if the name ends in it, after something that is no dot. -/
theorem extension_eq_cons_iff {tail : Text} (htail : dot ∉ tail) :
    extension p = dot :: tail ↔ ∃ x, lastComponent p = x ++ dot :: tail ∧ ∃ c ∈ x, c ≠ dot := by
  constructor
  · -- where there is an extension there is a dot in the name, and the last one begins it
    intro hext
    obtain ⟨before, after, hname, -⟩ :=
      extension_ne_nil_iff.1 (hext.trans_ne (List.cons_ne_nil _ _))
    have hdot : dot ∈ lastComponent p := by
      rw [hname]
      exact List.mem_append_right _ List.mem_cons_self
    obtain ⟨stem, tail', hlast, htail'⟩ := exists_last_dot hdot
    rw [extension_of_last_dot hlast htail'] at hext
    split_ifs at hext with hstem
    push Not at hstem
    rw [hext] at hlast
    exact ⟨stem, hlast, hstem⟩
  · rintro ⟨x, hname, c, hc, hne⟩
    rw [extension_of_last_dot hname htail]
    exact if_neg fun hall => hne (hall c hc)

end Path

namespace Variant

open ImportClosure.Path (IsNameOf dot slash lastComponent)

variable {p q : Text}

/-! ## The grammar -/

theorem ofPath?_eq_some_iff_name {v : Variant} :
    ofPath? p = some v ↔ ∃ x, lastComponent p = x ++ v.suffix ∧ ∃ c ∈ x, c ≠ dot := by
  obtain ⟨tail, htail, -, hdot⟩ := v.exists_suffix_eq
  rw [ofPath?_eq_some_iff, htail, Path.extension_eq_cons_iff hdot]

/-- No grammar is told if before each suffix that the name may end in there are only dots. -/
theorem ofPath?_eq_none_iff_name : ofPath? p = none
    ↔ ∀ (v : Variant) (x : Text), lastComponent p = x ++ v.suffix → ∀ c ∈ x, c = dot := by
  rw [Option.eq_none_iff_forall_ne_some]
  refine forall_congr' fun v => ?_
  rw [Ne, ofPath?_eq_some_iff_name]
  push Not
  rfl

theorem ofPath?_congr (h : lastComponent p = lastComponent q) : ofPath? p = ofPath? q := by
  unfold ofPath?
  rw [Path.extension_congr h]

/-- **Grammars of paths.** Every path ends in one name, and this name tells the grammar: a plain
script is called `x.js` and a typed one `x.ts`, where `x` is not made of dots only, and every other
path tells no grammar. So directories before a path make no difference, and a suffix that is written
after a path tells its grammar, unless the path ends in a slash or in a name made of dots. -/
theorem ofPath?_exact (p : Text) :
    ∃ name, (∀ n, IsNameOf p n ↔ n = name)
      ∧ (ofPath? p = some javascript ↔ ∃ x : Text, name = x ++ (".js" : Text) ∧ ∃ c ∈ x, c ≠ dot)
      ∧ (ofPath? p = some typescript ↔ ∃ x : Text, name = x ++ (".ts" : Text) ∧ ∃ c ∈ x, c ≠ dot)
      ∧ (ofPath? p = none ↔ ∀ x : Text, name = x ++ (".js" : Text) ∨ name = x ++ (".ts" : Text) →
          ∀ c ∈ x, c = dot)
      ∧ (ofPath? p = ofPath? name ∧ ∀ d, ofPath? (d ++ slash :: p) = ofPath? p)
      ∧ ((∃ c ∈ name, c ≠ dot) → ofPath? (p ++ (".js" : Text)) = some javascript
          ∧ ofPath? (p ++ (".ts" : Text)) = some typescript) := by
  refine ⟨lastComponent p, fun n => Path.isNameOf_iff, ofPath?_eq_some_iff_name,
    ofPath?_eq_some_iff_name, ofPath?_eq_none_iff_name.trans ⟨?_, ?_⟩, ⟨?_, ?_⟩, ?_⟩
  · rintro hdots x (hname | hname)
    · exact hdots javascript x hname
    · exact hdots typescript x hname
  · intro hdots v x hname
    cases v with
    | javascript => exact hdots x (Or.inl hname)
    | typescript => exact hdots x (Or.inr hname)
  · refine ofPath?_congr (Path.lastComponent_eq_self ?_).symm
    exact Path.slash_not_mem_lastComponent p
  · exact fun d => ofPath?_congr (Path.lastComponent_append_cons d p)
  · rintro ⟨c, hc, hne⟩
    have hdotted : ¬ Path.IsDotted p := fun hall => hne (hall c hc)
    exact ⟨(ofPath?_append_suffix javascript).trans (if_neg hdotted),
      (ofPath?_append_suffix typescript).trans (if_neg hdotted)⟩

/-- A name that begins with dots tells a grammar by the suffix after it, whatever the name of the
directory ends in. -/
theorem hiddenName_told :
    IsNameOf "x.js/..a" "..a" ∧ ofPath? "x.js/..a" = none
      ∧ ofPath? (Text.ofString "x.js/..a" ++ (".ts" : Text)) = some typescript := by
  obtain ⟨name, hname, -, -, -, -, hsuffix⟩ := ofPath?_exact "x.js/..a"
  have hends : IsNameOf "x.js/..a" "..a" := ⟨by decide, Or.inr ⟨"x.js", rfl⟩⟩
  obtain rfl := (hname _).1 hends
  exact ⟨hends, by decide, (hsuffix ⟨'a', by decide, by decide⟩).2⟩

end Variant

end ImportClosure
