import ImportClosure.Proofs.FirstOccurrences
import ImportClosure.Proofs.SharedNames
import ImportClosure.Proofs.Text
/-!
Packages added to a configuration.

Names are added one at a time, and each is looked up in the list that has grown so far. What comes
of it does not depend on that: the list stays as it was, its repetitions included, and after it
stand the new names, each once, in the order in which they are first given (`foldl_addName`).

Calls one after the other therefore come to one call with all their names, and the names that are
allowed in the end are the same for every order and grouping of the calls
(`withAllowedPackages_chain`). In memory each call makes an object of its own, and the one it is
made from stays what it was.
-/

namespace ImportClosure

namespace Config

variable {c : Config} {known names : List Text} {name t : Text} {calls : List (List Text)}

/-! ## Names added to a list -/

/-- Those of the names that are not known, each once, in the order in which they are first given. -/
def newNames (known names : List Text) : List Text :=
  (names.filter fun name => !known.contains name).eraseDups

theorem mem_newNames : t ∈ newNames known names ↔ t ∈ names ∧ t ∉ known := by
  unfold newNames
  rw [List.mem_eraseDups, List.mem_filter, Bool.not_eq_true', ← Bool.not_eq_true,
    List.contains_iff_mem]

theorem addName_of_mem (h : name ∈ known) : addName known name = known := by
  unfold addName
  rw [if_pos (List.contains_iff_mem.2 h)]

theorem addName_of_not_mem (h : name ∉ known) : addName known name = known ++ [name] := by
  unfold addName
  rw [if_neg (fun hmem => h (List.contains_iff_mem.1 hmem))]

theorem filter_concat_of_not_mem (h : name ∉ known) :
    (names ++ [name]).filter (fun name => !known.contains name)
      = names.filter (fun name => !known.contains name) ++ [name] := by
  rw [List.filter_append, List.filter_singleton]
  simp [h]

/-- A name that is known, or that was given before, is no new name. -/
theorem newNames_concat_of_mem (h : name ∈ known ++ newNames known names) :
    newNames known (names ++ [name]) = newNames known names := by
  unfold newNames
  by_cases hknown : name ∈ known
  · rw [List.filter_append, List.filter_singleton]
    simp [hknown]
  · -- it was given before, so that it is the second mention that is dropped
    have hmem := (List.mem_append.1 h).resolve_left hknown
    rw [filter_concat_of_not_mem hknown,
      eraseDups_append_singleton_of_mem (List.mem_eraseDups.1 hmem)]

theorem newNames_concat_of_not_mem (h : name ∉ known ++ newNames known names) :
    newNames known (names ++ [name]) = newNames known names ++ [name] := by
  rw [List.mem_append, not_or] at h
  unfold newNames
  rw [filter_concat_of_not_mem h.1]
  exact eraseDups_append_singleton_of_not_mem fun hmem => h.2 (List.mem_eraseDups.2 hmem)

/-- **Adding names.** The list stays as it was, and the new names follow. -/
theorem foldl_addName (known names : List Text) :
    names.foldl addName known = known ++ newNames known names := by
  -- from the end, where the list that a name is looked up in is the one the statement is about
  induction names using List.reverseRecOn with
  | nil => exact (List.append_nil known).symm
  | append_singleton names name ih =>
    rw [List.foldl_append, ih, List.foldl_cons, List.foldl_nil]
    by_cases h : name ∈ known ++ newNames known names
    · rw [addName_of_mem h, newNames_concat_of_mem h]
    · rw [addName_of_not_mem h, newNames_concat_of_not_mem h, List.append_assoc]

theorem mem_foldl_addName : t ∈ names.foldl addName known ↔ t ∈ known ∨ t ∈ names := by
  rw [foldl_addName, List.mem_append, mem_newNames]
  by_cases h : t ∈ known
  · exact iff_of_true (Or.inl h) (Or.inl h)
  · rw [and_iff_left h]

/-- Where all names are known, nothing is added. -/
theorem foldl_addName_of_subset (h : names ⊆ known) : names.foldl addName known = known := by
  have hnone : newNames known names = [] := by
    rw [List.eq_nil_iff_forall_not_mem]
    intro name hmem
    exact (mem_newNames.1 hmem).2 (h (mem_newNames.1 hmem).1)
  rw [foldl_addName, hnone, List.append_nil]

/-! ## Calls one after the other -/

/-- Two calls come to one with the names of both. -/
theorem withAllowedPackages_append (c : Config) (names more : List Text) :
    c.withAllowedPackages (names ++ more)
      = (c.withAllowedPackages names).withAllowedPackages more := by
  unfold withAllowedPackages
  rw [List.foldl_append]

/-- A chain of calls comes to one call with all the names. -/
theorem foldl_withAllowedPackages (c : Config) (calls : List (List Text)) :
    calls.foldl withAllowedPackages c = c.withAllowedPackages calls.flatten := by
  induction calls generalizing c with
  | nil => rfl
  | cons names calls ih =>
    rw [List.foldl_cons, ih, List.flatten_cons, withAllowedPackages_append]

theorem get_withAllowedPackages (c : Config) (names : List Text) {p : Parameter}
    (hp : p ≠ .allowedPackages) : (c.withAllowedPackages names).get p = c.get p := by
  cases p with
  | allowedPackages => exact absurd rfl hp
  | builtinModules | maxFiles | maxFileSizeKb => rfl

theorem mem_allowedModules :
    t ∈ c.allowedModules ↔ t ∈ c.builtinModules ∨ t ∈ c.allowedPackages := by
  unfold allowedModules
  rw [TextSet.mem_ofList, List.mem_append]

theorem mem_allowedModules_withAllowedPackages :
    t ∈ (c.withAllowedPackages names).allowedModules
      ↔ t ∈ c.builtinModules ∨ t ∈ c.allowedPackages ∨ t ∈ names :=
  mem_allowedModules.trans (or_congr Iff.rfl mem_foldl_addName)

end Config

namespace ConfigObject

variable {m : NameLists} {o other : ConfigObject} {calls : List (List Text)}

/-- The object that a chain of calls makes, each from the one before, and the memory with the lists
of all of them. -/
def afterCalls (m : NameLists) (o : ConfigObject) : List (List Text) → NameLists × ConfigObject
  | [] => (m, o)
  | names :: calls =>
    afterCalls (o.withAllowedPackages m names).1 (o.withAllowedPackages m names).2 calls

theorem value_afterCalls (m : NameLists) (o : ConfigObject) (calls : List (List Text)) :
    (afterCalls m o calls).2.value (afterCalls m o calls).1
      = calls.foldl Config.withAllowedPackages (o.value m) := by
  induction calls generalizing m o with
  | nil => rfl
  | cons names calls ih => rw [afterCalls, ih, value_withAllowedPackages, List.foldl_cons]

/-- Every object of a chain of calls has two lists of its own in memory. -/
theorem IsIn.afterCalls (h : o.IsIn m) : (afterCalls m o calls).2.IsIn (afterCalls m o calls).1 := by
  induction calls generalizing m o with
  | nil => exact h
  | cons names calls ih => exact ih isIn_withAllowedPackages

/-- No object that was there before stands for anything else after a chain of calls. -/
theorem value_of_isIn_afterCalls (h : other.IsIn m) :
    other.value (afterCalls m o calls).1 = other.value m := by
  induction calls generalizing m o with
  | nil => rfl
  | cons names calls ih => rw [afterCalls, ih h.withAllowedPackages, value_of_isIn h]

end ConfigObject

namespace Config

/-- **Chains of calls.** However packages are added to a configuration, its list of packages stays
as it was and the new names follow, each once, in the order in which they are first given; the other
parameters stay what they are. A chain of calls is one call with all their names, and a call that
was made before changes nothing. The modules that are allowed in the end are the built-in ones, the
packages and all the names, whatever the order and the grouping of the calls. In memory, the object
that a chain makes has two lists as well and stands for that configuration, and the one it starts
from is not changed. -/
theorem withAllowedPackages_chain (c : Config) (calls : List (List Text)) :
    (calls.foldl withAllowedPackages c).allowedPackages
        = c.allowedPackages ++ newNames c.allowedPackages calls.flatten
      ∧ (∀ p, p ≠ .allowedPackages → (calls.foldl withAllowedPackages c).get p = c.get p)
      ∧ calls.foldl withAllowedPackages c = c.withAllowedPackages calls.flatten
      ∧ (∀ names ∈ calls, (calls.foldl withAllowedPackages c).withAllowedPackages names
        = calls.foldl withAllowedPackages c)
      ∧ (∀ t, t ∈ (calls.foldl withAllowedPackages c).allowedModules
        ↔ t ∈ c.builtinModules ∨ t ∈ c.allowedPackages ∨ ∃ names ∈ calls, t ∈ names)
      ∧ (∀ calls' : List (List Text), (∀ t, t ∈ calls'.flatten ↔ t ∈ calls.flatten) →
        (calls'.foldl withAllowedPackages c).allowedModules
          = (calls.foldl withAllowedPackages c).allowedModules)
      ∧ ∀ (m : NameLists) (o : ConfigObject), o.IsIn m → o.value m = c →
        (o.afterCalls m calls).2.IsIn (o.afterCalls m calls).1
          ∧ (o.afterCalls m calls).2.value (o.afterCalls m calls).1
            = calls.foldl withAllowedPackages c
          ∧ o.value (o.afterCalls m calls).1 = c := by
  rw [foldl_withAllowedPackages]
  refine ⟨foldl_addName _ _, fun p => get_withAllowedPackages c _, rfl, ?_, ?_, ?_, ?_⟩
  · intro names hnames
    -- all names of the call are there already
    have hsubset : names ⊆ calls.flatten.foldl addName c.allowedPackages := by
      intro name hname
      exact mem_foldl_addName.2 (Or.inr (List.mem_flatten.2 ⟨names, hnames, hname⟩))
    unfold withAllowedPackages
    rw [foldl_addName_of_subset hsubset]
  · intro t
    rw [mem_allowedModules_withAllowedPackages, List.mem_flatten]
  · intro calls' hsame
    rw [foldl_withAllowedPackages]
    apply TextSet.ext_mem
    intro t
    rw [mem_allowedModules_withAllowedPackages, mem_allowedModules_withAllowedPackages, hsame]
  · rintro m o hin rfl
    rw [ConfigObject.value_afterCalls, foldl_withAllowedPackages]
    exact ⟨hin.afterCalls, rfl, ConfigObject.value_of_isIn_afterCalls hin⟩

/-- A configuration whose list of packages has a repetition. -/
def repeatedNames : Config := { standard with allowedPackages := [['a'], ['b'], ['a']] }

/-- Calls that give known names, new ones, and a new one twice. -/
def repeatedCalls : List (List Text) := [[['b'], ['q']], [['q'], ['a'], ['r']]]

/-- The repetition stays, each new name is added once, and the object is not changed. -/
theorem repeatedNames_chain :
    (repeatedCalls.foldl withAllowedPackages repeatedNames).allowedPackages
        = ([['a'], ['b'], ['a'], ['q'], ['r']] : List Text)
      ∧ ∃ (m : NameLists) (o : ConfigObject), o.IsIn m ∧ o.value m = repeatedNames
        ∧ o.value (o.afterCalls m repeatedCalls).1 = repeatedNames := by
  obtain ⟨hlist, -, -, -, -, -, hmemory⟩ := withAllowedPackages_chain repeatedNames repeatedCalls
  have hnew : newNames repeatedNames.allowedPackages repeatedCalls.flatten
      = ([['q'], ['r']] : List Text) := by decide
  rw [hnew] at hlist
  have hin : (ConfigObject.mk 0 1 0 1024).IsIn
      [repeatedNames.builtinModules, repeatedNames.allowedPackages] :=
    ⟨by decide, by decide, by decide⟩
  obtain ⟨-, -, hvalue⟩ := hmemory _ _ hin rfl
  exact ⟨hlist, _, _, hin, rfl, hvalue⟩

end Config

end ImportClosure
