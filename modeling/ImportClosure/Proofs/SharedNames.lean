import ImportClosure.Configuration.Basic
/-!
Configurations that share their lists of names.

In the memory of a program a configuration does not hold its lists of names, but the addresses of
two lists, which other configurations may hold as well, and a name is added to a list in place. The
configuration for one call is therefore made from copies of both lists (`copy`), and only then are
names added to it (`withAllowedPackages`).

The two lists of a configuration are never one and the same (`IsIn.apart`): when a configuration is
made, each of them is made or copied by itself. A copy has two lists as well
(`isIn_withAllowedPackages`).

What an object stands for is the configuration with the lists that are at its addresses (`value`).
Seen in this way the changes in place come to what `Config.withAllowedPackages` says
(`value_withAllowedPackages`), and no object that was there before stands for anything else
afterwards (`value_of_isIn`): the lists are copied to new addresses, and nothing is written
anywhere else.
-/

namespace ImportClosure

/-! ## Lists in memory -/

/-- The lists of names in a memory, by address. -/
abbrev NameLists := List (List Text)

namespace NameLists

variable {m : NameLists} {a b : Nat} {name : Text} {names : List Text}

/-- The list at an address. -/
def get (m : NameLists) (a : Nat) : List Text := m[a]?.getD []

/-- Adds a name at the end of the list at an address, unless it is there. -/
def addName (a : Nat) (m : NameLists) (name : Text) : NameLists :=
  m.modify a (Config.addName · name)

/-- Adds names one after the other. -/
def addNames (a : Nat) (m : NameLists) (names : List Text) : NameLists :=
  names.foldl (addName a) m

theorem length_addName : (addName a m name).length = m.length := List.length_modify ..

theorem get_addName (ha : a < m.length) :
    (addName a m name).get a = Config.addName (m.get a) name := by
  unfold get addName
  rw [List.getElem?_modify_eq, List.getElem?_eq_getElem ha]
  rfl

theorem get_addName_of_ne (h : b ≠ a) : (addName a m name).get b = m.get b := by
  unfold get addName
  rw [List.getElem?_modify_ne _ _ h.symm]

theorem length_addNames : (addNames a m names).length = m.length := by
  unfold addNames
  induction names generalizing m with
  | nil => rfl
  | cons name names ih => rw [List.foldl_cons, ih, length_addName]

theorem get_addNames (ha : a < m.length) :
    (addNames a m names).get a = names.foldl Config.addName (m.get a) := by
  unfold addNames
  induction names generalizing m with
  | nil => rfl
  | cons name names ih =>
    have hlength : (addName a m name).length = m.length := length_addName
    rw [List.foldl_cons, List.foldl_cons, ih (hlength.symm ▸ ha), get_addName ha]

theorem get_addNames_of_ne (h : b ≠ a) : (addNames a m names).get b = m.get b := by
  unfold addNames
  induction names generalizing m with
  | nil => rfl
  | cons name names ih => rw [List.foldl_cons, ih, get_addName_of_ne h]

theorem get_append (added : List (List Text)) (h : a < m.length) :
    NameLists.get (m ++ added) a = m.get a := by
  unfold get
  rw [List.getElem?_append_left h]

end NameLists

/-! ## Objects -/

/-- A configuration in memory: the addresses of its lists, and its numbers. -/
structure ConfigObject where
  /-- Where the names of modules are that the runtime provides by itself. -/
  builtinModules : Nat
  /-- Where the names of further packages are. -/
  allowedPackages : Nat
  /-- The most files of one run; zero for no limit. -/
  maxFiles : Int
  /-- The size of the largest file that is read, in kilobytes. -/
  maxFileSizeKb : Int

namespace ConfigObject

variable {m : NameLists} {o other : ConfigObject} {names : List Text}

/-- The configuration that an object stands for. -/
def value (m : NameLists) (o : ConfigObject) : Config where
  builtinModules := m.get o.builtinModules
  allowedPackages := m.get o.allowedPackages
  maxFiles := o.maxFiles
  maxFileSizeKb := o.maxFileSizeKb

/-- The lists of the object are in memory, and they are two. -/
structure IsIn (m : NameLists) (o : ConfigObject) : Prop where
  builtinModules : o.builtinModules < m.length
  allowedPackages : o.allowedPackages < m.length
  apart : o.builtinModules ≠ o.allowedPackages

/-- A copy of an object, with lists of its own, and the memory with these. -/
def copy (m : NameLists) (o : ConfigObject) : NameLists × ConfigObject :=
  (m ++ [m.get o.builtinModules, m.get o.allowedPackages],
    { o with builtinModules := m.length, allowedPackages := m.length + 1 })

/-- A copy to which names are added, and the memory with its lists. -/
def withAllowedPackages (m : NameLists) (o : ConfigObject) (names : List Text) :
    NameLists × ConfigObject :=
  let copied := copy m o
  (copied.1.addNames copied.2.allowedPackages names, copied.2)

theorem length_copy : (copy m o).1.length = m.length + 2 := by
  unfold copy
  rw [List.length_append]
  rfl

theorem value_copy : (copy m o).2.value (copy m o).1 = o.value m := by
  unfold value copy NameLists.get
  simp

/-- **One object.** The copy stands for the configuration with the names added. -/
theorem value_withAllowedPackages :
    (withAllowedPackages m o names).2.value (withAllowedPackages m o names).1
      = (o.value m).withAllowedPackages names := by
  have hcopy : (copy m o).2.value (copy m o).1 = o.value m := value_copy
  have hbuiltin : (withAllowedPackages m o names).1.get m.length = (copy m o).1.get m.length :=
    NameLists.get_addNames_of_ne (Nat.succ_ne_self _).symm
  have hallowed : (withAllowedPackages m o names).1.get (m.length + 1)
      = names.foldl Config.addName ((copy m o).1.get (m.length + 1)) :=
    NameLists.get_addNames (length_copy.symm ▸ Nat.lt_succ_self _)
  -- both lists are those of the copy, and only the second of them grows
  rw [← hcopy]
  unfold Config.withAllowedPackages value
  dsimp only [withAllowedPackages, copy] at hbuiltin hallowed ⊢
  rw [hbuiltin, hallowed]

theorem length_withAllowedPackages :
    (withAllowedPackages m o names).1.length = m.length + 2 :=
  NameLists.length_addNames.trans length_copy

/-- The copy has two lists of its own. -/
theorem isIn_withAllowedPackages :
    (withAllowedPackages m o names).2.IsIn (withAllowedPackages m o names).1 where
  builtinModules := by
    rw [length_withAllowedPackages]
    exact Nat.lt_add_of_pos_right Nat.two_pos
  allowedPackages := by
    rw [length_withAllowedPackages]
    exact Nat.lt_succ_self (m.length + 1)
  apart := (Nat.succ_ne_self m.length).symm

theorem IsIn.withAllowedPackages (h : other.IsIn m) :
    other.IsIn (withAllowedPackages m o names).1 where
  builtinModules := by
    rw [length_withAllowedPackages]
    exact Nat.lt_add_right 2 h.builtinModules
  allowedPackages := by
    rw [length_withAllowedPackages]
    exact Nat.lt_add_right 2 h.allowedPackages
  apart := h.apart

/-- **The others.** An object that was there before stands for what it stood for. -/
theorem value_of_isIn (h : other.IsIn m) :
    other.value (withAllowedPackages m o names).1 = other.value m := by
  -- names are only added to the second of the new lists
  have hget : ∀ a < m.length, (withAllowedPackages m o names).1.get a = m.get a := by
    intro a ha
    have hne : a ≠ m.length + 1 := by omega
    exact (NameLists.get_addNames_of_ne hne).trans (NameLists.get_append _ ha)
  unfold value
  rw [hget _ h.builtinModules, hget _ h.allowedPackages]

end ConfigObject

end ImportClosure
