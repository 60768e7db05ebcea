import ImportClosure.Proofs.Distance
import ImportClosure.Proofs.SelfContained
/-!
The order of a result.

A result lists files in the order in which a run found them, which depends on a queue, on marks
and on the order in which specifiers are looked up. All of this comes to an order that can be told
from the graph: after the entry file each file stands where the earliest file of the list that
imports it puts it, and among the files put there by one importer the least specifier decides
(`Canonical`). To see that, every import is written down as a mention, with the position of the
importer and the specifier as its key. The keys ascend, so the first key of a file tells its place.
-/

namespace ImportClosure.Resolution

variable {s : Settings} {r : Reader} {e f g : SourceFile} {v : Variant} {m : Specifiers}
variable {entrypoint : Text} {order : List SourceFile} {files : OrderedMap Text Text}

/-! ## Specifiers and where they lead -/

/-- The local specifier `t` of `f` leads to `g`. -/
def Leads (s : Settings) (r : Reader) (f : SourceFile) (t : Text) (g : SourceFile) : Prop :=
  ∃ v m, Parses s f v m ∧ t ∈ m.files
    ∧ Candidate.find? r v (Candidate.ofSpecifier (Path.directory f.path) t) = some g

theorem imports_iff_exists_leads : Imports s r f g ↔ ∃ t, Leads s r f t g := by
  constructor
  · rintro ⟨v, m, hp, t, ht, hg⟩
    exact ⟨t, v, m, hp, ht, hg⟩
  · rintro ⟨t, v, m, hp, ht, hg⟩
    exact ⟨v, m, hp, t, ht, hg⟩

/-- The local specifiers of a file that lead somewhere, ascending, and the files they lead to. -/
def leadsOf (s : Settings) (r : Reader) (f : SourceFile) : List (Text × SourceFile) :=
  match f.variant with
  | none => []
  | some v =>
    match s.extract f.content v with
    | .ok ⟨m, none⟩ => m.files.toList.filterMap fun t =>
        (Candidate.find? r v (Candidate.ofSpecifier (Path.directory f.path) t)).map (t, ·)
    | _ => []

theorem leadsOf_of_parses (h : Parses s f v m) :
    leadsOf s r f = m.files.toList.filterMap fun t =>
      (Candidate.find? r v (Candidate.ofSpecifier (Path.directory f.path) t)).map (t, ·) := by
  unfold leadsOf
  rw [h.1]
  dsimp only
  rw [h.2]

theorem leadsOf_of_not_parses (h : ∀ v m, ¬ Parses s f v m) : leadsOf s r f = [] := by
  unfold leadsOf
  split
  · rfl
  · rename_i v hv
    split
    · rename_i m hx
      exact absurd ⟨hv, hx⟩ (h v m)
    · rfl

theorem mem_leadsOf {t : Text} : (t, g) ∈ leadsOf s r f ↔ Leads s r f t g := by
  by_cases h : ∃ v m, Parses s f v m
  · obtain ⟨v, m, hp⟩ := h
    have hiff : Leads s r f t g ↔ t ∈ m.files
        ∧ Candidate.find? r v (Candidate.ofSpecifier (Path.directory f.path) t) = some g :=
      hp.exists_iff
    rw [hiff, leadsOf_of_parses hp, List.mem_filterMap]
    constructor
    · rintro ⟨u, hu, heq⟩
      obtain ⟨g', hg', heq⟩ := Option.map_eq_some_iff.1 heq
      obtain ⟨rfl, rfl⟩ := Prod.mk.inj heq
      exact ⟨hu, hg'⟩
    · rintro ⟨ht, hg⟩
      exact ⟨t, ht, by rw [hg]; rfl⟩
  · rw [leadsOf_of_not_parses (fun v m hp => h ⟨v, m, hp⟩)]
    constructor
    · exact fun hg => absurd hg List.not_mem_nil
    · rintro ⟨v, m, hp, _⟩
      exact absurd ⟨v, m, hp⟩ h

theorem map_snd_leadsOf (s : Settings) (r : Reader) (f : SourceFile) :
    (leadsOf s r f).map Prod.snd = importedFiles s r f := by
  by_cases h : ∃ v m, Parses s f v m
  · obtain ⟨v, m, hp⟩ := h
    rw [leadsOf_of_parses hp, importedFiles_of_parses hp, List.map_filterMap]
    refine List.filterMap_congr fun t _ => ?_
    rw [Option.map_map]
    exact Option.map_id'
  · have hn : ∀ v m, ¬ Parses s f v m := fun v m hp => h ⟨v, m, hp⟩
    rw [leadsOf_of_not_parses hn, importedFiles_of_not_parses hn]
    rfl

/-- The specifiers ascend. -/
theorem pairwise_leadsOf (s : Settings) (r : Reader) (f : SourceFile) :
    (leadsOf s r f).Pairwise fun l l' => Text.isBefore l.1 l'.1 = true := by
  by_cases h : ∃ v m, Parses s f v m
  · obtain ⟨v, m, hp⟩ := h
    rw [leadsOf_of_parses hp, List.pairwise_filterMap]
    refine m.files.ascending.imp ?_
    intro t u htu l hl l' hl'
    obtain ⟨_, _, rfl⟩ := Option.map_eq_some_iff.1 hl
    obtain ⟨_, _, rfl⟩ := Option.map_eq_some_iff.1 hl'
    exact htu
  · rw [leadsOf_of_not_parses (fun v m hp => h ⟨v, m, hp⟩)]
    exact List.Pairwise.nil

/-! ## Mentions -/

/-- One mention comes before another: by an earlier file, or by a lesser specifier of the same
file. -/
def MentionedBefore (k l : Nat × Text) : Prop :=
  k.1 < l.1 ∨ k.1 = l.1 ∧ Text.isBefore k.2 l.2 = true

/-- The imports of the files of a list, each with the position of the importer and the
specifier. -/
def mentions (s : Settings) (r : Reader) (order : List SourceFile) :
    List ((Nat × Text) × SourceFile) :=
  order.zipIdx.flatMap fun p => (leadsOf s r p.1).map fun l => ((p.2, l.1), l.2)

theorem mem_mentions {i : Nat} {t : Text} :
    ((i, t), g) ∈ mentions s r order ↔ ∃ f, order[i]? = some f ∧ Leads s r f t g := by
  unfold mentions
  rw [List.mem_flatMap]
  constructor
  · rintro ⟨p, hp, hm⟩
    obtain ⟨l, hl, heq⟩ := List.mem_map.1 hm
    obtain ⟨hk, rfl⟩ := Prod.mk.inj heq
    obtain ⟨rfl, rfl⟩ := Prod.mk.inj hk
    exact ⟨p.1, List.mem_zipIdx_iff_getElem?.1 hp, mem_leadsOf.1 hl⟩
  · rintro ⟨f, hf, hl⟩
    exact ⟨(f, i), List.mem_zipIdx_iff_getElem?.2 hf,
      List.mem_map.2 ⟨(t, g), mem_leadsOf.2 hl, rfl⟩⟩

theorem map_snd_mentions (s : Settings) (r : Reader) (order : List SourceFile) :
    (mentions s r order).map Prod.snd = order.flatMap (importedFiles s r) := by
  have hrow : ∀ p : SourceFile × Nat,
      ((leadsOf s r p.1).map fun l => ((p.2, l.1), l.2)).map Prod.snd
        = importedFiles s r p.1 := by
    intro p
    rw [List.map_map, ← map_snd_leadsOf]
    rfl
  unfold mentions
  rw [List.map_flatMap, List.flatMap_congr fun p _ => hrow p, ← List.flatMap_map,
    List.zipIdx_map_fst]

/-- The mentions ascend. -/
theorem pairwise_mentions (s : Settings) (r : Reader) (order : List SourceFile) :
    (mentions s r order).Pairwise fun l l' => MentionedBefore l.1 l'.1 := by
  unfold mentions
  rw [List.pairwise_flatMap]
  constructor
  · intro p _
    rw [List.pairwise_map]
    exact (pairwise_leadsOf s r p.1).imp fun h => Or.inr ⟨rfl, h⟩
  · have hpos : order.zipIdx.Pairwise fun p q => p.2 < q.2 := by
      rw [← List.pairwise_map (f := Prod.snd) (R := (· < ·)), List.zipIdx_map_snd]
      exact List.pairwise_lt_range'
    refine hpos.imp ?_
    intro p q hpq l hl l' hl'
    obtain ⟨_, _, rfl⟩ := List.mem_map.1 hl
    obtain ⟨_, _, rfl⟩ := List.mem_map.1 hl'
    exact Or.inl hpq

/-! ## Canonical orders -/

/-- The file `g` is found by the file at position `i`, the earliest of the list that imports it,
through `t`, the least specifier by which that file reaches it. -/
structure FoundAt (s : Settings) (r : Reader) (order : List SourceFile) (g : SourceFile)
    (i : Nat) (t : Text) : Prop where
  leads : ∃ f, order[i]? = some f ∧ Leads s r f t g
  earliest : ∀ j f, order[j]? = some f → Imports s r f g → i ≤ j
  least : ∀ f u, order[i]? = some f → Leads s r f u g → u = t ∨ Text.isBefore t u = true

/-- The breadth-first order of the files that `e` needs, told from the import graph. -/
structure Canonical (s : Settings) (r : Reader) (e : SourceFile) (order : List SourceFile) :
    Prop where
  /-- The entry file is the first. -/
  head : order.head? = some e
  /-- The length of the shortest import chain never decreases. -/
  distances : order.Pairwise fun f g =>
    ∃ m n, IsDistance (Imports s r) e f m ∧ IsDistance (Imports s r) e g n ∧ m ≤ n
  /-- Every other file is found by a file of the list. -/
  found : ∀ g ∈ order.tail, ∃ i t, FoundAt s r order g i t
  /-- They ascend by position of the importer, and then by specifier. -/
  ascending : order.tail.Pairwise fun f g =>
    ∃ i t j u, FoundAt s r order f i t ∧ FoundAt s r order g j u ∧ MentionedBefore (i, t) (j, u)

/-- A first mention tells how a file is found. -/
theorem foundAt_of_isFirstKey {i : Nat} {t : Text}
    (h : IsFirstKey MentionedBefore (mentions s r order) g (i, t)) : FoundAt s r order g i t where
  leads := mem_mentions.1 h.mem
  earliest := by
    intro j f hf hi
    obtain ⟨u, hu⟩ := imports_iff_exists_leads.1 hi
    rcases h.first (j, u) (mem_mentions.2 ⟨f, hf, hu⟩) with heq | hlt | ⟨heq, _⟩
    · exact (Prod.mk.inj heq).1.ge
    · exact Nat.le_of_lt hlt
    · exact Nat.le_of_eq heq
  least := by
    intro f u hf hu
    rcases h.first (i, u) (mem_mentions.2 ⟨f, hf, hu⟩) with heq | hlt | ⟨_, hlt⟩
    · exact Or.inl (Prod.mk.inj heq).2
    · exact absurd hlt (Nat.lt_irrefl i)
    · exact Or.inr hlt

/-- What is mentioned besides the entry file is the rest of the order, each file once. -/
theorem tail_eq_eraseDups (ho : BreadthFirst (importedFiles s r) e order) :
    order.head? = some e
      ∧ order.tail = (((mentions s r order).filter (·.2 != e)).map Prod.snd).eraseDups := by
  have horder := ho.order_eq
  rw [List.eraseDups_cons, ← map_snd_mentions, List.filter_map] at horder
  exact ⟨congrArg List.head? horder, congrArg List.tail horder⟩

theorem isFirstKey_of_filter {p : (Nat × Text) × SourceFile → Bool} {k : Nat × Text}
    (h : IsFirstKey MentionedBefore ((mentions s r order).filter p) g k)
    (hp : ∀ k, p (k, g) = true) : IsFirstKey MentionedBefore (mentions s r order) g k where
  mem := (List.mem_filter.1 h.mem).1
  first := fun k' hk' => h.first k' (List.mem_filter.2 ⟨hk', hp k'⟩)

/-- **Canonical order.** The breadth-first order of a graph of imports is the canonical one. -/
theorem canonical_of_breadthFirst (ho : BreadthFirst (importedFiles s r) e order) :
    Canonical s r e order := by
  obtain ⟨hhead, htail⟩ := tail_eq_eraseDups ho
  have hpairwise := (pairwise_mentions s r order).filter (·.2 != e)
  -- a file other than the entry file has all its mentions among those that are left
  have hfound : ∀ {g i t}, g ∈ order.tail →
      IsFirstKey MentionedBefore ((mentions s r order).filter (·.2 != e)) g (i, t) →
      FoundAt s r order g i t := by
    intro g i t hg hk
    have hne : (g != e) = true := by
      rw [htail, List.mem_eraseDups, List.mem_map] at hg
      obtain ⟨l, hl, rfl⟩ := hg
      exact (List.mem_filter.1 hl).2
    exact foundAt_of_isFirstKey (isFirstKey_of_filter hk fun _ => hne)
  refine ⟨hhead, ?_, ?_, ?_⟩
  · have hedges : Imports s r = fun f g => g ∈ importedFiles s r f := by
      funext f g
      exact propext mem_importedFiles.symm
    rw [hedges]
    exact ho.pairwise_distance
  · intro g hg
    have hmem := hg
    rw [htail, List.mem_eraseDups] at hmem
    obtain ⟨⟨i, t⟩, hk⟩ := exists_isFirstKey hpairwise hmem
    exact ⟨i, t, hfound hg hk⟩
  · have hkeys := pairwise_isFirstKey_eraseDups hpairwise
    rw [← htail] at hkeys
    refine hkeys.imp_of_mem ?_
    rintro f g hf hg ⟨⟨i, t⟩, ⟨j, u⟩, hk, hl, hlt⟩
    exact ⟨i, t, j, u, hfound hf hk, hfound hg hl, hlt⟩

/-! ## Results -/

/-- The script `m.js` with the lines `./c`, `./b.js` and `./b`, of which the last two lead to the
same file. -/
def scriptM : SourceFile :=
  ⟨['m', Path.dot, 'j', 's'],
    [Path.dot, Path.slash, 'c', '\n', Path.dot, Path.slash, 'b', Path.dot, 'j', 's', '\n',
      Path.dot, Path.slash, 'b'], some .javascript⟩

/-- Four scripts in memory. -/
def fourScripts : MemoryFiles :=
  MemoryFiles.empty.addAll ([scriptA, scriptB, scriptC, scriptM].map SourceFile.entry)

/-- **The order of a result.** A result lists the reachable files in their canonical order. -/
theorem resolve_order_canonical (h : (resolve s r entrypoint).outcome = .ok files) :
    ∃ e order, IsEntry r entrypoint e ∧ files.entries = order.map SourceFile.entry
      ∧ (∀ f, f ∈ order ↔ Reachable s r e f) ∧ Canonical s r e order := by
  obtain ⟨e, he⟩ := exists_isEntry_of_ok h
  obtain ⟨order, hsucceeds, rfl⟩ := exists_succeeds_of_ok he h
  have ho := hsucceeds.breadthFirst
  exact ⟨e, order, he, entries_ofList (nodup_order_paths he ho), fun _ => mem_order_iff ho,
    canonical_of_breadthFirst ho⟩

/-- The script `m.js` needs `b.js` and `c.js`, and `b.js` needs `a.js`. -/
theorem fourScripts_order :
    ∃ e order, IsEntry fourScripts.reader scriptM.path e
      ∧ (OrderedMap.ofList
          ([scriptM, scriptB, scriptC, scriptA].map SourceFile.entry)).entries
          = order.map SourceFile.entry
      ∧ (∀ f, f ∈ order ↔ Reachable lineSettings fourScripts.reader e f)
      ∧ Canonical lineSettings fourScripts.reader e order :=
  have hrun : (resolve lineSettings fourScripts.reader scriptM.path).outcome
      = .ok (.ofList ([scriptM, scriptB, scriptC, scriptA].map SourceFile.entry)) := rfl
  resolve_order_canonical hrun

end ImportClosure.Resolution
