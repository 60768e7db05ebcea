import ImportClosure.Proofs.Footprint
import ImportClosure.Proofs.Memory
/-!
Files in memory, asked in between.

Files are added to a memory, read from it and resolved over it, in any order (`Request`). What has
been added to it is a list of paths and texts, and of this list only one thing is left: for each
normal form of a path, the text that was added last (`lastAdded`). Two memories that agree on that
hold the same (`Alike`), although they may list it in another order, and a request is answered alike
by both and leaves them alike (`Alike.handle`). So the answers to whatever is asked next depend on
nothing else that was done before (`alike_after`).
-/

namespace ImportClosure.MemoryFiles

variable {m m' : MemoryFiles} {added added' : List (Text × Text)} {path content q : Text}

/-! ## What is left of the files added -/

/-- The text that was added last at a spelling of this path. -/
def lastAdded (added : List (Text × Text)) (path : Text) : Option Text :=
  (added.reverse.find? fun f => Path.normalize f.1 = Path.normalize path).map Prod.snd

/-- Only the normal forms of the paths matter. -/
theorem lastAdded_eq (added : List (Text × Text)) (path : Text) : lastAdded added path
    = ((added.map fun f => (Path.normalize f.1, f.2)).reverse.find? fun f =>
      f.1 = Path.normalize path).map Prod.snd := by
  unfold lastAdded
  rw [← List.map_reverse, List.find?_map, Option.map_map]
  rfl

/-- For each path the same text was added last. -/
def SameLast (added added' : List (Text × Text)) : Prop :=
  ∀ path, lastAdded added path = lastAdded added' path

theorem addAll_append_singleton (f : Text × Text) :
    m.addAll (added ++ [f]) = (m.addAll added).add f.1 f.2 := by
  unfold addAll
  rw [List.foldl_append]
  rfl

theorem get?_addAll (added : List (Text × Text)) (k : Text) :
    (empty.addAll added).files.get? k
      = (added.reverse.find? fun f => Path.normalize f.1 = k).map Prod.snd := by
  -- the induction is from the end, where the text stands that counts
  induction added using List.reverseRecOn with
  | nil => rfl
  | append_singleton added f ih =>
    have hadd : (empty.addAll (added ++ [f])).files
        = (empty.addAll added).files.insert (Path.normalize f.1) f.2 := by
      rw [addAll_append_singleton]
      rfl
    rw [hadd, OrderedMap.get?_insert, ih, List.reverse_append, List.reverse_singleton,
      List.singleton_append, List.find?_cons]
    by_cases hk : Path.normalize f.1 = k
    · rw [if_pos hk, decide_eq_true hk]
      rfl
    · rw [if_neg hk, decide_eq_false hk]

/-- **Reading.** A path has the text that was added last at any of its spellings. -/
theorem read_addAll (added : List (Text × Text)) (q : Text) :
    (empty.addAll added).read q = match lastAdded added q with
      | some content => .ok content
      | none => .error (.noSuchFile q) := by
  have hget : (empty.addAll added).files.get? (Path.normalize q) = lastAdded added q :=
    get?_addAll added _
  unfold read
  cases hlast : lastAdded added q with
  | none => rw [hget, hlast]
  | some content => rw [hget, hlast]

theorem mem_keys_addAll : q ∈ (empty.addAll added).files.keys
    ↔ ∃ f ∈ added, Path.normalize f.1 = q := by
  rw [← not_iff_not, ← OrderedMap.get?_eq_none_iff, get?_addAll, Option.map_eq_none_iff,
    List.find?_eq_none]
  simp

/-- There are as many files as normal forms of the paths. -/
theorem size_addAll (added : List (Text × Text)) :
    ((empty.addAll added).size : ℕ∞) = {q | ∃ f ∈ added, Path.normalize f.1 = q}.encard := by
  have hset : {q | ∃ f ∈ added, Path.normalize f.1 = q}
      = {q | q ∈ (empty.addAll added).files.keys} := by
    ext q
    exact mem_keys_addAll.symm
  rw [hset, Resolution.encard_of_nodup (OrderedMap.nodup_keys _)]
  unfold size OrderedMap.size OrderedMap.keys
  rw [List.length_map]

/-! ## Memories that hold the same -/

/-- The memories hold the same texts at the same paths. -/
def Alike (m m' : MemoryFiles) : Prop := ∀ k, m.files.get? k = m'.files.get? k

theorem SameLast.alike (h : SameLast added added') :
    Alike (empty.addAll added) (empty.addAll added') := by
  intro k
  rw [get?_addAll, get?_addAll]
  by_cases hk : Path.IsNormal k
  · have hlast := h k
    unfold lastAdded at hlast
    rwa [show Path.normalize k = k from hk] at hlast
  · -- nothing is kept at a path that is not normal
    have hnone : ∀ fs : List (Text × Text),
        fs.reverse.find? (fun f => Path.normalize f.1 = k) = none := by
      intro fs
      rw [List.find?_eq_none]
      intro f _ hf
      exact hk (of_decide_eq_true hf ▸ Path.isNormal_normalize f.1)
    rw [hnone, hnone]

namespace Alike

theorem read_eq (h : Alike m m') : m.read = m'.read := by
  funext q
  unfold read
  rw [h]

theorem size_eq (h : Alike m m') : m.size = m'.size := by
  -- the paths may be listed in another order, but they are the same
  have hkeys : m.files.keys.Perm m'.files.keys := by
    refine (List.perm_ext_iff_of_nodup m.files.nodup_keys m'.files.nodup_keys).2 fun k => ?_
    rw [OrderedMap.mem_keys_iff, OrderedMap.mem_keys_iff, h]
  have hlength := hkeys.length_eq
  unfold OrderedMap.keys at hlength
  rwa [List.length_map, List.length_map] at hlength

theorem add (h : Alike m m') (path content : Text) :
    Alike (m.add path content) (m'.add path content) := by
  intro k
  unfold MemoryFiles.add
  rw [OrderedMap.get?_insert, OrderedMap.get?_insert, h]

/-- A run does not tell two such memories apart. -/
theorem resolve_eq (h : Alike m m') (s : Settings) (entrypoint : Text) :
    (resolve s m.reader entrypoint).outcome = (resolve s m'.reader entrypoint).outcome := by
  have hread : m.reader.read = m'.reader.read := h.read_eq
  have hagree : ∀ path, m'.reader.Agree m.reader path := by
    intro path content
    rw [hread]
  -- the readers agree on all paths, so on those that a run asks for
  have halike : Resolution.LooksAlike s m'.reader m.reader entrypoint := by
    constructor
    · unfold Reader.answer
      rw [hread]
    · exact fun _ _ _ _ _ _ _ _ _ q _ => hagree q
  by_cases hentry : ∃ e, Resolution.IsEntry m'.reader entrypoint e
  · obtain ⟨e, he⟩ := hentry
    rw [halike.resolve_eq m'.isFinite_reader m.isFinite_reader he]
  · exact halike.outcome_eq_of_not_isEntry fun e he => hentry ⟨e, he⟩

end Alike

/-! ## Sessions -/

/-- What is asked of files in memory. -/
inductive Request where
  /-- To add or replace a file. -/
  | add (path content : Text)
  /-- The text at a path. -/
  | read (path : Text)
  /-- The files that an entrypoint needs, under some settings. -/
  | resolve (s : Settings) (entrypoint : Text)

/-- What is answered. -/
inductive Reply where
  /-- The number of files. -/
  | size (n : Nat)
  /-- A text, or why there is none. -/
  | text (t : Except ReadFailure Text)
  /-- The files, or why there are none. -/
  | files (outcome : Except Failure (OrderedMap Text Text))

/-- The files after a request, and the answer. -/
def handle (m : MemoryFiles) : Request → MemoryFiles × Reply
  | .add path content => (m.add path content, .size (m.add path content).size)
  | .read path => (m, .text (m.read path))
  | .resolve s entrypoint => (m, .files (ImportClosure.resolve s m.reader entrypoint).outcome)

/-- The files after some requests. -/
def after (m : MemoryFiles) (requests : List Request) : MemoryFiles :=
  requests.foldl (fun m r => (m.handle r).1) m

/-- The answers to some requests. -/
def replies (m : MemoryFiles) : List Request → List Reply
  | [] => []
  | r :: rs => (m.handle r).2 :: replies (m.handle r).1 rs

/-- What is added in the course of some requests. -/
def additions (requests : List Request) : List (Text × Text) :=
  requests.filterMap fun
    | .add path content => some (path, content)
    | _ => none

/-- Nothing but what was added is left of the requests. -/
theorem after_eq_addAll (m : MemoryFiles) (requests : List Request) :
    m.after requests = m.addAll (additions requests) := by
  induction requests generalizing m with
  | nil => rfl
  | cons r rs ih =>
    have hcons : m.after (r :: rs) = (m.handle r).1.after rs := rfl
    rw [hcons, ih]
    cases r <;> rfl

/-- A request is answered alike, and leaves alike what was. -/
theorem Alike.handle (h : Alike m m') (r : Request) :
    Alike (m.handle r).1 (m'.handle r).1 ∧ (m.handle r).2 = (m'.handle r).2 := by
  cases r with
  | add path content =>
    have hadd := h.add path content
    exact ⟨hadd, congrArg Reply.size hadd.size_eq⟩
  | read path => exact ⟨h, congrArg Reply.text (congrFun h.read_eq path)⟩
  | resolve s entrypoint => exact ⟨h, congrArg Reply.files (h.resolve_eq s entrypoint)⟩

theorem Alike.replies_eq (h : Alike m m') (requests : List Request) :
    m.replies requests = m'.replies requests := by
  induction requests generalizing m m' with
  | nil => rfl
  | cons r rs ih =>
    obtain ⟨hafter, hreply⟩ := h.handle r
    unfold replies
    rw [hreply, ih hafter]

/-- **Sessions.** Where for each path the same text was added last, under whatever spellings, in
whatever order and however often it was replaced before, two memories are told apart by nothing.
They have as many files as there are normal forms of the paths, they read at each path the text that
was added last at one of its spellings, or say that there is no file of this name, and every run
over them comes to the same files in the same order, or to the same error. That holds of two
sessions as well, wherever in them files were read or resolved: whatever is asked next is answered
alike. -/
theorem alike_after (h : SameLast added added') :
    (empty.addAll added).size = (empty.addAll added').size
      ∧ ((empty.addAll added).size : ℕ∞) = {q | ∃ f ∈ added, Path.normalize f.1 = q}.encard
      ∧ (∀ q, (empty.addAll added).read q = (empty.addAll added').read q
        ∧ (∀ content, (empty.addAll added).read q = .ok content
          ↔ lastAdded added q = some content)
        ∧ (lastAdded added q = none ↔ (empty.addAll added).read q = .error (.noSuchFile q))
        ∧ (ReadFailure.noSuchFile q).message = "No such file: " ++ q)
      ∧ (∀ s entrypoint, (resolve s (empty.addAll added).reader entrypoint).outcome
        = (resolve s (empty.addAll added').reader entrypoint).outcome)
      ∧ ∀ before before', additions before = added → additions before' = added' →
        ∀ requests, (empty.after before).replies requests
          = (empty.after before').replies requests := by
  have halike := h.alike
  refine ⟨halike.size_eq, size_addAll added, ?_, halike.resolve_eq, ?_⟩
  · intro q
    refine ⟨congrFun halike.read_eq q, ?_, ?_, rfl⟩
    all_goals
      rw [read_addAll]
      cases lastAdded added q <;> simp
  · -- of what was done before, only what was added is left
    rintro before before' rfl rfl requests
    rw [after_eq_addAll, after_eq_addAll]
    exact halike.replies_eq requests

/-- A session in which a file is replaced under other spellings of its path, and read and resolved
in between. -/
def respelling : List Request :=
  [.add "a/../b.js" ['x'], .resolve Resolution.lineSettings "b.js", .add "//./b.js" ['z'],
    .read "///b.js", .add ".//b.js" ['y']]

/-- A session that leaves the same files. -/
def plainSpelling : List Request := [.add "b.js" ['y'], .add "//b.js" ['z']]

theorem sameLast_respelling : SameLast (additions respelling) (additions plainSpelling) := by
  have hspelled : (additions respelling).map (fun f => (Path.normalize f.1, f.2))
      = ([("b.js", ['x']), ("//b.js", ['z']), ("b.js", ['y'])] : List (Text × Text)) := by decide
  have hplain : (additions plainSpelling).map (fun f => (Path.normalize f.1, f.2))
      = ([("b.js", ['y']), ("//b.js", ['z'])] : List (Text × Text)) := by decide
  intro path
  rw [lastAdded_eq, lastAdded_eq, hspelled, hplain]
  generalize Path.normalize path = k
  by_cases hk : k = Text.ofString "b.js"
  · rw [hk]
    decide
  · by_cases hk' : k = Text.ofString "//b.js"
    · rw [hk']
      decide
    · simp [Ne.symm hk, Ne.symm hk']

/-- After both sessions every run comes to the same, and there are two files. -/
theorem respelling_alike :
    SameLast (additions respelling) (additions plainSpelling)
      ∧ (empty.addAll (additions respelling)).size = 2
      ∧ ∀ requests, (empty.after respelling).replies requests
        = (empty.after plainSpelling).replies requests := by
  obtain ⟨hsize, -, -, -, hsession⟩ := alike_after sameLast_respelling
  exact ⟨sameLast_respelling, hsize, hsession respelling plainSpelling rfl rfl⟩

end ImportClosure.MemoryFiles
