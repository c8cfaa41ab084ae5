import HeyServer.Lib.Text

/-!
# File trees with symbolic links

A tree of directories, files and symbolic links, and the walk that turns the
components of a path into the place they lead to.

## Implementation notes

A place is the list of names from the root; the names of a tree are no `.` or `..`.
The walk is bounded by the number of links it may follow: the kernel and
`filepath.EvalSymlinks` take the same walk with different bounds. It tells a place that
is there from one whose directory is there and that could be created.
-/

namespace HeyServer.Lib
open Text List Option

inductive Node
  | dir
  | file (content : Bytes)
  | link (target : Bytes)
  deriving DecidableEq

/-- The node at each place, and the names in each directory in the order they are listed. -/
structure FileTree where
  nodes : List Bytes → Option Node
  children : List Bytes → List Bytes
  root : nodes [] = some .dir
  parent : ∀ {p c}, nodes (p ++ [c]) ≠ none → nodes p = some .dir
  names : ∀ {p c}, nodes (p ++ [c]) ≠ none → isName c = true
  mem_children : ∀ {p c}, c ∈ children p ↔ nodes (p ++ [c]) ≠ none

inductive FsError
  | notExist | notDir | isDir | exists_ | tooManyLinks | invalid | busy
  deriving DecidableEq

/-- Where a path leads. -/
inductive Walk
  | found (place : List Bytes)
  | missing (place : List Bytes)
  | failed (e : FsError)
  deriving DecidableEq

namespace FileTree

/-- The walk up to the next link, which is left to `onLink`. -/
def walkWith (t : FileTree) (onLink : List Bytes → List Bytes → Walk) :
    List Bytes → List Bytes → Walk
  | cur, [] => .found cur
  | cur, c :: rest =>
    if c = [] ∨ c = dot then walkWith t onLink cur rest
    else if c = dotdot then walkWith t onLink cur.dropLast rest
    else
      match t.nodes (cur ++ [c]) with
      | none => if rest = [] then .missing (cur ++ [c]) else .failed .notExist
      | some .dir => walkWith t onLink (cur ++ [c]) rest
      | some (.file _) => if rest = [] then .found (cur ++ [c]) else .failed .notDir
      | some (.link target) => onLink (if isAbs target then [] else cur) (split 0x2F target ++ rest)

/-- The walk from a directory along components, over at most so many links. -/
def walk (t : FileTree) : Nat → List Bytes → List Bytes → Walk
  | 0 => walkWith t fun _ _ => .failed .tooManyLinks
  | links + 1 => walkWith t (t.walk links)

/-- The links the kernel follows. -/
def kernelLinks : Nat := 40

section
variable (t : FileTree)

section
variable (path : Bytes)

/-- `stat`: where an absolute path leads. -/
def lookup : Walk := t.walk kernelLinks [] (split 0x2F path)

/-- The components of an absolute path. -/
def pathNames : List Bytes := (split 0x2F path).filter (· ≠ [])

/-- `filepath.EvalSymlinks` of an absolute path. -/
def evalSymlinks : Except FsError Bytes :=
  match t.walk 255 [] (split 0x2F path) with
  | .found p => .ok (absolute p)
  | .missing _ => .error .notExist
  | .failed e => .error e

/-- The directory the kernel comes to. -/
def directory : Option (List Bytes) :=
  match t.lookup path with
  | .found p => if t.nodes p = some .dir then some p else none
  | _ => none

end

/-- The place holds a directory or a file. -/
def Resolved (p : List Bytes) : Prop :=
  t.nodes p = some .dir ∨ ∃ content, t.nodes p = some (.file content)

end

section Lemmas
variable {t : FileTree} {p cur cs : List Bytes} {onLink : List Bytes → List Bytes → Walk}

theorem Resolved.ne_none (h : t.Resolved p) : t.nodes p ≠ none := by
  rcases h with h | ⟨content, h⟩ <;> simp [h]

theorem isName_of_mem (h : t.nodes p ≠ none) : ∀ c ∈ p, isName c = true := by
  induction p using reverseRecOn with
  | nil => simp
  | append_singleton p c ih =>
    have hp : t.nodes p ≠ none := by
      rw [t.parent h]
      exact some_ne_none _
    exact forall_mem_append.mpr ⟨ih hp, forall_mem_singleton.mpr (t.names h)⟩

theorem dir_dropLast (h : t.nodes p = some .dir) : t.nodes p.dropLast = some .dir := by
  rcases eq_nil_or_concat p with rfl | ⟨q, c, rfl⟩
  · exact h
  · rw [concat_eq_append, dropLast_concat]
    rw [concat_eq_append] at h
    exact t.parent (by rw [h]; exact some_ne_none _)

/-- Where a walk can end: at a directory or file, or at a free place in a directory. -/
def Ends (t : FileTree) : Walk → Prop
  | .found p => t.Resolved p
  | .missing q => ∃ p c, q = p ++ [c] ∧ t.nodes p = some .dir ∧ t.nodes q = none
  | .failed _ => True

theorem walkWith_ends (hlink : ∀ cur cs, t.nodes cur = some .dir → t.Ends (onLink cur cs))
    (hcur : t.nodes cur = some .dir) (cs : List Bytes) : t.Ends (walkWith t onLink cur cs) := by
  fun_induction walkWith t onLink cur cs with
  | case1 => exact .inl hcur
  | case2 _ _ _ _ ih => exact ih hcur
  | case3 _ _ _ ih => exact ih (dir_dropLast hcur)
  | case4 cur c _ _ hnode => exact ⟨cur, c, rfl, hcur, hnode⟩
  | case6 _ _ _ _ _ hnode ih => exact ih hnode
  | case7 _ _ _ _ content hnode => exact .inr ⟨content, hnode⟩
  | case9 =>
    refine hlink _ _ ?_
    split_ifs
    · exact t.root
    · exact hcur
  | case5 | case8 => trivial

variable (links : Nat)

theorem walk_ends (hcur : t.nodes cur = some .dir) (cs : List Bytes) :
    t.Ends (t.walk links cur cs) := by
  induction links generalizing cur cs with
  | zero =>
    refine walkWith_ends ?_ hcur cs
    exact fun _ _ _ => trivial
  | succ links ih =>
    refine walkWith_ends ?_ hcur cs
    exact fun _ rest hdir => ih hdir rest

/-- A walk that does not run out of links does not change with more of them. -/
theorem walkWith_mono {first second : List Bytes → List Bytes → Walk}
    (h : ∀ cur cs, first cur cs ≠ .failed .tooManyLinks → second cur cs = first cur cs)
    (cur cs : List Bytes) (hend : walkWith t first cur cs ≠ .failed .tooManyLinks) :
    walkWith t second cur cs = walkWith t first cur cs := by
  fun_induction walkWith t first cur cs with
  | case1 => rfl
  | case2 _ _ _ hskip ih => rw [walkWith, if_pos hskip, ih hend]
  | case3 _ _ hskip ih => rw [walkWith, if_neg hskip, if_pos rfl, ih hend]
  | case6 _ _ _ hskip hup hnode ih => rw [walkWith, if_neg hskip, if_neg hup, hnode, ← ih hend]
  | case9 _ _ _ hskip hup _ hnode =>
    rw [walkWith, if_neg hskip, if_neg hup, hnode]
    exact h _ _ hend
  | case4 | case5 | case7 | case8 => simp [walkWith, *]

theorem walk_succ (cur cs : List Bytes) (h : t.walk links cur cs ≠ .failed .tooManyLinks) :
    t.walk (links + 1) cur cs = t.walk links cur cs := by
  induction links generalizing cur cs with
  | zero => exact walkWith_mono (fun _ _ hend => absurd rfl hend) cur cs h
  | succ links ih => exact walkWith_mono ih cur cs h

theorem walk_mono {few many : Nat} (hle : few ≤ many)
    (h : t.walk few cur cs ≠ .failed .tooManyLinks) : t.walk many cur cs = t.walk few cur cs := by
  induction many, hle using Nat.le_induction with
  | base => rfl
  | succ many _ ih => rw [walk_succ many cur cs (by rw [ih]; exact h), ih]

/-- Leading separators of an absolute path do not count. -/
theorem walk_absolute {names : List Bytes} (h : ∀ c ∈ names, 0x2F ∉ c) :
    t.walk links [] (split 0x2F (absolute names)) = t.walk links [] names := by
  have hsplit : split 0x2F (absolute names) = [] :: split 0x2F (join 0x2F names) := by
    rw [absolute, split, if_pos rfl]
  have hskip : ∀ cs, t.walk links [] ([] :: cs) = t.walk links [] cs := by
    intro cs
    cases links <;> rfl
  rw [hsplit, hskip]
  by_cases hnil : names = []
  · subst hnil
    exact hskip []
  · rw [split_join hnil h]

/-- A component that a walk passes over. -/
def passed (c : Bytes) : Bool := c = [] || c = dot

/-- The components without some that a walk passes over. -/
inductive Thinned : List Bytes → List Bytes → Prop
  | nil : Thinned [] []
  | keep (c : Bytes) {cs ds : List Bytes} (rest : Thinned cs ds) : Thinned (c :: cs) (c :: ds)
  | drop {c : Bytes} {cs ds : List Bytes} (hc : passed c = true) (rest : Thinned cs ds) :
      Thinned (c :: cs) ds

variable {ds : List Bytes}

theorem Thinned.append (names : List Bytes) (h : Thinned cs ds) :
    Thinned (names ++ cs) (names ++ ds) := by
  induction names with
  | nil => exact h
  | cons c names ih => exact .keep c ih

theorem thinned_filter (cs : List Bytes) : Thinned cs (cs.filter (!passed ·)) := by
  induction cs with
  | nil => exact .nil
  | cons c cs ih =>
    by_cases hc : passed c = true
    · rw [filter_cons_of_neg (by simp [hc])]
      exact .drop hc ih
    · rw [filter_cons_of_pos (by simp [hc])]
      exact .keep c ih

/-- What a walk finds it also finds without components it passes over. -/
theorem walkWith_thinned
    (hlink : ∀ cur cs ds, Thinned cs ds → onLink cur cs = .found p → onLink cur ds = .found p)
    (hthinned : Thinned cs ds) (h : walkWith t onLink cur cs = .found p) :
    walkWith t onLink cur ds = .found p := by
  induction hthinned generalizing cur with
  | nil => exact h
  | drop hc _ ih =>
    rw [walkWith, if_pos (by simpa [passed] using hc)] at h
    exact ih h
  | @keep c cs ds rest ih =>
    rw [walkWith] at h ⊢
    by_cases hskip : c = [] ∨ c = dot
    · rw [if_pos hskip] at h ⊢
      exact ih h
    rw [if_neg hskip] at h ⊢
    by_cases hup : c = dotdot
    · rw [if_pos hup] at h ⊢
      exact ih h
    rw [if_neg hup] at h ⊢
    cases hnode : t.nodes (cur ++ [c]) with
    | none =>
      rw [hnode] at h
      split_ifs at h
    | some node =>
      rw [hnode] at h
      cases node with
      | dir => exact ih h
      | file content =>
        split_ifs at h with hrest
        subst hrest
        cases rest
        exact h
      | link target => exact hlink _ _ _ (rest.append _) h

theorem walk_thinned (hthinned : Thinned cs ds)
    (h : t.walk links cur cs = .found p) : t.walk links cur ds = .found p := by
  induction links generalizing cur cs ds with
  | zero =>
    refine walkWith_thinned ?_ hthinned h
    intro _ _ _ _ hfound
    cases hfound
  | succ links ih => exact walkWith_thinned (fun _ _ _ hrest hfound => ih hrest hfound) hthinned h

end Lemmas

/-! ## Trees that are written down -/

section
variable (entries : List (List Bytes × Node))

/-- The node a list of entries has at a place. -/
def nodeOf (p : List Bytes) : Option Node :=
  if p = [] then some .dir else (entries.find? (·.1 = p)).map (·.2)

/-- Every entry has a name and lies in a directory. -/
def wellPlaced : Bool :=
  entries.all fun e =>
    e.1 ≠ [] && isName (e.1.getLastD []) && nodeOf entries e.1.dropLast = some .dir

end

variable {entries : List (List Bytes × Node)}

theorem nodeOf_concat_ne_none {p : List Bytes} {c : Bytes} :
    nodeOf entries (p ++ [c]) ≠ none ↔ ∃ e ∈ entries, e.1 = p ++ [c] := by
  have hne : p ++ [c] ≠ [] := append_ne_nil_of_right_ne_nil _ (cons_ne_nil c [])
  rw [nodeOf, if_neg hne, Ne, map_eq_none_iff, ← Ne, ← isSome_iff_ne_none, find?_isSome]
  simp

theorem of_wellPlaced (h : wellPlaced entries = true)
    {p : List Bytes} {c : Bytes} (hnode : nodeOf entries (p ++ [c]) ≠ none) :
    isName c = true ∧ nodeOf entries p = some .dir := by
  obtain ⟨e, he, hplace⟩ := nodeOf_concat_ne_none.mp hnode
  have hentry := all_eq_true.mp h e he
  rw [hplace] at hentry
  simpa using hentry

/-- The tree with these entries. -/
def ofEntries (entries : List (List Bytes × Node)) (h : wellPlaced entries = true) : FileTree where
  nodes := nodeOf entries
  children p := (entries.filter fun e => e.1.dropLast = p && e.1 ≠ []).map (·.1.getLastD [])
  root := if_pos rfl
  parent hnode := (of_wellPlaced h hnode).2
  names hnode := (of_wellPlaced h hnode).1
  mem_children := by
    intro p c
    rw [nodeOf_concat_ne_none, List.mem_map]
    constructor
    · rintro ⟨e, he, rfl⟩
      obtain ⟨hmem, hplace⟩ := List.mem_filter.mp he
      obtain ⟨hdrop, hne⟩ := Bool.and_eq_true_iff.mp hplace
      have hdrop : e.1.dropLast = p := of_decide_eq_true hdrop
      have hne : e.1 ≠ [] := of_decide_eq_true hne
      refine ⟨e, hmem, ?_⟩
      rw [← hdrop, List.getLastD_eq_getLast?, List.getLast?_eq_some_getLast hne, Option.getD_some,
        List.dropLast_append_getLast hne]
    · rintro ⟨e, he, hplace⟩
      refine ⟨e, List.mem_filter.mpr ⟨he, ?_⟩, ?_⟩
      · simp [hplace]
      · simp [hplace]

end FileTree

end HeyServer.Lib
