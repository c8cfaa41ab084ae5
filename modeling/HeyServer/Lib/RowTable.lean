import Mathlib.Data.List.Nodup

/-!
# Tables with an automatic key

An SQL table whose primary key is handed out by the database in ascending order
and never again. The statements are those a program issues: insert a row, update
or select the rows a condition holds of.

## Implementation notes

Every statement is described by what it does to `get?`, so proofs about a program
look at one row at a time.
-/

namespace HeyServer.Lib
open List Option

/-- Rows in key order; `seq` is the largest key handed out. -/
@[ext] structure RowTable (ρ : Type) where
  rows : List (Nat × ρ)
  seq : Nat
  sorted : rows.Pairwise fun a b => a.1 < b.1
  bounded : ∀ row ∈ rows, row.1 ≤ seq

namespace RowTable
variable {ρ : Type}

def empty : RowTable ρ := ⟨[], 0, List.Pairwise.nil, by simp⟩

section
variable (t : RowTable ρ)

/-- The row under a key. -/
def get? (id : Nat) : Option ρ :=
  (t.rows.find? fun row => row.1 = id).map Prod.snd

/-- `INSERT`: the new row gets the key after the last one. -/
def insert (r : ρ) : RowTable ρ where
  rows := t.rows ++ [(t.seq + 1, r)]
  seq := t.seq + 1
  sorted := by
    rw [List.pairwise_append]
    refine ⟨t.sorted, List.pairwise_singleton _ _, ?_⟩
    intro a ha b hb
    rw [List.mem_singleton.mp hb]
    exact Nat.lt_succ_of_le (t.bounded a ha)
  bounded := by
    intro row hrow
    rcases List.mem_append.mp hrow with hrow | hrow
    · exact Nat.le_succ_of_le (t.bounded row hrow)
    · exact Nat.le_of_eq (congrArg Prod.fst (List.mem_singleton.mp hrow))

section
variable (p : Nat → ρ → Bool)

/-- `UPDATE … WHERE p` -/
def update (f : ρ → ρ) : RowTable ρ where
  rows := t.rows.map fun row => (row.1, if p row.1 row.2 then f row.2 else row.2)
  seq := t.seq
  sorted := by
    rw [List.pairwise_map]
    exact t.sorted
  bounded := by
    intro row hrow
    obtain ⟨old, hold, rfl⟩ := List.mem_map.mp hrow
    exact t.bounded old hold

/-- `DELETE … WHERE p` -/
def delete : RowTable ρ where
  rows := t.rows.filter fun row => !p row.1 row.2
  seq := t.seq
  sorted := t.sorted.filter _
  bounded := fun row hrow => t.bounded row (List.mem_filter.mp hrow).1

/-- `SELECT … WHERE p ORDER BY id` -/
def select : List (Nat × ρ) :=
  t.rows.filter fun row => p row.1 row.2

/-- `SELECT … WHERE p ORDER BY id LIMIT 1` -/
def first? : Option (Nat × ρ) := (t.select p).head?

/-- `SELECT … WHERE p ORDER BY id DESC LIMIT n` -/
def latest (n : Nat) : List (Nat × ρ) :=
  (t.select p).reverse.take n

end

end

@[simp] theorem get?_empty (id : Nat) : (empty : RowTable ρ).get? id = none := rfl

variable {t : RowTable ρ} {id : Nat} {r : ρ} {p : Nat → ρ → Bool}

theorem mem_rows : (id, r) ∈ t.rows ↔ t.get? id = some r := by
  rw [get?, map_eq_some_iff]
  constructor
  · intro hmem
    obtain ⟨row, hrow⟩ : ∃ row, (t.rows.find? fun row => row.1 = id) = some row :=
      isSome_iff_exists.mp (find?_isSome.mpr ⟨(id, r), hmem, by simp⟩)
    have hid : row.1 = id := by simpa using find?_some hrow
    refine ⟨row, hrow, ?_⟩
    have hkeys : (t.rows.map Prod.fst).Nodup := pairwise_map.mpr (t.sorted.imp Nat.ne_of_lt)
    have heq := inj_on_of_nodup_map hkeys (mem_of_find?_eq_some hrow) hmem hid
    exact congrArg Prod.snd heq
  · rintro ⟨row, hrow, rfl⟩
    have hid : row.1 = id := by simpa using find?_some hrow
    rw [← hid]
    exact mem_of_find?_eq_some hrow

theorem get?_le_seq (h : t.get? id = some r) : id ≤ t.seq :=
  t.bounded _ (mem_rows.mpr h)

theorem get?_insert (t : RowTable ρ) (r : ρ) (id : Nat) :
    (t.insert r).get? id = if id = t.seq + 1 then some r else t.get? id := by
  split_ifs with hid
  · apply mem_rows.mp
    rw [hid]
    exact mem_append_right _ (mem_singleton_self _)
  · ext r'
    rw [← mem_rows, ← mem_rows]
    constructor
    · intro hmem
      rcases mem_append.mp hmem with hmem | hmem
      · exact hmem
      · exact absurd (congrArg Prod.fst (mem_singleton.mp hmem)) hid
    · exact fun hmem => mem_append_left _ hmem

theorem get?_update (t : RowTable ρ) (p : Nat → ρ → Bool) (f : ρ → ρ) (id : Nat) :
    (t.update p f).get? id = (t.get? id).map fun r => if p id r then f r else r := by
  ext r'
  rw [← mem_rows, map_eq_some_iff]
  constructor
  · intro hmem
    obtain ⟨⟨key, r⟩, hrow, heq⟩ := mem_map.mp hmem
    cases heq
    exact ⟨r, mem_rows.mp hrow, rfl⟩
  · rintro ⟨r, hget, rfl⟩
    exact mem_map.mpr ⟨(id, r), mem_rows.mpr hget, rfl⟩

theorem get?_delete (t : RowTable ρ) (p : Nat → ρ → Bool) (id : Nat) :
    (t.delete p).get? id = (t.get? id).filter fun r => !p id r := by
  ext r
  rw [← mem_rows, filter_eq_some_iff, ← mem_rows]
  exact mem_filter

/-- An update that names no row changes nothing. -/
theorem update_eq_self (h : t.select p = []) (f : ρ → ρ) : t.update p f = t := by
  have hrow : ∀ row ∈ t.rows, ¬ p row.1 row.2 = true := filter_eq_nil_iff.mp h
  apply RowTable.ext
  · calc t.rows.map (fun row => (row.1, if p row.1 row.2 then f row.2 else row.2))
        = t.rows.map id := map_congr_left fun row hmem => by rw [if_neg (hrow row hmem)]; rfl
      _ = t.rows := map_id t.rows
  · rfl

theorem mem_select : (id, r) ∈ t.select p ↔ t.get? id = some r ∧ p id r = true := by
  rw [select, mem_filter, mem_rows]

theorem select_insert (t : RowTable ρ) (r : ρ) (p : Nat → ρ → Bool) :
    (t.insert r).select p = t.select p ++ if p (t.seq + 1) r then [(t.seq + 1, r)] else [] := by
  rw [select, insert, filter_append, select]
  by_cases hp : p (t.seq + 1) r = true <;> simp [hp]

/-- An update after which its condition fails leaves nothing to select with it. -/
theorem select_update_self {f : ρ → ρ}
    (h : ∀ id r, p id r = true → p id (f r) = false) : (t.update p f).select p = [] := by
  apply filter_eq_nil_iff.mpr
  intro row hrow
  obtain ⟨old, -, rfl⟩ := mem_map.mp hrow
  by_cases hp : p old.1 old.2 = true
  · simp [hp, h _ _ hp]
  · simp [hp]

/-- An update of rows that a condition never selects leaves its selection as it is. -/
theorem select_update_of_disjoint {q : Nat → ρ → Bool} {f : ρ → ρ}
    (h : ∀ id r, p id r = true → q id r = false ∧ q id (f r) = false) :
    (t.update p f).select q = t.select q := by
  have hrows : ∀ rows : List (Nat × ρ),
      (rows.map fun row => (row.1, if p row.1 row.2 then f row.2 else row.2)).filter
        (fun row => q row.1 row.2) = rows.filter fun row => q row.1 row.2 := by
    intro rows
    induction rows with
    | nil => rfl
    | cons row rows ih =>
      rw [map_cons, filter_cons, filter_cons, ih]
      by_cases hp : p row.1 row.2 = true
      · simp [hp, h _ _ hp]
      · simp [hp]
  exact hrows t.rows

theorem select_sorted (t : RowTable ρ) (p : Nat → ρ → Bool) :
    (t.select p).Pairwise fun a b => a.1 < b.1 :=
  t.sorted.filter _

/-- The first row selected is the one with the least key. -/
theorem first?_eq_some (h : t.first? p = some (id, r)) : t.get? id = some r ∧ p id r = true ∧
      ∀ id' r', t.get? id' = some r' → p id' r' = true → id ≤ id' := by
  obtain ⟨rest, hrest⟩ := head?_eq_some_iff.mp h
  obtain ⟨hget, hp⟩ := mem_select.mp (hrest ▸ mem_cons_self)
  refine ⟨hget, hp, ?_⟩
  intro id' r' hget' hp'
  have hmem := mem_select.mpr ⟨hget', hp'⟩
  rw [hrest] at hmem
  rcases mem_cons.mp hmem with heq | hmem
  · exact Nat.le_of_eq (congrArg Prod.fst heq).symm
  · have hsorted := t.select_sorted p
    rw [hrest] at hsorted
    exact Nat.le_of_lt (rel_of_pairwise_cons hsorted hmem)

/-- A condition on one key selects at most that row. -/
theorem select_key (t : RowTable ρ) (p : Nat → ρ → Bool) (id : Nat)
    (hp : ∀ id' r, p id' r = true → id' = id) : t.select p = match t.get? id with
      | some r => if p id r then [(id, r)] else []
      | none => [] := by
  have hunique : ∀ row ∈ t.select p, t.get? id = some row.2 ∧ p id row.2 = true ∧ row.1 = id := by
    rintro ⟨id', r⟩ hmem
    obtain ⟨hget, hrow⟩ := mem_select.mp hmem
    obtain rfl := hp id' r hrow
    exact ⟨hget, hrow, rfl⟩
  cases hsel : t.select p with
  | nil =>
    cases hget : t.get? id with
    | none => rfl
    | some r =>
      by_cases hrow : p id r = true
      · have hmem := mem_select.mpr ⟨hget, hrow⟩
        rw [hsel] at hmem
        cases hmem
      · simp [hrow]
  | cons row rest =>
    rw [hsel] at hunique
    obtain ⟨hget, hrow, hid⟩ := hunique row mem_cons_self
    have hrest : rest = [] := by
      apply eq_nil_iff_forall_not_mem.mpr
      intro other hother
      have hsorted := t.select_sorted p
      rw [hsel] at hsorted
      have hlt := rel_of_pairwise_cons hsorted hother
      rw [hid, (hunique other (mem_cons_of_mem _ hother)).2.2] at hlt
      exact Nat.lt_irrefl _ hlt
    have hpair : row = (id, row.2) := Prod.ext hid rfl
    rw [hget, hrest]
    simpa [hrow] using hpair

end RowTable

end HeyServer.Lib
