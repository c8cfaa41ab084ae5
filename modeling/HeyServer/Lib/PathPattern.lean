import HeyServer.Lib.Text

/-!
# Exclude patterns of paths

A pattern is a list of components. A rooted pattern is compared with a path from its first
component on, any other pattern from any component on. A path is excluded if the pattern describes
it or a directory above it. The component `**` stands for any number of components.

## Implementation notes

How a single component is compared with a name is a parameter; components of letters, digits,
hyphens and underscores stand for themselves.
-/

namespace HeyServer.Lib
open Text List

namespace PathPattern

/-- A byte that means itself in every pattern. -/
def plainByte (b : UInt8) : Bool :=
  (0x61 ≤ b && b ≤ 0x7A) || (0x41 ≤ b && b ≤ 0x5A) || (0x30 ≤ b && b ≤ 0x39) || b = 0x2D || b = 0x5F

/-- How a component of a pattern is compared with a name. -/
structure Glob where
  accepts : Bytes → Bytes → Bool
  plain : ∀ p, p.all plainByte = true → ∀ c, accepts p c = true ↔ c = p

/-- Every component stands for itself. -/
def Glob.literal : Glob where
  accepts p c := c = p
  plain _ _ _ := decide_eq_true_iff

def doubleStar : Bytes := [0x2A, 0x2A]

theorem ne_doubleStar {p : Bytes} (h : p.all plainByte = true) : p ≠ doubleStar := by
  rintro rfl
  exact absurd h (by decide)

/-- The components describe a front of the path. -/
def matchFront (g : Glob) : List Bytes → List Bytes → Bool
  | [], _ => true
  | p :: ps, path =>
    if p = doubleStar then path.tails.any (matchFront g ps)
    else
      match path with
      | [] => false
      | c :: cs => g.accepts p c && matchFront g ps cs

structure Pattern where
  rooted : Bool
  parts : List Bytes
deriving DecidableEq

namespace Pattern

/-- The pattern written `s`. -/
def parse (s : Bytes) : Pattern :=
  if isAbs s then ⟨true, split 0x2F s.tail⟩ else ⟨false, split 0x2F s⟩

def excludes (g : Glob) (p : Pattern) (path : List Bytes) : Bool :=
  if p.rooted then matchFront g p.parts path else path.tails.any (matchFront g p.parts)

end Pattern

/-! ## What components describe -/

/-- The components describe the whole path. -/
inductive Describes (g : Glob) : List Bytes → List Bytes → Prop
  | nil : Describes g [] []
  | name {p c : Bytes} {ps cs : List Bytes} (hp : p ≠ doubleStar) (hc : g.accepts p c = true)
      (rest : Describes g ps cs) : Describes g (p :: ps) (c :: cs)
  | skip {ps cs : List Bytes} (rest : Describes g ps cs) : Describes g (doubleStar :: ps) cs
  | wild {c : Bytes} {ps cs : List Bytes} (rest : Describes g (doubleStar :: ps) cs) :
      Describes g (doubleStar :: ps) (c :: cs)

variable {g : Glob} {ps qs cs : List Bytes}

theorem Describes.append {ds : List Bytes} (h : Describes g ps cs) (h' : Describes g qs ds) :
    Describes g (ps ++ qs) (cs ++ ds) := by
  induction h with
  | nil => exact h'
  | name hp hc _ ih => exact .name hp hc ih
  | skip _ ih => exact .skip ih
  | wild _ ih => exact .wild ih

theorem describes_append : Describes g (ps ++ qs) cs ↔
    ∃ front back, cs = front ++ back ∧ Describes g ps front ∧ Describes g qs back := by
  constructor
  · intro h
    generalize hall : ps ++ qs = all at h
    induction h generalizing ps with
    | nil =>
      obtain ⟨rfl, rfl⟩ := append_eq_nil_iff.mp hall
      exact ⟨[], [], rfl, .nil, .nil⟩
    | @name p c rest cs hp hc hrest ih =>
      cases ps with
      | nil =>
        cases hall
        exact ⟨[], c :: cs, rfl, .nil, .name hp hc hrest⟩
      | cons q ps =>
        obtain ⟨rfl, htail⟩ := cons.inj hall
        obtain ⟨front, back, rfl, hfront, hback⟩ := ih htail
        exact ⟨c :: front, back, rfl, .name hp hc hfront, hback⟩
    | @skip rest cs hrest ih =>
      cases ps with
      | nil =>
        cases hall
        exact ⟨[], cs, rfl, .nil, .skip hrest⟩
      | cons q ps =>
        obtain ⟨rfl, htail⟩ := cons.inj hall
        obtain ⟨front, back, rfl, hfront, hback⟩ := ih htail
        exact ⟨front, back, rfl, .skip hfront, hback⟩
    | @wild c rest cs hrest ih =>
      cases ps with
      | nil =>
        cases hall
        exact ⟨[], c :: cs, rfl, .nil, .wild hrest⟩
      | cons q ps =>
        obtain ⟨front, back, rfl, hfront, hback⟩ := ih hall
        cases hall
        exact ⟨c :: front, back, rfl, .wild hfront, hback⟩
  · rintro ⟨front, back, rfl, hfront, hback⟩
    exact hfront.append hback

theorem describes_doubleStar (path : List Bytes) : Describes g [doubleStar] path := by
  induction path with
  | nil => exact .skip .nil
  | cons c cs ih => exact .wild ih

theorem describes_singleton {p : Bytes} (hp : p ≠ doubleStar) :
    Describes g [p] cs ↔ ∃ c, cs = [c] ∧ g.accepts p c = true := by
  constructor
  · intro h
    cases h with
    | name _ hc rest =>
      cases rest
      exact ⟨_, rfl, hc⟩
    | skip | wild => exact absurd rfl hp
  · rintro ⟨c, rfl, hc⟩
    exact .name hp hc .nil

/-- A plain component occurs in a path as often as in its description, at least. -/
theorem Describes.count_le {p : Bytes} (hp : p.all plainByte = true) (h : Describes g ps cs) :
    ps.count p ≤ cs.count p := by
  induction h with
  | nil => exact Nat.le_refl 0
  | @name q c ps cs hq hc rest ih =>
    by_cases hqp : q = p
    · subst hqp
      obtain rfl := (g.plain q hp c).mp hc
      rw [count_cons_self, count_cons_self]
      exact Nat.succ_le_succ ih
    · rw [count_cons_of_ne hqp]
      exact Nat.le_trans ih count_le_count_cons
  | @skip ps cs rest ih =>
    rw [count_cons_of_ne (ne_doubleStar hp).symm]
    exact ih
  | @wild c ps cs rest ih => exact Nat.le_trans ih count_le_count_cons

theorem matchFront_iff {path : List Bytes} : matchFront g ps path = true ↔
    ∃ front rest, path = front ++ rest ∧ Describes g ps front := by
  induction ps generalizing path with
  | nil =>
    refine iff_of_true rfl ?_
    exact ⟨[], path, rfl, .nil⟩
  | cons p ps ih =>
    by_cases hp : p = doubleStar
    · subst hp
      rw [matchFront.eq_def]
      simp only [if_true, any_eq_true]
      constructor
      · rintro ⟨tail, htail, hmatch⟩
        obtain ⟨skipped, rfl⟩ := (mem_tails _ _).mp htail
        obtain ⟨front, rest, rfl, hfront⟩ := ih.mp hmatch
        refine ⟨skipped ++ front, rest, (append_assoc ..).symm, ?_⟩
        exact (describes_doubleStar skipped).append hfront
      · rintro ⟨front, rest, rfl, hfront⟩
        obtain ⟨skipped, front, rfl, -, hfront⟩ := describes_append.mp
          (show Describes g ([doubleStar] ++ ps) front from hfront)
        refine ⟨front ++ rest, (mem_tails _ _).mpr ⟨skipped, (append_assoc ..).symm⟩, ?_⟩
        exact ih.mpr ⟨front, rest, rfl, hfront⟩
    · rw [matchFront.eq_def]
      simp only [if_neg hp]
      constructor
      · intro h
        cases path with
        | nil => cases h
        | cons c cs =>
          obtain ⟨hc, hmatch⟩ := Bool.and_eq_true_iff.mp h
          obtain ⟨front, rest, rfl, hfront⟩ := ih.mp hmatch
          exact ⟨c :: front, rest, rfl, .name hp hc hfront⟩
      · rintro ⟨front, rest, rfl, hfront⟩
        cases hfront with
        | name _ hc hrest => exact Bool.and_eq_true_iff.mpr ⟨hc, ih.mpr ⟨_, rest, rfl, hrest⟩⟩
        | skip | wild => exact absurd rfl hp

/-! ## Paths at or below a described one -/

namespace Pattern

/-- The pattern describes the path itself. -/
def Names (g : Glob) (p : Pattern) (path : List Bytes) : Prop :=
  ∃ before front, path = before ++ front ∧ (p.rooted = true → before = []) ∧
    Describes g p.parts front

/-- The pattern describes the path or a directory above it. -/
def Covers (g : Glob) (p : Pattern) (path : List Bytes) : Prop :=
  ∃ above rest, path = above ++ rest ∧ p.Names g above

variable {path : List Bytes}

theorem excludes_iff {p : Pattern} : p.excludes g path = true ↔ p.Covers g path := by
  rw [excludes]
  constructor
  · intro h
    split_ifs at h with hrooted
    · obtain ⟨front, rest, rfl, hfront⟩ := matchFront_iff.mp h
      exact ⟨front, rest, rfl, [], front, rfl, fun _ => rfl, hfront⟩
    · rw [any_eq_true] at h
      obtain ⟨tail, htail, hmatch⟩ := h
      obtain ⟨before, rfl⟩ := (mem_tails _ _).mp htail
      obtain ⟨front, rest, rfl, hfront⟩ := matchFront_iff.mp hmatch
      exact ⟨before ++ front, rest, (append_assoc ..).symm, before, front, rfl,
        fun h => absurd h hrooted, hfront⟩
  · rintro ⟨_, rest, rfl, before, front, rfl, hbefore, hfront⟩
    split_ifs with hrooted
    · rw [hbefore hrooted]
      exact matchFront_iff.mpr ⟨front, rest, rfl, hfront⟩
    · rw [any_eq_true]
      refine ⟨front ++ rest, (mem_tails _ _).mpr ⟨before, (append_assoc ..).symm⟩, ?_⟩
      exact matchFront_iff.mpr ⟨front, rest, rfl, hfront⟩

/-- Everything below a described directory is covered anyway. -/
theorem covers_doubleStar {rooted : Bool} :
    (⟨rooted, ps ++ [doubleStar]⟩ : Pattern).Covers g path ↔
    (⟨rooted, ps⟩ : Pattern).Covers g path := by
  constructor
  · rintro ⟨_, rest, rfl, before, front, rfl, hbefore, hfront⟩
    obtain ⟨front, back, rfl, hfront, -⟩ := describes_append.mp hfront
    refine ⟨before ++ front, back ++ rest, ?_, before, front, rfl, hbefore, hfront⟩
    simp only [append_assoc]
  · rintro ⟨_, rest, rfl, before, front, rfl, hbefore, hfront⟩
    refine ⟨before ++ front, rest, rfl, before, front, rfl, hbefore, ?_⟩
    exact describes_append.mpr ⟨front, [], (append_nil _).symm, hfront, .skip .nil⟩

/-- A path one component longer is covered if the path is, or if its last component is described
last and the others before it. -/
theorem covers_concat {rooted : Bool} {p c : Bytes} (hp : p ≠ doubleStar) :
    (⟨rooted, ps ++ [p]⟩ : Pattern).Covers g (path ++ [c]) ↔
      (⟨rooted, ps ++ [p]⟩ : Pattern).Covers g path ∨
        ((⟨rooted, ps⟩ : Pattern).Names g path ∧ g.accepts p c = true) := by
  constructor
  · rintro ⟨above, rest, hpath, hnames⟩
    rcases eq_nil_or_concat rest with rfl | ⟨rest, last, rfl⟩
    · right
      obtain ⟨before, all, rfl, hbefore, hall⟩ := hnames
      obtain ⟨front, back, rfl, hfront, hback⟩ := describes_append.mp hall
      obtain ⟨last, rfl, hlast⟩ := (describes_singleton hp).mp hback
      rw [append_nil, ← append_assoc] at hpath
      obtain ⟨rfl, hc⟩ := append_inj' hpath rfl
      obtain rfl : c = last := singleton_inj.mp hc
      exact ⟨⟨before, front, rfl, hbefore, hfront⟩, hlast⟩
    · left
      rw [concat_eq_append, ← append_assoc] at hpath
      obtain ⟨rfl, -⟩ := append_inj' hpath rfl
      exact ⟨above, rest, rfl, hnames⟩
  · rintro (⟨above, rest, rfl, hnames⟩ | ⟨⟨before, front, rfl, hbefore, hfront⟩, hc⟩)
    · exact ⟨above, rest ++ [c], append_assoc .., hnames⟩
    · refine ⟨before ++ front ++ [c], [], (append_nil _).symm, before, front ++ [c],
        append_assoc .., hbefore, ?_⟩
      exact describes_append.mpr ⟨front, [c], rfl, hfront,
        (describes_singleton hp).mpr ⟨c, rfl, hc⟩⟩

/-- A covered path has every plain component as often as the pattern, at least. -/
theorem Covers.count_le {p : Pattern} (h : p.Covers g path) {c : Bytes}
    (hc : c.all plainByte = true) : p.parts.count c ≤ path.count c := by
  obtain ⟨_, rest, rfl, before, front, rfl, -, hfront⟩ := h
  calc p.parts.count c
      ≤ front.count c := hfront.count_le hc
    _ ≤ (before ++ front).count c := (sublist_append_right before front).count_le c
    _ ≤ (before ++ front ++ rest).count c := (sublist_append_left _ rest).count_le c

end Pattern

end PathPattern

end HeyServer.Lib
