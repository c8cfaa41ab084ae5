import HeyServer.Lib.PathPattern

/-!
# Joined and absolute paths

`Clean` may be applied to a path before or after it is made absolute. A joined path has the
components of its directory and one more. A path relative to another one tells whether it lies
below.
-/

namespace HeyServer.Lib.Text
open PathPattern List Utf8 Pattern

/-- `strings.TrimRight` with one byte to cut. -/
def trimRight (cut : UInt8) (s : Bytes) : Bytes := (s.reverse.dropWhile (· = cut)).reverse

/-- `filepath.Join` of two parts of which the second is not empty. -/
def filepathJoin (a b : Bytes) : Bytes := if a = [] then clean b else pathJoin a b

/-- The components of the absolute path, `cwd` being those of the working directory. -/
def absComponents (cwd : List Bytes) (path : Bytes) : List Bytes :=
  if isAbs path then components path
  else ((split 0x2F path).foldl (pushComponent true) cwd.reverse).reverse

/-! ## Components -/

variable {rooted : Bool} {c path a : Bytes}

theorem pushComponent_name {kept : List Bytes} (hc : isName c = true) :
    pushComponent rooted kept c = c :: kept := by
  obtain ⟨hempty, hdot, hup, -⟩ := isName_iff.mp hc
  unfold pushComponent
  rw [if_neg (not_or.mpr ⟨hempty, hdot⟩), if_neg hup]

theorem pushComponent_empty {kept : List Bytes} : pushComponent rooted kept [] = kept :=
  if_pos (.inl rfl)

theorem slash_not_mem_components (h : c ∈ components path) : c ≠ [] ∧ 0x2F ∉ c := by
  rcases mem_foldl_pushComponent (mem_reverse.mp h) with hc | ⟨hc, hne, -⟩
  · cases hc
  · exact ⟨hne, not_mem_of_mem_split hc⟩

theorem isAbs_append (b : Bytes) (ha : a ≠ []) : isAbs (a ++ b) = isAbs a := by
  rw [isAbs, isAbs, head?_append_of_ne_nil a ha]

theorem components_append (ha : a ≠ []) (hc : isName c = true) :
    components (a ++ 0x2F :: c) = components a ++ [c] := by
  have hslash : 0x2F ∉ c := (isName_iff.mp hc).2.2.2
  rw [components, isAbs_append _ ha, split_append, split_of_not_mem hslash, foldl_append,
    foldl_cons, foldl_nil, pushComponent_name hc, reverse_cons]
  rfl

theorem components_slashes (ha : a ≠ []) (n : Nat) :
    components (a ++ List.replicate n 0x2F) = components a := by
  induction n with
  | zero => rw [replicate_zero, append_nil]
  | succ n ih =>
    have hne : a ++ replicate n 0x2F ≠ [] := append_ne_nil_of_left_ne_nil ha _
    rw [replicate_succ', ← append_assoc, ← ih, components, isAbs_append _ hne,
      split_append, foldl_append]
    rfl

theorem eq_trimRight_append (cut : UInt8) (s : Bytes) :
    ∃ n, s = trimRight cut s ++ List.replicate n cut := by
  have hall : ∀ b ∈ s.reverse.takeWhile (· = cut), b = cut := by
    intro b hb
    have hcut := mem_takeWhile_imp hb
    exact of_decide_eq_true hcut
  refine ⟨(s.reverse.takeWhile (· = cut)).length, ?_⟩
  calc s
      = (s.reverse.takeWhile (· = cut) ++ s.reverse.dropWhile (· = cut)).reverse := by
        rw [takeWhile_append_dropWhile, reverse_reverse]
    _ = trimRight cut s ++ (s.reverse.takeWhile (· = cut)).reverse := reverse_append
    _ = trimRight cut s ++ (replicate (s.reverse.takeWhile (· = cut)).length cut).reverse := by
        rw [← eq_replicate_of_mem hall]
    _ = trimRight cut s ++ replicate (s.reverse.takeWhile (· = cut)).length cut := by
        rw [reverse_replicate]

theorem components_trimRight (h : trimRight 0x2F path ≠ []) :
    components (trimRight 0x2F path) = components path ∧
      isAbs (trimRight 0x2F path) = isAbs path := by
  obtain ⟨n, hn⟩ := eq_trimRight_append 0x2F path
  constructor
  · calc components (trimRight 0x2F path)
        = components (trimRight 0x2F path ++ replicate n 0x2F) := (components_slashes h n).symm
      _ = components path := by rw [← hn]
  · calc isAbs (trimRight 0x2F path)
        = isAbs (trimRight 0x2F path ++ replicate n 0x2F) := (isAbs_append _ h).symm
      _ = isAbs path := by rw [← hn]

/-- A path of slashes only is the root. -/
theorem components_of_trimRight_nil (h : trimRight 0x2F path = []) (hne : path ≠ []) :
    isAbs path = true ∧ components path = [] := by
  obtain ⟨n, hn⟩ := eq_trimRight_append 0x2F path
  rw [h, nil_append] at hn
  cases n with
  | zero => exact absurd hn hne
  | succ n =>
    rw [hn, replicate_succ]
    refine ⟨rfl, ?_⟩
    exact components_slashes (a := [0x2F]) (cons_ne_nil _ _) n

/-! ## Cleaning first -/

section
variable (path : Bytes)

theorem clean_eq : clean path = if isAbs path then 0x2F :: join 0x2F (components path)
    else if components path = [] then dot else join 0x2F (components path) :=
  rfl

/-- Pushing the components that cleaning keeps is pushing all of them. -/
theorem foldl_pushComponent_kept (rooted : Bool) {outer : List Bytes}
    (houter : rooted = true → outer = []) (parts : List Bytes) :
    (parts.foldl (pushComponent rooted) []).reverse.foldl (pushComponent true) outer =
      parts.foldl (pushComponent true) outer := by
  induction parts using reverseRecOn with
  | nil => rfl
  | append_singleton parts c ih =>
    rw [foldl_append, foldl_append, ← ih]
    simp only [foldl_cons, foldl_nil]
    have hkept : ∀ k ∈ parts.foldl (pushComponent rooted) [], k ≠ [] ∧ k ≠ dot := by
      intro k hk
      rcases mem_foldl_pushComponent hk with hk | ⟨-, hk⟩
      · cases hk
      · exact hk
    generalize parts.foldl (pushComponent rooted) [] = kept at hkept ⊢
    fun_cases pushComponent rooted kept c with
    | case1 _ hskip => exact (if_pos hskip).symm
    | case2 _ hup hrooted =>
      rw [houter hrooted, hup]
      rfl
    | case3 _ hup =>
      rfl
    | case5 _ hup top rest htop =>
      -- the component before is a name, and both vanish
      have hname : pushComponent true (rest.reverse.foldl (pushComponent true) outer) top =
          top :: rest.reverse.foldl (pushComponent true) outer := by
        unfold pushComponent
        rw [if_neg (not_or.mpr (hkept top mem_cons_self)), if_neg htop]
      rw [reverse_cons, foldl_append, foldl_cons, foldl_nil, hname, hup]
      exact (if_neg htop).symm
    | case4 | case6 =>
      rw [reverse_cons, foldl_append]
      simp only [foldl_cons, foldl_nil, *]

theorem split_clean (outer : List Bytes) :
    (split 0x2F (clean path)).foldl (pushComponent true) outer =
      (components path).foldl (pushComponent true) outer := by
  have hjoin : (split 0x2F (join 0x2F (components path))).foldl (pushComponent true) outer =
      (components path).foldl (pushComponent true) outer := by
    by_cases hempty : components path = []
    · rw [hempty]
      exact @pushComponent_empty true outer
    · rw [split_join hempty fun c hc => (slash_not_mem_components hc).2]
  rw [clean_eq]
  split_ifs with habs hempty
  · rw [split, if_pos rfl, foldl_cons, pushComponent_empty]
    exact hjoin
  · rw [hempty]
    rfl
  · exact hjoin

theorem isAbs_clean : isAbs (clean path) = isAbs path := by
  rw [clean_eq]
  split_ifs with habs
  · exact habs.symm
  · exact (Bool.eq_false_iff.mpr habs).symm
  · rw [Bool.eq_false_iff.mpr habs]
    exact decide_eq_false (head_join_ne fun c hc => slash_not_mem_components hc)

theorem join_ne_nil {sep : UInt8} {parts : List Bytes} (hne : parts ≠ [])
    (h : ∀ part ∈ parts, part ≠ []) : join sep parts ≠ [] := by
  cases parts with
  | nil => exact absurd rfl hne
  | cons part parts =>
    have hpart := h part mem_cons_self
    cases parts with
    | nil => exact hpart
    | cons next rest => exact append_ne_nil_of_left_ne_nil hpart _

theorem clean_ne_nil : clean path ≠ [] := by
  rw [clean_eq]
  split_ifs with _ hempty
  · exact cons_ne_nil _ _
  · exact cons_ne_nil _ _
  · exact join_ne_nil hempty fun c hc => (slash_not_mem_components hc).1

end

theorem absComponents_clean (cwd : List Bytes) (path : Bytes) :
    absComponents cwd (clean path) = absComponents cwd path := by
  rw [absComponents, absComponents, isAbs_clean]
  split_ifs with habs
  · rw [components, isAbs_clean, habs, split_clean, components, habs,
      foldl_pushComponent_kept true fun _ => rfl]
  · rw [split_clean, components, Bool.eq_false_iff.mpr habs,
      foldl_pushComponent_kept false fun h => by cases h]

theorem absComponents_pathJoin (cwd : List Bytes) (ha : a ≠ []) (hc : isName c = true) :
    absComponents cwd (pathJoin a c) = absComponents cwd a ++ [c] := by
  have hslash : 0x2F ∉ c := (isName_iff.mp hc).2.2.2
  rw [pathJoin, absComponents_clean, absComponents, absComponents, isAbs_append _ ha]
  split_ifs
  · rw [components_append ha hc]
  · rw [split_append, split_of_not_mem hslash, foldl_append,
      foldl_cons, foldl_nil, pushComponent_name hc, reverse_cons]

theorem components_absolute {names : List Bytes} (h : ∀ c ∈ names, isName c = true) :
    components (absolute names) = names := by
  have hpush : ∀ (ns kept : List Bytes), (∀ c ∈ ns, isName c = true) →
      ns.foldl (pushComponent true) kept = ns.reverse ++ kept := by
    intro ns
    induction ns with
    | nil => exact fun kept _ => rfl
    | cons c ns ih =>
      intro kept hns
      rw [foldl_cons, pushComponent_name (hns c mem_cons_self),
        ih _ fun c' hc' => hns c' (mem_cons_of_mem _ hc'), reverse_cons, append_assoc]
      rfl
  have hsplit : split 0x2F (absolute names) = [] :: split 0x2F (join 0x2F names) := by
    rw [absolute, split, if_pos rfl]
  have habs : isAbs (absolute names) = true := rfl
  rw [components, habs, hsplit, foldl_cons, pushComponent_empty]
  by_cases hnil : names = []
  · rw [hnil]
    rfl
  · rw [split_join hnil fun c hc => (isName_iff.mp (h c hc)).2.2.2, hpush names [] h, append_nil,
      reverse_reverse]

theorem clean_absolute {names : List Bytes} (h : ∀ c ∈ names, isName c = true) :
    clean (absolute names) = absolute names := by
  rw [clean_eq_absolute rfl, components_absolute h]

theorem clean_clean (h : isAbs path = true) : clean (clean path) = clean path := by
  rw [clean_eq_absolute h, clean_absolute (isName_of_mem_components h)]

/-! ## Replaced bytes -/

theorem mem_of_mem_sanitize {b : UInt8} (hb : b.toNat < 0x80) {s : Bytes}
    (h : b ∈ sanitize s) : b ∈ s := by
  induction s using pieces_induction with
  | nil => exact h
  | rune r bs rest hr ih =>
    rw [sanitize_rune hr, mem_append] at h
    exact mem_append.mpr (h.imp_right ih)
  | stray c rest hd ih =>
    rw [sanitize_stray hd, mem_append] at h
    rcases h with hreplacement | hrest
    · have hlarge : ∀ c ∈ replacement, 0x80 ≤ c.toNat := by decide +kernel
      exact absurd hb (Nat.not_lt.mpr (hlarge b hreplacement))
    · exact mem_cons_of_mem _ (ih hrest)

/-- Replacing stray bytes makes names of names. -/
theorem isName_sanitize {c : Bytes} (h : isName c = true) : isName (sanitize c) = true := by
  obtain ⟨hempty, hdot, hdotdot, hslash⟩ := isName_iff.mp h
  refine isName_iff.mpr ⟨?_, ?_, ?_, fun hmem => hslash (mem_of_mem_sanitize (by decide) hmem)⟩
  · exact fun heq => hempty ((sanitize_eq_iff (by decide +kernel)).mp heq)
  · exact fun heq => hdot ((sanitize_eq_iff (by decide +kernel)).mp heq)
  · exact fun heq => hdotdot ((sanitize_eq_iff (by decide +kernel)).mp heq)

theorem sanitize_join (names : List Bytes) :
    sanitize (join 0x2F names) = join 0x2F (names.map sanitize) := by
  induction names with
  | nil => rfl
  | cons c names ih =>
    cases names with
    | nil => rfl
    | cons next names =>
      have hslash : (0x2F : UInt8).toNat < 0x80 := by decide
      rw [join, sanitize, pieces_append_ascii _ hslash, pieces_cons_ascii hslash,
        flatMap_append, flatMap_cons, ← sanitize, ← sanitize, ih]
      · rfl
      · exact cons_ne_nil _ _

/-- Replacing stray bytes keeps an absolute path clean. -/
theorem sanitize_clean (habs : isAbs path = true) (hclean : clean path = path) :
    sanitize path = absolute ((components path).map sanitize) ∧
      clean (sanitize path) = sanitize path := by
  have hpath : sanitize path = absolute ((components path).map sanitize) := by
    conv_lhs => rw [← hclean, clean_eq_absolute habs]
    rw [absolute, absolute, ← sanitize_join]
    exact congrArg (flatMap Piece.replaced) (pieces_cons_ascii (by decide) _)
  refine ⟨hpath, ?_⟩
  rw [hpath]
  refine clean_absolute fun c hc => ?_
  obtain ⟨name, hname, rfl⟩ := mem_map.mp hc
  exact isName_sanitize (isName_of_mem_components habs name hname)

/-! ## Relative paths -/

/-- The names from one place to another: up to the last common directory, then down. -/
def relNames : List Bytes → List Bytes → List Bytes
  | [], targ => targ
  | base, [] => base.map fun _ => dotdot
  | b :: base, t :: targ =>
    if b = t then relNames base targ else dotdot :: base.map (fun _ => dotdot) ++ t :: targ

/-- `filepath.Rel` of two absolute paths. -/
def rel (basepath targpath : Bytes) : Bytes :=
  if relNames (components basepath) (components targpath) = [] then dot
  else join 0x2F (relNames (components basepath) (components targpath))

/-- The way to a place that is not below begins with a step up. -/
theorem relNames_eq (base targ : List Bytes) :
    (∃ rest, targ = base ++ rest ∧ relNames base targ = rest) ∨
      (¬ base <+: targ ∧ ∃ rest, relNames base targ = dotdot :: rest) := by
  fun_induction relNames base targ with
  | case1 targ => exact .inl ⟨targ, rfl, rfl⟩
  | case2 base hne =>
    cases base with
    | nil => exact absurd rfl hne
    | cons b base => exact .inr ⟨by simp, base.map fun _ => dotdot, rfl⟩
  | case3 base t targ ih =>
    rcases ih with ⟨rest, rfl, hrest⟩ | ⟨hnot, hrest⟩
    · exact .inl ⟨rest, rfl, hrest⟩
    · refine .inr ⟨?_, hrest⟩
      rw [cons_prefix_cons]
      exact fun h => hnot h.2
  | case4 b base t targ hb =>
    refine .inr ⟨?_, _, rfl⟩
    rw [cons_prefix_cons]
    exact fun h => hb h.1

/-- Joined names whose first is not `..` do not begin with it as a component. -/
theorem join_name_below {rest : List Bytes} (hc : isName c = true) :
    join 0x2F (c :: rest) ≠ dotdot ∧ ¬ dotdot ++ [0x2F] <+: join 0x2F (c :: rest) := by
  obtain ⟨hne, hdot, hup, hslash⟩ := isName_iff.mp hc
  have hsplit : split 0x2F (join 0x2F (c :: rest)) = c :: split 0x2F (join 0x2F rest) ∨
      join 0x2F (c :: rest) = c := by
    cases rest with
    | nil => exact .inr rfl
    | cons next rest =>
      left
      rw [join, split_append, split_of_not_mem hslash]
      · rfl
      · exact cons_ne_nil _ _
  constructor
  · intro h
    rcases hsplit with hsplit | hsplit
    · rw [h] at hsplit
      exact hup (cons.inj hsplit).1.symm
    · exact hup (hsplit.symm.trans h)
  · rintro ⟨more, hmore⟩
    rcases hsplit with hsplit | hsplit
    · rw [← hmore, append_assoc, singleton_append, split_append] at hsplit
      exact hup (cons.inj hsplit).1.symm
    · rw [hsplit] at hmore
      apply hslash
      rw [← hmore]
      simp

/-- A path relative to another one begins with `..` unless it lies at or below it. -/
theorem rel_below_iff {base targ : List Bytes} (hbase : ∀ c ∈ base, isName c = true)
    (htarg : ∀ c ∈ targ, isName c = true) : (rel (absolute base) (absolute targ) = dot ∨
      (rel (absolute base) (absolute targ) ≠ dotdot ∧
        ¬ dotdot ++ [0x2F] <+: rel (absolute base) (absolute targ))) ↔ base <+: targ := by
  rw [rel, components_absolute hbase, components_absolute htarg]
  rcases relNames_eq base targ with ⟨rest, rfl, hrest⟩ | ⟨hnot, rest, hrest⟩
  · rw [hrest]
    refine iff_of_true ?_ (prefix_append base rest)
    cases rest with
    | nil => exact .inl rfl
    | cons c rest =>
      exact .inr (join_name_below (htarg c (mem_append_right _ mem_cons_self)))
  · rw [hrest, if_neg (cons_ne_nil _ _)]
    refine iff_of_false ?_ hnot
    rintro (h | ⟨hne, hbelow⟩)
    · cases rest with
      | nil | cons => cases h
    · cases rest with
      | nil => exact hne rfl
      | cons next rest => exact hbelow ⟨join 0x2F (next :: rest), by simp [join]⟩

/-! ## Joined paths as patterns -/

theorem suffix_join (sep : UInt8) (parts : List Bytes) (c : Bytes) :
    c <:+ join sep (parts ++ [c]) := by
  induction parts with
  | nil => exact suffix_refl c
  | cons part rest ih =>
    cases rest with
    | nil => exact ⟨part ++ [sep], by simp [join]⟩
    | cons next rest =>
      rw [cons_append, cons_append, join]
      · exact ih.trans ⟨part ++ [sep], by simp⟩
      · exact cons_ne_nil _ _

section Joined

variable (ha : a ≠ []) (hc : isName c = true)
include hc

theorem parts_joined : ∀ part ∈ components a ++ [c], part ≠ [] ∧ 0x2F ∉ part := by
  intro part hpart
  rcases mem_append.mp hpart with hpart | hpart
  · exact slash_not_mem_components hpart
  · obtain rfl := mem_singleton.mp hpart
    obtain ⟨hne, -, -, hslash⟩ := isName_iff.mp hc
    exact ⟨hne, hslash⟩

theorem split_joined : split 0x2F (join 0x2F (components a ++ [c])) = components a ++ [c] :=
  split_join (append_ne_nil_of_right_ne_nil _ (cons_ne_nil _ _)) fun part hpart =>
    (parts_joined hc part hpart).2

theorem isAbs_joined : isAbs (join 0x2F (components a ++ [c])) = false :=
  decide_eq_false (head_join_ne (parts_joined hc))

include ha

theorem clean_append : pathJoin a c = if isAbs a then 0x2F :: join 0x2F (components a ++ [c])
      else join 0x2F (components a ++ [c]) := by
  rw [pathJoin, clean_eq, isAbs_append _ ha, components_append ha hc]
  refine if_congr Iff.rfl rfl ?_
  exact if_neg (append_ne_nil_of_right_ne_nil _ (cons_ne_nil _ _))

theorem parse_pathJoin : parse (pathJoin a c) = ⟨isAbs a, components a ++ [c]⟩ := by
  rw [clean_append ha hc]
  split_ifs with habs
  · rw [habs]
    exact congrArg (mk true) (split_joined hc)
  · rw [Bool.eq_false_iff.mpr habs, parse, isAbs_joined hc, split_joined hc]
    rfl

/-- A joined path ends with the name. -/
theorem suffix_pathJoin : c <:+ pathJoin a c := by
  rw [clean_append ha hc]
  split_ifs
  · exact (suffix_join _ _ c).trans (suffix_cons _ _)
  · exact suffix_join _ _ c

/-- The base of a joined path is the name. -/
theorem base_pathJoin : base (pathJoin a c) = c := by
  have hkept : (components a ++ [c]).filter (· ≠ []) = components a ++ [c] := by
    apply filter_eq_self.mpr
    intro part hpart
    exact decide_eq_true (parts_joined hc part hpart).1
  rw [base, clean_append ha hc]
  split_ifs
  · rw [split, if_pos rfl, split_joined hc, filter_cons_of_neg (by simp), hkept, getLast?_concat]
    rfl
  · rw [split_joined hc, hkept, getLast?_concat]
    rfl

theorem parse_pathJoin_below : parse (pathJoin a c ++ 0x2F :: doubleStar) =
    ⟨isAbs a, components a ++ [c] ++ [doubleStar]⟩ := by
  have hsplit : split 0x2F (join 0x2F (components a ++ [c]) ++ 0x2F :: doubleStar) =
      components a ++ [c] ++ [doubleStar] := by
    rw [split_append, split_joined hc]
    rfl
  rw [clean_append ha hc]
  split_ifs with habs
  · rw [habs]
    exact congrArg (mk true) hsplit
  · have hne : join 0x2F (components a ++ [c]) ≠ [] :=
      join_ne_nil (append_ne_nil_of_right_ne_nil _ (cons_ne_nil _ _)) fun part hpart =>
        (parts_joined hc part hpart).1
    rw [Bool.eq_false_iff.mpr habs, parse, isAbs_append _ hne, isAbs_joined hc, hsplit]
    rfl

end Joined

/-- A joined path tells the directory and the name. -/
theorem pathJoin_inj {b d : Bytes} (ha : a ≠ []) (hb : b ≠ []) (hc : isName c = true)
    (hd : isName d = true) (h : pathJoin a c = pathJoin b d) : clean a = clean b ∧ c = d := by
  have hparse := congrArg parse h
  rw [parse_pathJoin ha hc, parse_pathJoin hb hd, mk.injEq] at hparse
  obtain ⟨habs, hparts⟩ := hparse
  obtain ⟨hcomponents, hname⟩ := append_inj' hparts rfl
  refine ⟨?_, singleton_inj.mp hname⟩
  rw [clean_eq a, clean_eq b, habs, hcomponents]

/-- The last component of a joined path keeps its ending, whatever precedes it. -/
theorem ending_pathJoin {ending : Bytes} (ha : a ≠ [])
    (hname : ∀ l : Bytes, 0x2F ∉ l → isName (l ++ ending) = true) (x : Bytes) :
    ending <:+ pathJoin a (x ++ ending) := by
  by_cases hslash : 0x2F ∈ x
  · obtain ⟨l, y, hx, hl⟩ := eq_append_cons_of_mem (mem_reverse.mpr hslash)
    have hsplit : x = y.reverse ++ 0x2F :: l.reverse := by
      rw [← reverse_reverse x, hx]
      simp
    have hjoin : pathJoin a (x ++ ending) =
        pathJoin (a ++ 0x2F :: y.reverse) (l.reverse ++ ending) := by
      rw [pathJoin, pathJoin, hsplit]
      simp
    rw [hjoin]
    refine (suffix_append l.reverse ending).trans (suffix_pathJoin ?_ (hname _ ?_))
    · exact append_ne_nil_of_left_ne_nil ha _
    · simpa using hl
  · exact (suffix_append x ending).trans (suffix_pathJoin ha (hname x hslash))

theorem base_of_isName (hc : isName c = true) : base c = c := by
  obtain ⟨hne, -, -, hslash⟩ := isName_iff.mp hc
  rw [base, split_of_not_mem hslash]
  simp [hne]

end HeyServer.Lib.Text
