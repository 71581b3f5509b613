import Mathlib.Data.List.Induction
import Mathlib.Data.Set.Insert

/-!
# Directory trees

The nodes of a tree are the lists of names that lead to them, from any type `N` of names.  A tree
may be infinitely deep, but each directory has finitely many entries.

* `DirTree.below` : the nodes below one of them, down to a depth.
* `DirTree.Listing` : a list with each node of a set once, and directories in front of what is in
  them.
* `DirTree.below_dir`, `DirTree.listing_entries` : a directory is listed by listing its entries, in
  any order.
-/

/-- A tree: whether a list of names leads to a directory or a file, if to anything, and the names in
each directory. -/
structure DirTree (N : Type) where
  /-- `true` for a directory. -/
  isDir : List N → Option Bool
  /-- The names in a directory. -/
  entries : List N → List N
  nodup : ∀ p, (entries p).Nodup
  mem_entries : ∀ p n, n ∈ entries p ↔ isDir (p ++ [n]) ≠ none
  parent : ∀ p n, isDir (p ++ [n]) ≠ none → isDir p = some true

namespace DirTree

variable {N : Type} {t : DirTree N} {p q : List N} {ps ps' : List (List N)} {S S' : Set (List N)}
variable {n m : N} {depth : ℕ}

theorem isDir_of_append {s : List N} (h : t.isDir (p ++ s) ≠ none) : t.isDir p ≠ none := by
  induction s using List.reverseRecOn with
  | nil => rwa [List.append_nil] at h
  | append_singleton s n ih =>
    rw [← List.append_assoc] at h
    refine ih ?_
    rw [t.parent _ _ h]
    exact Option.some_ne_none true

/-- The nodes below `p` whose paths have at most `depth` names, with `p` itself. -/
def below (t : DirTree N) (depth : ℕ) (p : List N) : Set (List N) :=
  {q | t.isDir q ≠ none ∧ p <+: q ∧ q.length ≤ depth}

/-- The nodes below the entries `names` of `p`. -/
def belowEntries (t : DirTree N) (depth : ℕ) (p names : List N) : Set (List N) :=
  {q | ∃ n ∈ names, q ∈ t.below depth (p ++ [n])}

theorem below_of_leaf (hp : t.isDir p ≠ none) (hlen : p.length ≤ depth)
    (hleaf : t.isDir p = some false ∨ depth ≤ p.length) : t.below depth p = {p} := by
  ext q
  constructor
  · rintro ⟨hq, ⟨s, rfl⟩, hdepth⟩
    cases s with
    | nil => exact List.append_nil p
    | cons n s =>
      rw [List.length_append, List.length_cons] at hdepth
      rw [List.append_cons] at hq
      have hdir := t.parent p n (isDir_of_append hq)
      rcases hleaf with hfile | hdeep
      · rw [hfile] at hdir
        cases hdir
      · omega
  · rintro rfl
    exact ⟨hp, List.prefix_rfl, hlen⟩

/-- What is below a directory is the directory and what is below its entries. -/
theorem below_dir (hp : t.isDir p = some true) (hlen : p.length < depth) :
    t.below depth p = insert p (t.belowEntries depth p (t.entries p)) := by
  ext q
  constructor
  · rintro ⟨hq, ⟨s, rfl⟩, hdepth⟩
    cases s with
    | nil => exact .inl (List.append_nil p)
    | cons n s =>
      rw [List.append_cons] at hq hdepth ⊢
      exact .inr ⟨n, (t.mem_entries p n).2 (isDir_of_append hq), hq, List.prefix_append _ _, hdepth⟩
  · rintro (rfl | ⟨n, -, hq, hprefixed, hdepth⟩)
    · exact ⟨by simp [hp], List.prefix_rfl, hlen.le⟩
    · exact ⟨hq, (List.prefix_append p [n]).trans hprefixed, hdepth⟩

/-- The list has each node of the set once, and none behind a node that is below it. -/
structure Listing (S : Set (List N)) (ps : List (List N)) : Prop where
  mem_iff : ∀ p, p ∈ ps ↔ p ∈ S
  pairwise : ps.Pairwise fun q p => ¬ p <+: q

namespace Listing

theorem nodup (h : Listing S ps) : ps.Nodup := by
  refine h.pairwise.imp ?_
  rintro q p hne rfl
  exact hne List.prefix_rfl

theorem nil : Listing (∅ : Set (List N)) [] := ⟨by simp, .nil⟩

theorem singleton (p : List N) : Listing {p} [p] := ⟨by simp, List.pairwise_singleton _ p⟩

theorem cons (h : Listing S ps) (hp : ∀ q ∈ S, ¬ q <+: p) : Listing (insert p S) (p :: ps) where
  mem_iff := by simp [h.mem_iff]
  pairwise := List.pairwise_cons.2 ⟨fun q hq => hp q ((h.mem_iff q).1 hq), h.pairwise⟩

theorem append (h : Listing S ps) (h' : Listing S' ps') (hp : ∀ q ∈ S, ∀ p ∈ S', ¬ p <+: q) :
    Listing (S ∪ S') (ps ++ ps') where
  mem_iff := by simp [h.mem_iff, h'.mem_iff]
  pairwise := List.pairwise_append.2 ⟨h.pairwise, h'.pairwise,
    fun q hq p hp' => hp q ((h.mem_iff q).1 hq) p ((h'.mem_iff p).1 hp')⟩

end Listing

/-- Nodes below different entries are not below each other. -/
theorem not_prefix_of_ne (hne : n ≠ m) (hq : q ∈ t.below depth (p ++ [n])) {r : List N}
    (hr : r ∈ t.below depth (p ++ [m])) : ¬ r <+: q := by
  intro hrq
  have hm := hr.2.1.trans hrq
  have heq := (List.prefix_of_prefix_length_le hq.2.1 hm (by simp)).eq_of_length (by simp)
  exact hne (List.singleton_inj.1 (List.append_cancel_left heq))

/-- **One more entry** of a directory. -/
theorem listing_entries {done : List N} (h : Listing (t.belowEntries depth p done) ps)
    (hn : n ∉ done) (h' : Listing (t.below depth (p ++ [n])) ps') :
    Listing (t.belowEntries depth p (done ++ [n])) (ps ++ ps') := by
  have hset : t.belowEntries depth p (done ++ [n]) =
      t.belowEntries depth p done ∪ t.below depth (p ++ [n]) := by
    ext q
    simp [belowEntries, or_and_right, exists_or]
  rw [hset]
  refine h.append h' ?_
  rintro q ⟨m, hm, hq⟩ r hr
  exact not_prefix_of_ne (ne_of_mem_of_not_mem hm hn) hq hr

/-- A directory and its entries. -/
theorem listing_dir (hp : t.isDir p = some true) (hlen : p.length < depth) {names : List N}
    (hnames : ∀ n, n ∈ names ↔ n ∈ t.entries p)
    (h : Listing (t.belowEntries depth p names) ps) : Listing (t.below depth p) (p :: ps) := by
  have hset : t.belowEntries depth p names = t.belowEntries depth p (t.entries p) := by
    ext q
    simp only [belowEntries, hnames]
  rw [below_dir hp hlen, ← hset]
  refine h.cons ?_
  rintro q ⟨n, -, -, hq, -⟩ hqp
  have hle := (hq.trans hqp).length_le
  rw [List.length_append, List.length_singleton] at hle
  omega

end DirTree
