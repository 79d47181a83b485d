import TraceLog.Proofs.Store.Calls

/-!
# TraceLog.Proofs.Store.Grounded

Trees in which everything stands in a directory.

Nothing stands inside a file then, so a file that moves takes nothing with it,
and what stands at any place afterwards can be told.  A walk passes directories
only, so it depends on nothing else in a tree.

* `FileTree.Grounded` — everything stands in a directory;
* `FileTree.Bare` — nothing stands inside a place;
* `FileTree.node?_move_of_bare` — what stands where after a file has moved;
* `FileTree.walk_congr` — trees with the same directories are walked alike.
-/

namespace TraceLog

namespace FileTree

variable {t t' : FileTree}

/-! ## What is listed -/

theorem mem_of_find?_eq_some {nodes : List (Place × Node)} {place : Place} {node : Node}
    (h : find? nodes place = some node) : (place, node) ∈ nodes := by
  induction nodes with
  | nil => simp [find?] at h
  | cons entry rest ih =>
      obtain ⟨p, found⟩ := entry
      by_cases hp : place = p
      · simp_all [find?]
      · simp_all [find?]

theorem find?_eq_none_iff {nodes : List (Place × Node)} {place : Place} :
    find? nodes place = none ↔ ∀ entry ∈ nodes, entry.1 ≠ place := by
  induction nodes with
  | nil => simp [find?]
  | cons entry rest ih =>
      obtain ⟨p, found⟩ := entry
      by_cases hp : place = p
      · simp [find?, hp]
      · simp [find?, hp, Ne.symm hp, ih]

/-- Where nothing stands, nothing is listed. -/
theorem ne_of_node?_eq_none {place : Place} (h : t.node? place = none) :
    ∀ entry ∈ t.nodes, entry.1 ≠ place := by
  rw [node?] at h
  split at h
  · contradiction
  · exact find?_eq_none_iff.1 h

/-! ## Grounded trees -/

/-- Everything that is listed stands in a directory, and the working directory
is one. -/
def Grounded (t : FileTree) : Prop :=
  (∀ entry ∈ t.nodes, t.node? entry.1.tail = some .directory) ∧
    t.node? t.home = some .directory

instance (t : FileTree) : Decidable t.Grounded := inferInstanceAs (Decidable (_ ∧ _))

/-- Nothing stands inside a place. -/
def Bare (t : FileTree) (place : Place) : Prop :=
  ∀ q, inside place q = true → q ≠ place → t.node? q = none

/-- Whatever stands at a place stands in a directory; the root is its own. -/
theorem Grounded.parent (h : t.Grounded) {place : Place} {node : Node}
    (hnode : t.node? place = some node) : t.node? place.tail = some .directory := by
  by_cases hroot : place = []
  · simp [hroot, node?]
  · rw [node?, if_neg hroot] at hnode
    exact h.1 _ (mem_of_find?_eq_some hnode)

/-- A tree is grounded if what stands anywhere does so in a directory. -/
theorem grounded_of_parent (hparent : ∀ q, t.node? q ≠ none → t.node? q.tail = some .directory)
    (hhome : t.node? t.home = some .directory) : t.Grounded := by
  refine ⟨fun entry hentry => hparent entry.1 fun hnone => ?_, hhome⟩
  exact ne_of_node?_eq_none hnone entry hentry rfl

/-- Nothing stands inside anything but a directory. -/
theorem Grounded.bare (h : t.Grounded) {place : Place}
    (hnode : t.node? place ≠ some .directory) : t.Bare place := by
  intro q hinside hne
  obtain ⟨above, rfl⟩ := List.isSuffixOf_iff_suffix.1 hinside
  induction above with
  | nil => exact absurd rfl hne
  | cons name above ih =>
      cases hq : t.node? (name :: above ++ place) with
      | none => rfl
      | some node =>
          have hparent := h.parent hq
          rw [List.cons_append, List.tail_cons] at hparent
          by_cases hnil : above = []
          · rw [hnil, List.nil_append] at hparent
            exact absurd hparent hnode
          · have hnone := ih (List.isSuffixOf_iff_suffix.2 (List.suffix_append _ _)) (by simpa)
            rw [hnone] at hparent
            contradiction

/-- The working directory is not inside a file. -/
theorem Grounded.not_inside_home (h : t.Grounded) {place : Place}
    (hnode : t.node? place ≠ some .directory) : ¬inside place t.home = true := by
  intro hinside
  by_cases hsame : t.home = place
  · exact hnode (hsame ▸ h.2)
  · have hnone := h.bare hnode _ hinside hsame
    rw [h.2] at hnone
    contradiction

/-! ## Moves -/

/-- Where nothing stands, nothing gets from inside a bare place. -/
theorem node?_move_eq_none {old new q : Place} (hold : t.Bare old) (hqnew : q ≠ new)
    (hq : t.node? q = none) : (t.move old new).node? q = none := by
  have hroot : q ≠ [] := by
    rintro rfl
    simp [node?] at hq
  rw [node?, if_neg hroot, find?_eq_none_iff]
  intro moved hmoved
  obtain ⟨entry, hentry, rfl⟩ := List.mem_map.1 hmoved
  have hlisted : entry ∈ t.nodes := (List.mem_filter.1 hentry).1
  dsimp only
  by_cases hinside : inside old entry.1 = true
  · by_cases hsame : entry.1 = old
    · rw [(relocate_eq_new_iff hinside).2 hsame]
      exact Ne.symm hqnew
    · exact absurd rfl (ne_of_node?_eq_none (hold _ hinside hsame) entry hlisted)
  · rw [relocate_of_not_inside _ hinside]
    exact ne_of_node?_eq_none hq entry hlisted

/-- **What stands where after a move** of what has nothing inside, to a place
that has nothing inside. -/
theorem node?_move_of_bare {old new : Place} (hold₀ : old ≠ []) (hnew₀ : new ≠ [])
    (hne : old ≠ new) (hinto : ¬inside old new = true) (hapart : ¬inside new old = true)
    (hold : t.Bare old) (hnew : t.Bare new) (q : Place) :
    (t.move old new).node? q =
      if q = new then t.node? old else if q = old then none else t.node? q := by
  by_cases hwithin : (inside old q = true ∧ q ≠ old) ∨ (inside new q = true ∧ q ≠ new)
  · have hq : t.node? q = none ∧ q ≠ old ∧ q ≠ new := by
      rcases hwithin with ⟨hinside, hqold⟩ | ⟨hinside, hqnew⟩
      · refine ⟨hold q hinside hqold, hqold, ?_⟩
        rintro rfl
        exact hinto hinside
      · refine ⟨hnew q hinside hqnew, ?_, hqnew⟩
        rintro rfl
        exact hapart hinside
    obtain ⟨hnone, hqold, hqnew⟩ := hq
    rw [if_neg hqnew, if_neg hqold, hnone, node?_move_eq_none hold hqnew hnone]
  · rw [not_or, not_and, not_and, Decidable.not_not, Decidable.not_not] at hwithin
    exact node?_move t hold₀ hnew₀ hne hapart hwithin.1 hwithin.2

/-! ## Walks -/

theorem walk_cons_eq_ok_iff {place dir : Place} {name : String} {rest : List String}
    (hhere : name ≠ ".") (habove : name ≠ "..") :
    t.walk place (name :: rest) = .ok dir ↔ name.utf8ByteSize ≤ Path.nameLimit ∧
      t.node? (name :: place) = some .directory ∧ t.walk (name :: place) rest = .ok dir := by
  rw [walk, if_neg hhere, if_neg habove]
  constructor
  · intro h
    split at h
    · contradiction
    · contradiction
    · next hentry =>
        obtain ⟨hsize, hnode⟩ := entry?_eq_ok_iff.1 hentry
        exact ⟨hsize, hnode, h⟩
    · contradiction
  · rintro ⟨hsize, hnode, hrest⟩
    rw [entry?_eq_ok hsize, hnode]
    exact hrest

/-- **Trees with the same directories are walked alike.** -/
theorem walk_congr (h : ∀ q, t'.node? q = some .directory ↔ t.node? q = some .directory)
    {start dir : Place} {names : List String} :
    t'.walk start names = .ok dir ↔ t.walk start names = .ok dir := by
  induction names generalizing start with
  | nil => rfl
  | cons name rest ih =>
      by_cases hhere : name = "."
      · simp only [walk, hhere, if_true]
        exact ih
      · by_cases habove : name = ".."
        · simp [walk, habove, ih]
        · rw [walk_cons_eq_ok_iff hhere habove, walk_cons_eq_ok_iff hhere habove, h, ih]

/-- A walk from a directory gets to a directory. -/
theorem Grounded.node?_of_walk (h : t.Grounded) {start dir : Place} {names : List String}
    (hstart : t.node? start = some .directory) (hwalk : t.walk start names = .ok dir) :
    t.node? dir = some .directory := by
  induction names generalizing start with
  | nil =>
      rw [walk, Except.ok.injEq] at hwalk
      exact hwalk ▸ hstart
  | cons name rest ih =>
      by_cases hhere : name = "."
      · rw [walk, if_pos hhere] at hwalk
        exact ih hstart hwalk
      · by_cases habove : name = ".."
        · rw [walk, if_neg hhere, if_pos habove] at hwalk
          exact ih (h.parent hstart) hwalk
        · obtain ⟨-, hnode, hrest⟩ := (walk_cons_eq_ok_iff hhere habove).1 hwalk
          exact ih hnode hrest

/-- Routes start at a directory. -/
theorem Grounded.node?_origin (h : t.Grounded) (r : Route) :
    t.node? (Path.origin t.home r) = some .directory := by
  rw [Path.origin]
  split
  · rfl
  · exact h.2

end FileTree

end TraceLog
