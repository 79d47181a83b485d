import TraceLog.Proofs.Store.Places
import TraceLog.Store.Disk

/-!
# TraceLog.Proofs.Store.Calls

What a call has done once it has succeeded.

A call that succeeds has done to the tree what it is there for, whatever the
disk may do to later calls; one that fails has left the tree alone.

* `FileTree.node?_move` — what stands where after a move;
* `FileTree.remove_eq_ok`, `FileTree.rename_eq_ok`,
  `FileTree.openForAppend_eq_ok` — the calls that change a tree;
* `FileAction.exists?_eq` — whether a path leads anywhere;
* `FileTree.AddsDirectories` — all that making a directory may change;
* `FileAction.Within` — what holds of an action whatever comes of it.
-/

namespace TraceLog

namespace FileTree

variable {t t' : FileTree}

/-! ## Moves -/

theorem inside_self (place : Place) : inside place place = true :=
  List.isSuffixOf_iff_suffix.2 (List.suffix_refl place)

/-- What is inside a directory gets inside the new one. -/
theorem inside_relocate {old place : Place} (new : Place) (h : inside old place = true) :
    inside new (relocate old new place) = true := by
  rw [relocate, if_pos h]
  exact List.isSuffixOf_iff_suffix.2 (List.suffix_append _ _)

/-- Only the directory itself gets to the new place. -/
theorem relocate_eq_new_iff {old new place : Place} (h : inside old place = true) :
    relocate old new place = new ↔ place = old := by
  obtain ⟨above, rfl⟩ := List.isSuffixOf_iff_suffix.1 h
  rw [relocate, if_pos h]
  simp

theorem relocate_append (above old new : Place) :
    relocate old new (above ++ old) = above ++ new := by
  have hinside : inside old (above ++ old) = true :=
    List.isSuffixOf_iff_suffix.2 (List.suffix_append above old)
  rw [relocate, if_pos hinside]
  simp

theorem relocate_of_not_inside {old place : Place} (new : Place) (h : ¬inside old place = true) :
    relocate old new place = place := if_neg h

/-- The list of a tree after a move, at a place that is not inside the old or
the new one. -/
theorem find?_move (nodes : List (Place × Node)) {old new q : Place} (hne : old ≠ new)
    (hold : inside old q = true → q = old) (hnew : inside new q = true → q = new)
    (hapart : ¬inside new old = true) :
    find? ((nodes.filter fun entry => entry.1 != new).map
        fun entry => (relocate old new entry.1, entry.2)) q =
      if q = new then find? nodes old else if q = old then none else find? nodes q := by
  induction nodes with
  | nil => simp [find?]
  | cons entry rest ih =>
      obtain ⟨p, node⟩ := entry
      by_cases hpnew : p = new
      · -- The node that is replaced.
        subst hpnew
        rw [List.filter_cons_of_neg (by simp), ih]
        by_cases hq : q = p
        · simp [hq, find?, hne]
        · simp [hq, find?]
      · rw [List.filter_cons_of_pos (by simpa using hpnew), List.map_cons, find?, ih]
        by_cases hinside : inside old p = true
        · by_cases hpold : p = old
          · -- The node that moves.
            subst hpold
            rw [(relocate_eq_new_iff hinside).2 rfl]
            by_cases hq : q = new
            · simp [hq, find?]
            · by_cases hqp : q = p
              · simp [hqp, hne]
              · simp [hq, hqp, find?]
          · -- A node inside it, which gets inside the new place.
            have hmoved : q ≠ relocate old new p := by
              intro heq
              have hin := inside_relocate new hinside
              rw [← heq] at hin
              rw [hnew hin] at heq
              exact hpold ((relocate_eq_new_iff hinside).1 heq.symm)
            have hqp : q ≠ p ∨ q = old := by
              by_cases hqp : q = p
              · exact .inr (hold (hqp ▸ hinside))
              · exact .inl hqp
            rw [if_neg hmoved]
            rcases hqp with hqp | hqold
            · simp [find?, hqp, Ne.symm hpold]
            · simp [hqold, hne]
        · -- A node elsewhere.
          rw [relocate_of_not_inside new hinside]
          have hpold : p ≠ old := by
            rintro rfl
            exact hinside (inside_self p)
          by_cases hq : q = new
          · simp [hq, find?, Ne.symm hpnew, Ne.symm hpold]
          · by_cases hqold : q = old
            · simp [hqold, hne, Ne.symm hpold]
            · simp [hq, hqold, find?]

/-- **What stands where after a move**, at a place that is not inside the old
or the new one: the node is at the new place, the old one is empty, and all
else is as before. -/
theorem node?_move (t : FileTree) {old new q : Place} (hold₀ : old ≠ []) (hnew₀ : new ≠ [])
    (hne : old ≠ new) (hapart : ¬inside new old = true)
    (hold : inside old q = true → q = old) (hnew : inside new q = true → q = new) :
    (t.move old new).node? q =
      if q = new then t.node? old else if q = old then none else t.node? q := by
  by_cases hroot : q = []
  · subst hroot
    simp [node?, Ne.symm hold₀, Ne.symm hnew₀]
  · simp only [node?, hroot, hold₀, if_false]
    exact find?_move t.nodes hne hold hnew hapart

/-! ## Calls on a tree -/

/-- A file that could be removed is gone. -/
theorem remove_eq_ok {r : Route} (h : t.remove r = .ok t') :
    ∃ name dir node, t.approach r = .ok (.entry name dir) ∧ t.node? (name :: dir) = some node ∧
      node ≠ .directory ∧ r.slash = false ∧ t' = t.erase (name :: dir) := by
  rw [remove] at h
  split at h
  · contradiction
  · contradiction
  · next name dir happroach =>
      unfold entry? at h
      by_cases hlong : Path.nameLimit < name.utf8ByteSize
      · rw [if_pos hlong] at h
        contradiction
      · rw [if_neg hlong] at h
        cases hnode : t.node? (name :: dir) with
        | none => simp [hnode] at h
        | some node =>
            cases node with
            | directory => simp [hnode] at h
            | _ =>
                simp only [hnode] at h
                split at h
                · contradiction
                · next hslash =>
                    rw [Except.ok.injEq] at h
                    exact ⟨name, dir, _, happroach, hnode, by simp, by simpa using hslash, h.symm⟩

/-- A step that succeeds goes on from one that succeeded. -/
theorem bind_eq_ok_iff {ε α β : Type} {x : Except ε α} {f : α → Except ε β} {b : β} :
    (x >>= f) = .ok b ↔ ∃ a, x = .ok a ∧ f a = .ok b := by
  cases x <;> simp [bind, Except.bind]

/-- What could be replaced has moved, unless both places are one. -/
theorem replace_eq_ok {old new : Place} {node : Node} {replaced : Option Node} {slash : Bool}
    (h : t.replace old new node replaced slash = .ok t') :
    (old = new ∧ t' = t) ∨
      (old ≠ new ∧ ¬inside old new = true ∧ ¬inside new old = true ∧ t' = t.move old new) := by
  unfold replace at h
  dsimp only at h
  split at h
  · contradiction
  · split at h
    · next heq =>
        rw [Except.ok.injEq] at h
        exact .inl ⟨heq, h.symm⟩
    · next hne =>
        split at h
        · contradiction
        · next hinto =>
            split at h
            · contradiction
            · next hapart =>
                refine .inr ⟨hne, hinto, hapart, ?_⟩
                repeat' split at h
                all_goals first
                  | contradiction
                  | rw [Except.ok.injEq] at h
                    exact h.symm

theorem entry?_eq_ok_iff {dir : Place} {name : String} {found : Option Node} :
    t.entry? dir name = .ok found ↔
      name.utf8ByteSize ≤ Path.nameLimit ∧ t.node? (name :: dir) = found := by
  unfold entry?
  split
  · simp only [reduceCtorEq, false_iff]
    omega
  · simp only [Except.ok.injEq]
    constructor
    · exact fun h => ⟨by omega, h⟩
    · exact fun h => h.2

/-- What a path leads to is a directory by one of its own names, or an entry;
only a directory may have a slash behind its name. -/
theorem lookup_eq_ok {r : Route} {place : Place} {node : Node}
    (h : t.lookup r = .ok (place, node)) :
    (∃ dir, t.approach r = .ok (.here dir) ∧ node = .directory) ∨
      ∃ name dir, t.approach r = .ok (.entry name dir) ∧ place = name :: dir ∧
        name.utf8ByteSize ≤ Path.nameLimit ∧ t.node? place = some node ∧
        (node = .directory ∨ r.slash = false) := by
  rw [lookup] at h
  split at h
  · contradiction
  · next dir happroach =>
      simp only [Except.ok.injEq, Prod.mk.injEq] at h
      exact .inl ⟨dir, happroach, h.2.symm⟩
  · next name dir happroach =>
      refine .inr ⟨name, dir, happroach, ?_⟩
      split at h
      · contradiction
      · contradiction
      · next hentry =>
          simp only [Except.ok.injEq, Prod.mk.injEq] at h
          obtain ⟨rfl, rfl⟩ := h
          obtain ⟨hsize, hnode⟩ := entry?_eq_ok_iff.1 hentry
          exact ⟨rfl, hsize, hnode, .inl rfl⟩
      · next found hentry =>
          split at h
          · contradiction
          · next hslash =>
              simp only [Except.ok.injEq, Prod.mk.injEq] at h
              obtain ⟨rfl, rfl⟩ := h
              obtain ⟨hsize, hnode⟩ := entry?_eq_ok_iff.1 hentry
              exact ⟨rfl, hsize, hnode, .inr (by simpa using hslash)⟩

/-- What could be renamed stood at the old path, and has moved to the new one
unless both are one place. -/
theorem rename_eq_ok {old new : Route} (h : t.rename old new = .ok t') :
    ∃ a d b e node, t.approach old = .ok (.entry a d) ∧ t.approach new = .ok (.entry b e) ∧
      t.node? (a :: d) = some node ∧ a.utf8ByteSize ≤ Path.nameLimit ∧
      b.utf8ByteSize ≤ Path.nameLimit ∧
      ((a :: d = b :: e ∧ t' = t) ∨
        (a :: d ≠ b :: e ∧ ¬inside (a :: d) (b :: e) = true ∧ ¬inside (b :: e) (a :: d) = true ∧
          t' = t.move (a :: d) (b :: e))) := by
  rw [rename] at h
  obtain ⟨-, -, h⟩ := bind_eq_ok_iff.1 h
  obtain ⟨-, -, h⟩ := bind_eq_ok_iff.1 h
  obtain ⟨first, hfirst, h⟩ := bind_eq_ok_iff.1 h
  obtain ⟨second, hsecond, h⟩ := bind_eq_ok_iff.1 h
  cases first with
  | here dir => simp at h
  | entry a d =>
      cases second with
      | here dir => simp at h
      | entry b e =>
          obtain ⟨found, hfound, h⟩ := bind_eq_ok_iff.1 h
          obtain ⟨hsize, hnode⟩ := entry?_eq_ok_iff.1 hfound
          cases found with
          | none => simp at h
          | some node =>
              obtain ⟨replaced, hreplaced, h⟩ := bind_eq_ok_iff.1 h
              obtain ⟨hsize', -⟩ := entry?_eq_ok_iff.1 hreplaced
              exact ⟨a, d, b, e, node, hfirst, hsecond, hnode, hsize, hsize', replace_eq_ok h⟩

/-- What could be opened is a file, or a device, or a new empty file. -/
theorem openForAppend_eq_ok {r : Route} {place : Place} (h : t.openForAppend r = .ok (place, t')) :
    ∃ name dir, t.approach r = .ok (.entry name dir) ∧ r.slash = false ∧
      name.utf8ByteSize ≤ Path.nameLimit ∧ place = name :: dir ∧
      ((t.node? place = none ∧ t' = t.put place (.file "")) ∨
        ∃ node, t.node? place = some node ∧ node ≠ .directory ∧ t' = t) := by
  rw [openForAppend] at h
  split at h
  · contradiction
  · contradiction
  · next name dir happroach =>
      split at h
      · contradiction
      · next hslash =>
          refine ⟨name, dir, happroach, by simpa using hslash, ?_⟩
          split at h
          · contradiction
          · next hentry =>
              obtain ⟨hsize, hnode⟩ := entry?_eq_ok_iff.1 hentry
              simp only [Except.ok.injEq, Prod.mk.injEq] at h
              obtain ⟨rfl, rfl⟩ := h
              exact ⟨hsize, rfl, .inl ⟨hnode, rfl⟩⟩
          · contradiction
          · next node hdir hentry =>
              obtain ⟨hsize, hnode⟩ := entry?_eq_ok_iff.1 hentry
              simp only [Except.ok.injEq, Prod.mk.injEq] at h
              obtain ⟨rfl, rfl⟩ := h
              exact ⟨hsize, rfl, .inr ⟨node, hnode, hdir, rfl⟩⟩

/-! ## What only making directories may change -/

/-- The second tree has what the first one has, and new directories. -/
structure AddsDirectories (t t' : FileTree) : Prop where
  home_eq : t'.home = t.home
  node?_eq : ∀ place, t'.node? place = t.node? place ∨
    (t.node? place = none ∧ t'.node? place = some .directory)

theorem AddsDirectories.refl (t : FileTree) : t.AddsDirectories t := ⟨rfl, fun _ => .inl rfl⟩

theorem AddsDirectories.trans {t t' t'' : FileTree} (h : t.AddsDirectories t')
    (h' : t'.AddsDirectories t'') : t.AddsDirectories t'' := by
  refine ⟨h'.home_eq.trans h.home_eq, fun place => ?_⟩
  rcases h'.node?_eq place with hsame | ⟨hnone, hnew⟩
  · rw [hsame]
    exact h.node?_eq place
  · rcases h.node?_eq place with hsame | ⟨-, hdir⟩
    · exact .inr ⟨hsame ▸ hnone, hnew⟩
    · rw [hdir] at hnone
      contradiction

/-- Making a directory adds it. -/
theorem makeDirectory_eq_ok {r : Route} (h : t.makeDirectory r = .ok t') :
    t.AddsDirectories t' := by
  rw [makeDirectory] at h
  split at h
  · contradiction
  · contradiction
  · next name dir happroach =>
      split at h
      · contradiction
      · next hentry =>
          obtain ⟨-, hnode⟩ := entry?_eq_ok_iff.1 hentry
          rw [Except.ok.injEq] at h
          subst h
          refine ⟨rfl, fun place => ?_⟩
          rw [node?_put t (by simp)]
          split
          · next heq => exact .inr ⟨heq ▸ hnode, rfl⟩
          · exact .inl rfl
      · contradiction

end FileTree

namespace Disk

variable {α : Type} {c : Call} {d d' : Disk}

/-! ## Calls on a disk -/

/-- No call fails by itself. -/
def Quiet (d : Disk) : Prop := ∀ n c, d.faults n c = none

theorem Quiet.of_faults_eq (h : d.Quiet) (hfaults : d'.faults = d.faults) : d'.Quiet := by
  intro n c
  rw [hfaults]
  exact h n c

/-- Asking for a length never fails by itself. -/
def Sighted (d : Disk) : Prop := ∀ n r, d.faults n (.length r) = none

theorem Quiet.sighted (h : d.Quiet) : d.Sighted := fun n r => h n (.length r)

theorem Sighted.of_faults_eq (h : d.Sighted) (hfaults : d'.faults = d.faults) : d'.Sighted := by
  intro n r
  rw [hfaults]
  exact h n r

/-- No call changes what fails by itself. -/
theorem call_faults (c : Call) (run : FileTree → Except SystemFault (α × FileTree)) (d : Disk) :
    (call c run d).2.faults = d.faults := by
  rw [call]
  dsimp only
  split
  · rfl
  · split <;> rfl

/-- A call that fails leaves the tree alone. -/
theorem call_eq_error {run : FileTree → Except SystemFault (α × FileTree)} {fault : SystemFault}
    (h : call c run d = (.error fault, d')) : d'.tree = d.tree ∧ d'.faults = d.faults := by
  refine ⟨?_, by rw [← call_faults c run d, h]⟩
  rw [call] at h
  dsimp only at h
  split at h
  · cases h
    rfl
  · split at h
    · cases h
      rfl
    · cases h

/-- A call that succeeds has done to the tree what it is there for. -/
theorem call_eq_ok {run : FileTree → Except SystemFault (α × FileTree)} {value : α}
    (h : call c run d = (.ok value, d')) :
    run d.tree = .ok (value, d'.tree) ∧ d'.faults = d.faults := by
  refine ⟨?_, by rw [← call_faults c run d, h]⟩
  rw [call] at h
  dsimp only at h
  split at h
  · cases h
  · split at h
    · cases h
    · next hrun =>
        cases h
        exact hrun

theorem change_eq_ok {run : FileTree → Except SystemFault FileTree}
    (h : change c run d = (.ok (), d')) : run d.tree = .ok d'.tree ∧ d'.faults = d.faults := by
  obtain ⟨hrun, hfaults⟩ := call_eq_ok h
  refine ⟨?_, hfaults⟩
  cases htree : run d.tree with
  | error fault => simp [htree, Except.map] at hrun
  | ok tree => simpa [htree, Except.map] using hrun

theorem change_eq_error {run : FileTree → Except SystemFault FileTree} {fault : SystemFault}
    (h : change c run d = (.error fault, d')) : d'.tree = d.tree ∧ d'.faults = d.faults := by
  rw [change] at h
  exact call_eq_error h

/-- Where no call fails by itself, it is the tree that has made a call fail. -/
theorem Quiet.run_eq_error (hquiet : d.Quiet) {run : FileTree → Except SystemFault FileTree}
    {fault : SystemFault} (h : change c run d = (.error fault, d')) :
    run d.tree = .error fault := by
  rw [change, call, hquiet] at h
  cases hrun : run d.tree with
  | error found =>
      simp only [hrun, Except.map] at h
      cases h
      rfl
  | ok tree =>
      simp only [hrun, Except.map] at h
      cases h

/-- A call that only looks leaves the tree alone, and sees what is there if no
call fails by itself. -/
theorem query_eq (c : Call) (look : FileTree → Except SystemFault α) (d : Disk) :
    (query c look d).2.tree = d.tree ∧ (query c look d).2.faults = d.faults ∧
      (∀ value, (query c look d).1 = .ok value → look d.tree = .ok value) ∧
      (d.Quiet → (query c look d).1 = look d.tree) := by
  refine ⟨?_, call_faults c _ d, ?_, ?_⟩
  · rw [query, call]
    dsimp only
    split
    · rfl
    · cases look d.tree <;> rfl
  · intro value h
    rw [query, call] at h
    dsimp only at h
    split at h
    · contradiction
    · cases hlook : look d.tree with
      | error fault => simp [hlook, Except.map] at h
      | ok seen => simpa [hlook, Except.map] using h
  · intro hquiet
    rw [query, call, hquiet]
    cases look d.tree <;> rfl

/-- What the second disk has beyond the first one are directories. -/
structure Grows (d d' : Disk) : Prop where
  tree : d.tree.AddsDirectories d'.tree
  faults_eq : d'.faults = d.faults

theorem Grows.trans {d'' : Disk} (h : d.Grows d') (h' : d'.Grows d'') : d.Grows d'' :=
  ⟨h.tree.trans h'.tree, h'.faults_eq.trans h.faults_eq⟩

theorem Grows.of_tree_eq (htree : d'.tree = d.tree) (hfaults : d'.faults = d.faults) :
    d.Grows d' := ⟨htree ▸ .refl _, hfaults⟩

end Disk

namespace FileAction

open Disk

variable {α β : Type} {d d' : Disk}

/-- Actions in turn that succeed: the first one has succeeded, and so has the
second one from where the first one ended. -/
theorem bind_eq_ok {a : FileAction α} {f : α → FileAction β} {value : β}
    (h : (a >>= f) d = (.ok value, d')) :
    ∃ x between, a d = (.ok x, between) ∧ f x between = (.ok value, d') := by
  rw [run_bind] at h
  rcases hrun : a d with ⟨_ | x, between⟩
  · rw [hrun] at h
    cases h
  · rw [hrun] at h
    exact ⟨x, between, rfl, h⟩

/-- An action whose outcome is asked for, and then one that succeeds. -/
theorem outcome_bind_eq_ok {a : FileAction α} {f : Except SystemFault α → FileAction β} {value : β}
    (h : (outcome a >>= f) d = (.ok value, d')) : f (a d).1 (a d).2 = (.ok value, d') := by
  rwa [run_bind, run_outcome] at h

/-- Asking for a length changes nothing. -/
theorem length_eq (path : String) (d : Disk) :
    (length path d).2.tree = d.tree ∧ (length path d).2.faults = d.faults := by
  obtain ⟨htree, hfaults, -, -⟩ :=
    query_eq (.length (Path.route path)) (·.lengthAt (Path.route path)) d
  exact ⟨htree, hfaults⟩

/-- So does asking for the length of what has been opened. -/
theorem lengthOf_eq (place : Place) (d : Disk) :
    (lengthOf place d).2.tree = d.tree ∧ (lengthOf place d).2.faults = d.faults := by
  obtain ⟨htree, hfaults, -, -⟩ := query_eq (.lengthOf place) (fun t => .ok (t.lengthOf place)) d
  exact ⟨htree, hfaults⟩

/-- The length that is told of what has been opened is that of the tree. -/
theorem eq_of_lengthOf_eq_ok {place : Place} {size : Nat}
    (h : lengthOf place d = (.ok size, d')) : size = d.tree.lengthOf place := by
  obtain ⟨-, -, hseen, -⟩ := query_eq (.lengthOf place) (fun t => .ok (t.lengthOf place)) d
  have hsize : (lengthOf place d).1 = .ok size := by rw [h]
  simpa [eq_comm] using hseen size hsize

/-- Whether a path leads anywhere can be told; if it is said not to on a quiet
disk, then it does not. -/
theorem exists?_eq (path : String) (d : Disk) :
    ∃ found d', exists? path d = (.ok found, d') ∧ d'.tree = d.tree ∧ d'.faults = d.faults ∧
      (found = false → d.Quiet → ∃ fault, d.tree.lookup (Path.route path) = .error fault) := by
  obtain ⟨htree, hfaults, -, hquiet⟩ :=
    query_eq (.length (Path.route path)) (·.lengthAt (Path.route path)) d
  have hrun : exists? path d = (.ok (length path d).1.isOk, (length path d).2) := by
    rw [exists?, run_bind, run_outcome]
    cases (length path d).1 <;> rfl
  refine ⟨_, _, hrun, htree, hfaults, ?_⟩
  intro hfound hq
  rw [length, hquiet hq, FileTree.lengthAt] at hfound
  cases hlookup : d.tree.lookup (Path.route path) with
  | error fault => exact ⟨fault, rfl⟩
  | ok found => simp [hlookup, Except.isOk, Except.toBool] at hfound

/-- The length that is told is that of the tree, unless asking for it fails by
itself. -/
theorem length_fst_eq (path : String) (hsight : d.Sighted) :
    (length path d).1 = d.tree.lengthAt (Path.route path) := by
  rw [length, query, call, hsight]
  cases d.tree.lengthAt (Path.route path) <;> rfl

/-- What is there is seen, unless asking for a length fails by itself. -/
theorem exists?_eq_of_sighted (path : String) (hsight : d.Sighted) :
    ∃ d', exists? path d = (.ok (d.tree.lookup (Path.route path)).isOk, d') ∧ d'.tree = d.tree ∧
      d'.faults = d.faults := by
  obtain ⟨htree, hfaults⟩ := length_eq path d
  refine ⟨(length path d).2, ?_, htree, hfaults⟩
  rw [exists?, run_bind, run_outcome, length_fst_eq path hsight, FileTree.lengthAt]
  cases d.tree.lookup (Path.route path) <;> rfl

/-! ## What holds whatever comes of an action -/

/-- A relation of disks that a step which changes nothing keeps to, and so do
steps in turn. -/
structure Steady (R : Disk → Disk → Prop) : Prop where
  of_tree_eq : ∀ {d d'}, d'.tree = d.tree → d'.faults = d.faults → R d d'
  trans : ∀ {d d' d''}, R d d' → R d' d'' → R d d''

/-- Whatever comes of the action, the disk that it leaves is so related to the
one that it finds. -/
def Within (R : Disk → Disk → Prop) (action : FileAction α) : Prop := ∀ d, R d (action d).2

namespace Within

variable {R : Disk → Disk → Prop}

theorem pure (hR : Steady R) (x : α) : Within R (pure x : FileAction α) :=
  fun _ => hR.of_tree_eq rfl rfl

theorem throw (hR : Steady R) (fault : SystemFault) :
    Within R (throw fault : FileAction α) := fun _ => hR.of_tree_eq rfl rfl

theorem outcome {a : FileAction α} (ha : Within R a) : Within R (outcome a) := ha

theorem bind (hR : Steady R) {a : FileAction α} {f : α → FileAction β} (ha : Within R a)
    (hf : ∀ x, Within R (f x)) : Within R (a >>= f) := by
  intro d
  have hfirst := ha d
  rw [run_bind]
  rcases hrun : a d with ⟨_ | x, d'⟩
  · rwa [hrun] at hfirst
  · rw [hrun] at hfirst
    exact hR.trans hfirst (hf x d')

theorem query (hR : Steady R) (c : Call) (look : FileTree → Except SystemFault α) :
    Within R (query c look) := fun d =>
  hR.of_tree_eq (query_eq c look d).1 (query_eq c look d).2.1

/-- Making a directory keeps to what it keeps to when it succeeds. -/
theorem makeDirectory (hR : Steady R) (r : Route)
    (hmade : ∀ {d d'}, d.tree.makeDirectory r = .ok d'.tree → d'.faults = d.faults → R d d') :
    Within R (makeDirectory r) := by
  intro d
  rcases hrun : FileAction.makeDirectory r d with ⟨fault | _, d'⟩
  · obtain ⟨htree, hfaults⟩ := change_eq_error hrun
    exact hR.of_tree_eq htree hfaults
  · obtain ⟨htree, hfaults⟩ := change_eq_ok hrun
    exact hmade htree hfaults

theorem unlessThere (hR : Steady R) (r : Route) (fault : SystemFault) :
    Within R (unlessThere r fault) := by
  refine .bind hR (.outcome (.query hR _ _)) fun there => ?_
  split
  · exact .pure hR ()
  · exact .throw hR fault

theorem ensureDirectory (hR : Steady R) (r : Route) {above : FileAction Unit}
    (hmake : Within R (FileAction.makeDirectory r)) (habove : Within R above) :
    Within R (ensureDirectory r above) := by
  refine .bind hR (.outcome hmake) fun made => ?_
  split
  · exact .pure hR ()
  · refine .bind hR habove fun _ => .bind hR (.outcome hmake) fun again => ?_
    split
    · exact .pure hR ()
    · exact .unlessThere hR r _
  · exact .unlessThere hR r _

theorem makeWay (hR : Steady R) (hmake : ∀ r, Within R (FileAction.makeDirectory r))
    (absolute : Bool) (size : Nat) (names : List String) :
    Within R (makeWay absolute size names) := by
  induction names with
  | nil => exact .pure hR ()
  | cons name above ih => exact .ensureDirectory hR _ (hmake _) ih

/-- **Making the directory of a file** keeps to whatever making a directory
keeps to. -/
theorem makeParent (hR : Steady R) (hmake : ∀ r, Within R (FileAction.makeDirectory r))
    (path : String) : Within R (makeParent path) := .makeWay hR hmake _ _ _

end Within

/-- Whatever comes of the action, the disk has the faults it had. -/
def KeepsFaults (action : FileAction α) : Prop := ∀ d : Disk, (action d).2.faults = d.faults

theorem keepsFaults_call (c : Call) (run : FileTree → Except SystemFault (α × FileTree)) :
    KeepsFaults (call c run) := call_faults c run

theorem steady_faults : Steady fun d d' => d'.faults = d.faults :=
  ⟨fun _ hfaults => hfaults, fun h h' => h'.trans h⟩

/-- Whatever comes of the action, all it may do is make directories. -/
def OnlyMakes (action : FileAction α) : Prop := ∀ d : Disk, d.Grows (action d).2

theorem steady_grows : Steady Grows := ⟨.of_tree_eq, .trans⟩

/-- **Making the directory of a file adds directories and nothing else**,
whatever comes of it. -/
theorem onlyMakes_makeParent (path : String) : OnlyMakes (makeParent path) :=
  Within.makeParent steady_grows (fun r => .makeDirectory steady_grows r fun htree hfaults =>
    ⟨FileTree.makeDirectory_eq_ok htree, hfaults⟩) path

end FileAction

end TraceLog
