import SafePath.Files.Tree

/-!
# Appending to one file

Bytes can be appended to a file in one go or piece by piece (`append_append`), and if some can, any can
(`exists_append`).  What is appended changes where no path leads, and nothing but the content of that one
file, so a path that leads elsewhere is read as before (`read_of_apart`).
-/

namespace SafePath.Files.Tree

theorem find?_map_set (nodes : List (Place × Node)) (place q : Place) (node : Node) :
    (nodes.map fun entry => if entry.1 = place then (place, node) else entry).find? (fun entry => entry.1 = q) =
      if q = place then (nodes.find? fun entry => entry.1 = place).map fun _ => (place, node)
      else nodes.find? fun entry => entry.1 = q := by
  induction nodes with
  | nil => simp
  | cons entry rest ih =>
    rw [List.map_cons, List.find?_cons, ih, List.find?_cons, List.find?_cons]
    by_cases hentry : entry.1 = place
    · by_cases hq : q = place
      · simp [hentry, hq]
      · simp [hentry, hq, Ne.symm hq]
    · by_cases hq : q = place
      · simp [hentry, hq]
      · simp [hentry, hq]

@[simp] theorem workingDirectory_set (tree : Tree) (place : Place) (node : Node) :
    (tree.set place node).workingDirectory = tree.workingDirectory := rfl

/-- A place that is set holds what it was set to, and every other place what it held. -/
theorem node?_set (tree : Tree) (place q : Place) (node : Node) :
    (tree.set place node).node? q =
      if q.isPrefixOf tree.workingDirectory then some .directory
      else if q = place then some node
      else tree.node? q := by
  unfold node?
  rw [workingDirectory_set]
  by_cases hthere : q.isPrefixOf tree.workingDirectory
  · simp only [hthere, if_true]
  rw [if_neg hthere, if_neg hthere, if_neg hthere]
  unfold set
  dsimp only
  split
  · next hany =>
    rw [find?_map_set]
    split
    · obtain ⟨entry, hfound⟩ := Option.isSome_iff_exists.mp (List.find?_isSome.mpr (List.any_eq_true.mp hany))
      rw [hfound]
      rfl
    · rfl
  · next hany =>
    have hnone : (tree.nodes.find? fun entry => entry.1 = place) = none :=
      List.find?_eq_none.mpr fun entry hmem heq => hany (List.any_eq_true.mpr ⟨entry, hmem, heq⟩)
    rw [List.find?_append]
    by_cases hq : q = place
    · rw [if_pos hq, hq, hnone]
      simp
    · simp [hq, Ne.symm hq]

theorem set_set (tree : Tree) (place : Place) (a b : Node) :
    (tree.set place a).set place b = tree.set place b := by
  by_cases hany : tree.nodes.any fun entry => entry.1 = place
  · have hstill : (tree.nodes.map fun entry => if entry.1 = place then (place, a) else entry).any
        (fun entry => entry.1 = place) = true := by
      obtain ⟨entry, hmem, heq⟩ := List.any_eq_true.mp hany
      refine List.any_eq_true.mpr ⟨_, List.mem_map.mpr ⟨entry, hmem, rfl⟩, ?_⟩
      rw [if_pos (of_decide_eq_true heq)]
      exact decide_eq_true rfl
    simp only [set, if_pos hany, if_pos hstill, List.map_map]
    congr 1
    refine List.map_congr_left fun entry _ => ?_
    by_cases hentry : entry.1 = place
    · simp [hentry]
    · simp [hentry]
  · have hrest : (tree.nodes.map fun entry => if entry.1 = place then (place, b) else entry) = tree.nodes := by
      have hid : ∀ entry ∈ tree.nodes, (if entry.1 = place then (place, b) else entry) = id entry :=
        fun entry hmem =>
          if_neg fun heq => hany (List.any_eq_true.mpr ⟨entry, hmem, decide_eq_true heq⟩)
      rw [List.map_congr_left hid, List.map_id]
    have hadded : (tree.nodes ++ [(place, a)]).any (fun entry => entry.1 = place) = true := by simp
    simp only [set, if_neg hany, if_pos hadded, List.map_append, hrest]
    simp

/-- Another content of a file changes no way. -/
theorem follow_set_file (tree : Tree) (place p : Place) (c c' : Bytes) (parts : List Text) :
    (tree.set place (.file c)).follow p parts = (tree.set place (.file c')).follow p parts := by
  induction parts generalizing p with
  | nil => rfl
  | cons part rest ih =>
    rw [follow, follow, node?_set, node?_set]
    by_cases hthere : p.isPrefixOf tree.workingDirectory
    · simp only [hthere, if_true, ih]
    · by_cases hp : p = place
      · rw [if_neg hthere, if_neg hthere, if_pos hp, if_pos hp]
      · simp only [hthere, hp, if_false, ih]

/-- A way to a place that is no directory does not lead through it. -/
theorem follow_set_of_ok {tree : Tree} {place p : Place} {parts : List Text}
    (hplace : tree.node? place ≠ some .directory) (h : tree.follow p parts = .ok place) (c : Bytes) :
    (tree.set place (.file c)).follow p parts = .ok place := by
  induction parts generalizing p with
  | nil => exact h
  | cons part rest ih =>
    rw [follow] at h ⊢
    cases hnode : tree.node? p with
    | none => simp only [hnode] at h; cases h
    | some node =>
      cases node with
      | file content => simp only [hnode] at h; cases h
      | directory =>
        have hp : p ≠ place := fun heq => hplace (heq ▸ hnode)
        have hsame : (tree.set place (.file c)).node? p = some .directory := by
          rw [node?_set, if_neg hp, hnode, ite_self]
        rw [hnode] at h
        rw [hsame]
        simp only at h ⊢
        split at h
        · next hdots => rw [if_pos hdots]; exact ih h
        · next hdots =>
          rw [if_neg hdots]
          split at h
          · cases h
          · next hfits => rw [if_neg hfits]; exact ih h

theorem resolve_set_file (tree : Tree) (place : Place) (path : FilePath) (c c' : Bytes) :
    (tree.set place (.file c)).resolve path = (tree.set place (.file c')).resolve path := by
  rw [resolve, resolve, follow_set_file tree place _ c c']
  rfl

theorem resolve_set_of_ok {tree : Tree} {place : Place} {path : FilePath}
    (hplace : tree.node? place ≠ some .directory) (h : tree.resolve path = .ok place) (c : Bytes) :
    (tree.set place (.file c)).resolve path = .ok place := by
  rw [resolve] at h ⊢
  split at h
  · cases h
  · next hfits =>
    rw [if_neg hfits]
    exact follow_set_of_ok hplace h c

/-- A path leads to a place where bytes can be appended to `content`. -/
structure Appendable (tree : Tree) (path : FilePath) (place : Place) (content : Bytes) : Prop where
  usable : unusable? path = none
  leads : tree.resolve path = .ok place
  not_directory : tree.node? place ≠ some .directory
  append_eq : ∀ data, tree.append path data = .ok (tree.set place (.file (content ++ data)))

theorem exists_appendable {tree t : Tree} {path : FilePath} {data : Bytes} (h : tree.append path data = .ok t) :
    ∃ place content, tree.Appendable path place content := by
  unfold append at h
  split at h
  · cases h
  · next husable =>
    split at h
    · cases h
    · next place hleads =>
      split at h
      · cases h
      · next content hnode =>
        refine ⟨place, content, husable, hleads, by simp [hnode], fun more => ?_⟩
        simp only [append, husable, hleads, hnode]
      · next hnode =>
        split at h
        · next hparent =>
          refine ⟨place, [], husable, hleads, by simp [hnode], fun more => ?_⟩
          simp only [append, husable, hleads, hnode, hparent, List.nil_append]
        · cases h

theorem Appendable.set {tree : Tree} {path : FilePath} {place : Place} {content : Bytes}
    (h : tree.Appendable path place content) (c : Bytes) :
    (tree.set place (.file c)).Appendable path place c := by
  have hthere : ¬place.isPrefixOf tree.workingDirectory := fun hthere => h.not_directory (by rw [node?, if_pos hthere])
  have hnode : (tree.set place (.file c)).node? place = some (.file c) := by
    rw [node?_set, if_neg hthere, if_pos rfl]
  have hleads := resolve_set_of_ok h.not_directory h.leads c
  refine ⟨h.usable, hleads, by simp [hnode], fun data => ?_⟩
  simp only [append, h.usable, hleads, hnode, set_set]

section
variable {tree t t' : Tree} {path : FilePath} {a b : Bytes}

/-- Where some bytes can be appended, any can. -/
theorem exists_append (h : tree.append path a = .ok t) (b : Bytes) : ∃ t', tree.append path b = .ok t' := by
  obtain ⟨place, content, happ⟩ := exists_appendable h
  exact ⟨_, happ.append_eq b⟩

/-- **Bytes appended after others** are appended in one go. -/
theorem append_append (h : tree.append path a = .ok t) (b : Bytes) :
    t.append path b = tree.append path (a ++ b) := by
  obtain ⟨place, content, happ⟩ := exists_appendable h
  cases (happ.append_eq a).symm.trans h
  rw [(happ.set (content ++ a)).append_eq b, happ.append_eq (a ++ b), set_set, List.append_assoc]

/-- Two paths do not lead to one place. -/
def Apart (tree : Tree) (p q : FilePath) : Prop :=
  ∀ place, tree.resolve p = .ok place → tree.resolve q ≠ .ok place

/-- **What is appended to a file is read by no path that leads elsewhere.** -/
theorem read_of_apart {other : FilePath} (h : tree.append path a = .ok t) (h' : tree.append path b = .ok t')
    (hapart : t.Apart other path) : t'.read other = t.read other := by
  obtain ⟨place, content, happ⟩ := exists_appendable h
  cases (happ.append_eq a).symm.trans h
  cases (happ.append_eq b).symm.trans h'
  unfold read
  rw [resolve_set_file tree place other (content ++ b) (content ++ a)]
  split
  · rfl
  · split
    · rfl
    · next q hq =>
      have hne : q ≠ place := by
        rintro rfl
        exact hapart q hq (happ.set (content ++ a)).leads
      rw [node?_set, node?_set, if_neg hne, if_neg hne]

end

end SafePath.Files.Tree
