import WireMapper.FileTree
import WireMapper.Proofs.Path.Names

/-!
Where a path leads in a file tree. Void pieces lead nowhere, so a file is reached by the names of
its path alone; and names that a directory can hold lead down one level each. A file that is reached
through a directory is therefore listed below it.
-/

namespace WireMapper.FileTree

open WireMapper.Path (isVoid leading)

variable {tree : FileTree} {place reached : Place} {pieces : List String}

theorem isName_of_isEntryName {name : String} (h : isEntryName name = true) : Path.IsName name := by
  simp only [isEntryName, Bool.and_eq_true, Bool.not_eq_true', decide_eq_true_eq] at h
  exact ⟨h.1.1, h.2⟩

theorem ne_up_of_isEntryName {name : String} (h : isEntryName name = true) : name ≠ ".." := by
  simp only [isEntryName, Bool.and_eq_true, decide_eq_true_eq] at h
  exact h.1.2

/-- A path is followed part by part. -/
theorem follow_append (tree : FileTree) (place : Place) (a b : List String) :
    tree.follow place (a ++ b) = tree.follow place a >>= fun middle => tree.follow middle b := by
  fun_induction tree.follow place a <;> simp_all [follow, bind, Except.bind]

theorem follow_append_eq_ok {a b : List String} :
    tree.follow place (a ++ b) = .ok reached ↔
      ∃ middle, tree.follow place a = .ok middle ∧ tree.follow middle b = .ok reached := by
  rw [follow_append]
  cases tree.follow place a <;> simp [bind, Except.bind]

/-- Pieces are looked up in directories. -/
theorem at?_of_follow_cons {piece : String}
    (h : tree.follow place (piece :: pieces) = .ok reached) :
    tree.at? place = some .directory := by
  rw [follow] at h
  split at h <;> simp_all

theorem follow_void {piece : String} (hdirectory : tree.at? place = some .directory)
    (hvoid : isVoid piece = true) : tree.follow place [piece] = .ok place := by
  simp [follow, hdirectory, hvoid]

/-- Void pieces can be left out on the way to a place. -/
theorem follow_leading (h : tree.follow place pieces = .ok reached) :
    tree.follow place (leading pieces) = .ok reached := by
  induction pieces generalizing place with
  | nil => exact h
  | cons piece pieces ih =>
      have hdirectory := at?_of_follow_cons h
      rw [← List.singleton_append] at h ⊢
      obtain ⟨middle, hpiece, hrest⟩ := follow_append_eq_ok.mp h
      cases hvoid : isVoid piece with
      | true =>
          rw [follow_void hdirectory hvoid] at hpiece
          cases hpiece
          simpa [leading, hvoid] using ih hrest
      | false =>
          have hleading : leading [piece] = [piece] := by simp [leading, hvoid]
          rw [Path.leading_append, hleading]
          exact follow_append_eq_ok.mpr ⟨middle, hpiece, ih hrest⟩

/-- Void pieces can be put in on the way to a directory. -/
theorem follow_of_leading (h : tree.follow place (leading pieces) = .ok reached)
    (hdirectory : tree.at? reached = some .directory) : tree.follow place pieces = .ok reached := by
  induction pieces generalizing place with
  | nil => exact h
  | cons piece pieces ih =>
      rw [← List.singleton_append, Path.leading_append] at h
      rw [← List.singleton_append]
      obtain ⟨middle, hpiece, hrest⟩ := follow_append_eq_ok.mp h
      refine follow_append_eq_ok.mpr ⟨middle, ?_, ih hrest⟩
      cases hvoid : isVoid piece with
      | true =>
          obtain rfl : place = middle := by simpa [leading, hvoid, follow] using hpiece
          -- Something is still looked up here, or this is the directory that is reached.
          refine follow_void ?_ hvoid
          cases hrest' : leading pieces with
          | nil =>
              rw [hrest'] at hrest
              cases hrest
              exact hdirectory
          | cons next rest =>
              rw [hrest'] at hrest
              exact at?_of_follow_cons hrest
      | false => simpa [leading, hvoid] using hpiece

/-- Names that a directory can hold lead down. -/
theorem follow_entries {names : List String} (hnames : ∀ name ∈ names, isEntryName name = true)
    (h : tree.follow place names = .ok reached) : reached = place ++ names := by
  induction names generalizing place with
  | nil =>
      cases h
      simp
  | cons name names ih =>
      have hname := hnames name (by simp)
      have hvoid := (isName_of_isEntryName hname).leads
      have hup := ne_up_of_isEntryName hname
      rw [follow, at?_of_follow_cons h] at h
      simp only [hvoid, hup, Bool.false_eq_true, ↓reduceIte] at h
      rw [ih (fun other hother => hnames other (by simp [hother])) h]
      simp

/-- The place from which a path starts depends on its lead alone. -/
theorem start_eq_of_lead {p q : Path} (h : p.lead = q.lead) : tree.start p = tree.start q := by
  simp [start, Path.isAbsolute, h]

/-- A file stands at the place that the names of its path lead to. -/
theorem at?_of_isFile {p : Path} (h : tree.isFile p = true) :
    ∃ place content, tree.follow (tree.start p) p.names = .ok place ∧
      tree.at? place = some (.file content) := by
  unfold isFile node? place? at h
  split at h
  · rename_i content hnode
    split at hnode
    · cases hnode
    · cases hfollow : tree.follow (tree.start p) p.pieces with
      | error e => simp [hfollow, bind, Except.bind] at hnode
      | ok place =>
          refine ⟨place, content, follow_leading hfollow, ?_⟩
          simp only [hfollow, bind, Except.bind] at hnode
          split at hnode
          · cases hnode
          · cases hnode
            assumption
  · cases h

/-- A file below a place is listed there. -/
theorem mem_filesBelow {names : List String} {content : ByteArray}
    (hfile : tree.at? (place ++ names) = some (.file content))
    (hnames : ∀ name ∈ names, isEntryName name = true) : names ∈ tree.filesBelow place := by
  unfold at? at hfile
  split at hfile
  · cases hfile
  · obtain ⟨before, after, hnodes, _⟩ := List.lookup_eq_some_iff.mp hfile
    unfold filesBelow
    rw [List.mem_mergeSort, List.mem_filterMap]
    refine ⟨(place ++ names, .file content), by simp [hnodes], ?_⟩
    simpa using hnames

/-- What is listed below a place is reached by names that a directory can hold. -/
theorem isEntryName_of_mem_filesBelow {names : List String} (h : names ∈ tree.filesBelow place) :
    ∀ name ∈ names, isEntryName name = true := by
  unfold filesBelow at h
  rw [List.mem_mergeSort, List.mem_filterMap] at h
  obtain ⟨⟨at_, node⟩, _, hnode⟩ := h
  cases node with
  | directory => cases hnode
  | file content =>
      simp only [Option.ite_none_right_eq_some, Bool.and_eq_true, Option.some.injEq] at hnode
      obtain ⟨⟨_, hall⟩, rfl⟩ := hnode
      exact List.all_eq_true.mp hall

/-- Where a path leads to a directory, the files under it are those listed below its place. -/
theorem filesUnder_eq {p : Path} (hplace : tree.place? p = .ok place)
    (hdirectory : tree.at? place = some .directory) {below : List Place}
    (hbelow : tree.filesBelow place = below) :
    tree.filesUnder p = below.map fun names => names.foldl (fun p name => p.join ⟨name⟩) p := by
  simp only [filesUnder, hplace, hdirectory, hbelow]

/-- A file reached from a root by names that a directory can hold is listed below the root. -/
theorem listed_of_isFile {root p : Path} {names : List String} (hlead : p.lead = root.lead)
    (hp : p.names = root.names ++ names) (hne : names ≠ [])
    (hnames : ∀ name ∈ names, isEntryName name = true) (hfile : tree.isFile p = true) :
    ∃ place, tree.follow (tree.start root) root.pieces = .ok place ∧
      names ∈ tree.filesBelow place := by
  obtain ⟨reached, content, hfollow, hat⟩ := at?_of_isFile hfile
  rw [hp, start_eq_of_lead hlead] at hfollow
  obtain ⟨place, hroot, hrest⟩ := follow_append_eq_ok.mp hfollow
  have hdirectory : tree.at? place = some .directory := by
    obtain ⟨name, rest, rfl⟩ := List.exists_cons_of_ne_nil hne
    exact at?_of_follow_cons hrest
  rw [follow_entries hnames hrest] at hat
  exact ⟨place, follow_of_leading hroot hdirectory, mem_filesBelow hat hnames⟩

end WireMapper.FileTree
