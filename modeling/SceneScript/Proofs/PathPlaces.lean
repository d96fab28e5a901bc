import SceneScript.Files.Tree
import SceneScript.Proofs.FileNames

/-! # The places of a path

The components of a path alone decide which places it leads through and where it leads to. What lies
in the tree decides only whether one gets there: every place on the way has to be a directory. So a
path that leads somewhere leads to the same place in every tree that grows out of this one.
-/

namespace SceneScript

/-! ## Where components lead -/

namespace Place

/-- Where a component leads from a place. -/
def next (place : Place) (component : Text) : Place :=
  if component = [] ∨ component = ['.'] then place
  else if component = ['.', '.'] then place.dropLast
  else place ++ [component]

/-- Where components lead from a place. -/
def target (place : Place) (components : List Text) : Place :=
  components.foldl next place

/-- The places that components lead through, in order, without the one that they lead to. -/
def passed (place : Place) : List Text → List Place
  | [] => []
  | component :: rest => place :: passed (next place component) rest

/-- The places that components lead through and the one that they lead to. -/
def along (place : Place) (components : List Text) : List Place :=
  passed place components ++ [target place components]

theorem target_append (place : Place) (front back : List Text) :
    target place (front ++ back) = target (target place front) back :=
  List.foldl_append

theorem passed_append (place : Place) (front back : List Text) :
    passed place (front ++ back) = passed place front ++ passed (target place front) back := by
  induction front generalizing place with
  | nil => rfl
  | cons component rest ih => exact congrArg (place :: ·) (ih _)

theorem passed_concat (place : Place) (front : List Text) (component : Text) :
    passed place (front ++ [component]) = along place front :=
  passed_append place front [component]

theorem target_concat (place : Place) (front : List Text) (component : Text) :
    target place (front ++ [component]) = next (target place front) component :=
  target_append place front [component]

theorem next_nil (place : Place) : next place [] = place :=
  if_pos (.inl rfl)

theorem next_of_ne {component : Text} (hnil : component ≠ []) (hdot : component ≠ ['.'])
    (hdots : component ≠ ['.', '.']) (place : Place) :
    next place component = place ++ [component] := by
  rw [next, if_neg (not_or.mpr ⟨hnil, hdot⟩), if_neg hdots]

theorem along_cons (place : Place) (component : Text) (rest : List Text) :
    along place (component :: rest) = place :: along (next place component) rest :=
  rfl

/-- The places on the way are those that the beginnings of the way lead to. -/
theorem mem_along_iff {place other : Place} {components : List Text} :
    other ∈ along place components ↔
      ∃ front, front <+: components ∧ target place front = other := by
  induction components generalizing place with
  | nil =>
      rw [along, passed, List.nil_append, List.mem_singleton]
      constructor
      · rintro rfl
        exact ⟨[], List.prefix_rfl, rfl⟩
      · rintro ⟨front, hfront, rfl⟩
        rw [List.prefix_nil.mp hfront]
  | cons component rest ih =>
      rw [along_cons, List.mem_cons, ih]
      constructor
      · rintro (rfl | ⟨front, hfront, rfl⟩)
        · exact ⟨[], List.nil_prefix, rfl⟩
        · exact ⟨component :: front, List.cons_prefix_cons.mpr ⟨rfl, hfront⟩, rfl⟩
      · rintro ⟨front, hfront, rfl⟩
        cases front with
        | nil => exact .inl rfl
        | cons first more =>
            obtain ⟨rfl, hmore⟩ := List.cons_prefix_cons.mp hfront
            exact .inr ⟨more, hmore, rfl⟩

theorem target_mem_along (place : Place) (components : List Text) :
    target place components ∈ along place components :=
  List.mem_append_right _ (List.mem_singleton_self _)

/-- Components that mean nothing lead nowhere. -/
theorem target_filter {meaningful : Text → Bool}
    (h : ∀ component, meaningful component = false → component = [] ∨ component = ['.'])
    (place : Place) (components : List Text) :
    target place (components.filter meaningful) = target place components := by
  induction components generalizing place with
  | nil => rfl
  | cons component rest ih =>
      by_cases hc : meaningful component
      · rw [List.filter_cons_of_pos hc]
        exact ih _
      · have hnext : next place component = place := if_pos (h component (by simpa using hc))
        rw [List.filter_cons_of_neg hc, ih]
        exact congrArg (target · rest) hnext.symm

/-- A way that never leads upwards stays above the place that it leads to. -/
theorem prefix_target {components : List Text} (h : ['.', '.'] ∉ components) (place : Place) :
    place <+: target place components := by
  induction components generalizing place with
  | nil => exact List.prefix_rfl
  | cons component rest ih =>
      rw [List.mem_cons, not_or] at h
      refine List.IsPrefix.trans ?_ (ih h.2 _)
      unfold next
      split
      next => exact List.prefix_rfl
      next =>
        rw [if_neg (Ne.symm h.1)]
        exact List.prefix_append _ _

theorem prefix_target_of_mem_along {components : List Text} (h : ['.', '.'] ∉ components)
    {place other : Place} (hmem : other ∈ along place components) :
    other <+: target place components := by
  obtain ⟨front, ⟨back, rfl⟩, rfl⟩ := mem_along_iff.mp hmem
  rw [target_append]
  exact prefix_target (fun hback => h (List.mem_append_right _ hback)) _

end Place

namespace FileTree

variable {tree : FileTree} {place stop : Place}

/-! ## What lies at a place -/

theorem node?_nil (tree : FileTree) : tree.node? [] = some .directory :=
  if_pos rfl

theorem node?_add {node : FileNode} (h : tree.node? place = none) (other : Place) :
    (tree.add place node).node? other = if other = place then some node else tree.node? other := by
  have hne : place ≠ [] := by
    rintro rfl
    cases h
  rw [node?, if_neg hne] at h
  by_cases hother : other = place
  · rw [if_pos hother, hother, node?, if_neg hne, add, List.lookup_append, h, Option.none_or]
    exact List.lookup_cons_self
  · rw [if_neg hother]
    unfold node? add
    split
    next => rfl
    next => rw [List.lookup_append, List.lookup_cons, beq_eq_false_iff_ne.mpr hother,
      List.lookup_nil, Option.or_none]

/-- Everything that lies in the tree lies in `later` too, as it is. -/
structure StaysIn (tree later : FileTree) : Prop where
  workingDirectory : later.workingDirectory = tree.workingDirectory
  nodes : ∀ place node, tree.node? place = some node → later.node? place = some node

namespace StaysIn

theorem refl (tree : FileTree) : tree.StaysIn tree :=
  ⟨rfl, fun _ _ => id⟩

theorem trans {middle last : FileTree} (h : tree.StaysIn middle) (hlast : middle.StaysIn last) :
    tree.StaysIn last :=
  ⟨hlast.workingDirectory.trans h.workingDirectory,
    fun place node hnode => hlast.nodes place node (h.nodes place node hnode)⟩

theorem add (h : tree.node? place = none) (node : FileNode) :
    tree.StaysIn (tree.add place node) := by
  refine ⟨rfl, fun other found hfound => ?_⟩
  have hne : other ≠ place := by
    rintro rfl
    rw [h] at hfound
    cases hfound
  rw [node?_add h, if_neg hne, hfound]

end StaysIn

/-! ## Going along components -/

/-- A step from a directory fails only if the name is too long. -/
theorem step_of_directory (h : tree.node? place = some .directory) (component : Text) :
    tree.step place component =
      if Text.byteLength component ≤ nameLimit then .ok (Place.next place component)
      else .error .nameTooLong := by
  have hmarks : component = [] ∨ component = ['.'] ∨ component = ['.', '.'] →
      Text.byteLength component ≤ nameLimit := by
    rintro (rfl | rfl | rfl) <;> decide
  unfold step Place.next
  rw [h]
  dsimp only
  split
  next hnothing => rw [if_pos (hmarks (hnothing.imp_right .inl))]
  next =>
    split
    next hdots => rw [if_pos (hmarks (.inr (.inr hdots)))]
    next =>
      split
      next hlong => rw [if_neg (Nat.not_le.mpr hlong)]
      next hshort => rw [if_pos (Nat.not_lt.mp hshort)]

theorem step_eq_ok_iff {component : Text} :
    tree.step place component = .ok stop ↔ tree.node? place = some .directory ∧
      Text.byteLength component ≤ nameLimit ∧ Place.next place component = stop := by
  by_cases h : tree.node? place = some .directory
  · rw [step_of_directory h]
    by_cases hshort : Text.byteLength component ≤ nameLimit <;> simp [h, hshort]
  · refine iff_of_false (fun hstep => ?_) (fun hall => h hall.1)
    unfold step at hstep
    split at hstep
    next => cases hstep
    next => cases hstep
    next hnode => exact h hnode

/-- One gets to the end exactly if all places on the way are directories and no name is too long. -/
theorem walk_eq_ok_iff {components : List Text} :
    tree.walk place components = .ok stop ↔
      (∀ other ∈ Place.passed place components, tree.node? other = some .directory) ∧
        (∀ component ∈ components, Text.byteLength component ≤ nameLimit) ∧
        Place.target place components = stop := by
  induction components generalizing place with
  | nil => simp [walk, Place.passed, Place.target]
  | cons component rest ih =>
      rw [Place.passed, List.forall_mem_cons, List.forall_mem_cons]
      unfold walk
      cases hstep : tree.step place component with
      | ok next =>
          obtain ⟨hnode, hshort, rfl⟩ := step_eq_ok_iff.mp hstep
          simp only [ih, hnode, hshort, true_and]
          rfl
      | error error =>
          refine iff_of_false (fun h => by cases h) ?_
          rintro ⟨⟨hnode, _⟩, ⟨hshort, _⟩, _⟩
          rw [step_eq_ok_iff.mpr ⟨hnode, hshort, rfl⟩] at hstep
          cases hstep

/-- Where all places on the way are directories, it is only a name that can be too long. -/
theorem walk_eq_nameTooLong {components : List Text}
    (hway : ∀ other ∈ Place.passed place components, tree.node? other = some .directory)
    {component : Text} (hmem : component ∈ components)
    (hlong : nameLimit < Text.byteLength component) :
    tree.walk place components = .error .nameTooLong := by
  induction components generalizing place with
  | nil => cases hmem
  | cons first rest ih =>
      obtain ⟨hnode, hrest⟩ := List.forall_mem_cons.mp hway
      rw [walk, step_of_directory hnode]
      by_cases hfirst : Text.byteLength first ≤ nameLimit
      · rw [if_pos hfirst]
        refine ih hrest ((List.mem_cons.mp hmem).resolve_left ?_)
        rintro rfl
        exact Nat.not_lt.mpr hfirst hlong
      · rw [if_neg hfirst]

/-- Components lead from the place through directories to a directory, and no name is too long. -/
structure Leads (tree : FileTree) (place : Place) (components : List Text) : Prop where
  along : ∀ other ∈ Place.along place components, tree.node? other = some .directory
  short : ∀ component ∈ components, Text.byteLength component ≤ nameLimit

/-- Whatever lies at the end of a way, the place before it is a directory. -/
theorem walk_concat_eq_ok_iff {front : List Text} {component : Text} :
    tree.walk place (front ++ [component]) = .ok stop ↔ tree.Leads place front ∧
      Text.byteLength component ≤ nameLimit ∧
        Place.next (Place.target place front) component = stop := by
  rw [walk_eq_ok_iff, Place.passed_concat, Place.target_concat]
  constructor
  · rintro ⟨hway, hshort, hstop⟩
    obtain ⟨hfront, hlast⟩ := List.forall_mem_append.mp hshort
    exact ⟨⟨hway, hfront⟩, hlast component (List.mem_singleton_self _), hstop⟩
  · rintro ⟨⟨hway, hfront⟩, hlast, hstop⟩
    refine ⟨hway, List.forall_mem_append.mpr ⟨hfront, ?_⟩, hstop⟩
    exact fun other hother => List.mem_singleton.mp hother ▸ hlast

theorem leads_iff_walk {components : List Text} :
    tree.Leads place components ↔
      tree.walk place components = .ok (Place.target place components) ∧
        tree.node? (Place.target place components) = some .directory := by
  rw [walk_eq_ok_iff]
  constructor
  · rintro ⟨halong, hshort⟩
    obtain ⟨hway, htarget⟩ := List.forall_mem_append.mp halong
    exact ⟨⟨hway, hshort, rfl⟩, htarget _ (List.mem_singleton_self _)⟩
  · rintro ⟨⟨hway, hshort, _⟩, htarget⟩
    refine ⟨List.forall_mem_append.mpr ⟨hway, ?_⟩, hshort⟩
    exact fun other hother => List.mem_singleton.mp hother ▸ htarget

/-- A slash behind a directory does not lead further. -/
theorem leads_concat_nil {front : List Text} :
    tree.Leads place (front ++ [[]]) ↔ tree.Leads place front := by
  rw [leads_iff_walk, walk_concat_eq_ok_iff, Place.target_concat, Place.next_nil]
  refine ⟨fun h => h.1.1, fun h => ⟨⟨h, by decide, rfl⟩, ?_⟩⟩
  exact h.along _ (Place.target_mem_along _ _)

/-! ## Where a path leads -/

/-- The system takes the text as a path. -/
structure IsPath (path : Text) : Prop where
  no_nul : '\x00' ∉ path
  ne_nil : path ≠ []
  short : Text.byteLength path ≤ pathLimit

/-- The place that a path leads to, if all goes well on the way. -/
def target (tree : FileTree) (path : Text) : Place :=
  Place.target (tree.base path) (Text.splitAt '/' path)

/-- The places that a path leads through and the one that it leads to. -/
def along (tree : FileTree) (path : Text) : List Place :=
  Place.along (tree.base path) (Text.splitAt '/' path)

/-- The path leads to a directory. The empty path leads to the working directory. -/
def HasDirectory (tree : FileTree) (path : Text) : Prop :=
  tree.Leads (tree.base path) (Text.splitAt '/' path)

theorem base_congr {other : FileTree} (h : other.workingDirectory = tree.workingDirectory)
    (path : Text) : other.base path = tree.base path := by
  rw [base, base, h]

theorem target_congr {other : FileTree} (h : other.workingDirectory = tree.workingDirectory)
    (path : Text) : other.target path = tree.target path := by
  rw [target, target, base_congr h]

theorem along_congr {other : FileTree} (h : other.workingDirectory = tree.workingDirectory)
    (path : Text) : other.along path = tree.along path := by
  rw [along, along, base_congr h]

section Path

variable {path : Text}

theorem follow_of_isPath (h : IsPath path) (components : List Text) :
    tree.follow path components = tree.walk (tree.base path) components := by
  rw [follow, if_neg h.no_nul, if_neg h.ne_nil, if_neg (Nat.not_lt.mpr h.short)]

theorem follow_eq_ok_iff {components : List Text} :
    tree.follow path components = .ok stop ↔
      IsPath path ∧ tree.walk (tree.base path) components = .ok stop := by
  constructor
  · intro h
    have hpath : IsPath path := by
      unfold follow at h
      split at h
      next => cases h
      next hnul =>
        split at h
        next => cases h
        next hne =>
          split at h
          next => cases h
          next hshort => exact ⟨hnul, hne, Nat.not_lt.mp hshort⟩
    exact ⟨hpath, follow_of_isPath hpath components ▸ h⟩
  · rintro ⟨hpath, hwalk⟩
    rw [follow_of_isPath hpath, hwalk]

theorem target_of_resolve (h : tree.resolve path = .ok stop) : tree.target path = stop :=
  (walk_eq_ok_iff.mp (follow_eq_ok_iff.mp h).2).2.2

theorem isDirectory_iff : tree.isDirectory path ↔ IsPath path ∧ tree.HasDirectory path := by
  have hfind : tree.isDirectory path ↔
      ∃ place, tree.resolve path = .ok place ∧ tree.node? place = some .directory := by
    unfold isDirectory find
    cases hresolve : tree.resolve path with
    | error error => simp
    | ok place =>
        cases hnode : tree.node? place with
        | none => simp [hnode]
        | some node => cases node <;> simp [hnode]
  rw [hfind, HasDirectory, leads_iff_walk]
  constructor
  · rintro ⟨place, hresolve, hnode⟩
    obtain ⟨hpath, hwalk⟩ := follow_eq_ok_iff.mp hresolve
    obtain rfl := target_of_resolve hresolve
    exact ⟨hpath, hwalk, hnode⟩
  · rintro ⟨hpath, hwalk, hnode⟩
    exact ⟨_, follow_eq_ok_iff.mpr ⟨hpath, hwalk⟩, hnode⟩

theorem exists?_iff :
    tree.exists? path ↔ ∃ place node, tree.resolve path = .ok place ∧
      tree.node? place = some node := by
  unfold exists? find
  cases hresolve : tree.resolve path with
  | error error => simp
  | ok place => cases hnode : tree.node? place <;> simp [hnode]

end Path

namespace StaysIn

variable {later : FileTree} (h : tree.StaysIn later) {path : Text}
include h

theorem walk_eq_ok {components : List Text} (hwalk : tree.walk place components = .ok stop) :
    later.walk place components = .ok stop := by
  obtain ⟨hway, hrest⟩ := walk_eq_ok_iff.mp hwalk
  exact walk_eq_ok_iff.mpr ⟨fun other hother => h.nodes _ _ (hway other hother), hrest⟩

theorem resolve_eq_ok (hresolve : tree.resolve path = .ok place) :
    later.resolve path = .ok place := by
  obtain ⟨hpath, hwalk⟩ := follow_eq_ok_iff.mp hresolve
  refine follow_eq_ok_iff.mpr ⟨hpath, ?_⟩
  rw [base_congr h.workingDirectory]
  exact h.walk_eq_ok hwalk

theorem exists?_of (hexists : tree.exists? path) : later.exists? path := by
  obtain ⟨place, node, hresolve, hnode⟩ := exists?_iff.mp hexists
  exact exists?_iff.mpr ⟨place, node, h.resolve_eq_ok hresolve, h.nodes _ _ hnode⟩

end StaysIn

/-! ## A file in a directory -/

section File

variable {directory file : Text} (hslash : '/' ∉ file)
include hslash

theorem isAbsolute_eq_false : Path.isAbsolute file = false := by
  cases file with
  | nil => rfl
  | cons c rest =>
      rw [List.mem_cons, not_or] at hslash
      simpa [Path.isAbsolute] using Ne.symm hslash.1

theorem base_join (tree : FileTree) (directory : Text) :
    tree.base (Path.join directory file) = tree.base directory := by
  have hroot : Path.isAbsolute (Path.join directory file) = Path.isAbsolute directory := by
    unfold Path.join
    rw [isAbsolute_eq_false hslash]
    cases directory with
    | nil => exact isAbsolute_eq_false hslash
    | cons c rest =>
        rw [if_neg (by simp)]
        split <;> rfl
  rw [base, base, hroot]

/-- The path of a file goes along its directory. A slash at the end of the directory is not
repeated. -/
theorem exists_splitAt_join (directory : Text) :
    ∃ front, Text.splitAt '/' (Path.join directory file) = front ++ [file] ∧
      (Text.splitAt '/' directory = front ∨ Text.splitAt '/' directory = front ++ [[]]) := by
  have hfile := Text.splitAt_of_not_mem hslash
  unfold Path.join
  rw [isAbsolute_eq_false hslash]
  by_cases hnil : directory = []
  · rw [if_pos (.inr hnil), hnil]
    exact ⟨[], hfile, .inr rfl⟩
  · rw [if_neg (by simpa using hnil)]
    split
    next hlast =>
      obtain ⟨front, rfl⟩ := List.getLast?_eq_some_iff.mp hlast
      refine ⟨Text.splitAt '/' front, ?_, .inr (Text.splitAt_append ..)⟩
      rw [← List.append_cons, Text.splitAt_append, hfile]
    next => exact ⟨Text.splitAt '/' directory, by rw [Text.splitAt_append, hfile], .inl rfl⟩

/-- The way to a file is the way along its directory, and then the file. -/
theorem exists_way_join (tree : FileTree) (directory : Text) :
    ∃ front, Text.splitAt '/' (Path.join directory file) = front ++ [file] ∧
      Place.target (tree.base directory) front = tree.target directory ∧
      (tree.Leads (tree.base directory) front ↔ tree.HasDirectory directory) := by
  obtain ⟨front, hjoin, hdirectory⟩ := exists_splitAt_join hslash directory
  refine ⟨front, hjoin, ?_⟩
  rw [target, HasDirectory]
  rcases hdirectory with hsame | hslashed
  · rw [hsame]
    exact ⟨rfl, Iff.rfl⟩
  · rw [hslashed, Place.target_concat, Place.next_nil]
    exact ⟨rfl, leads_concat_nil.symm⟩

section Named

variable (hnil : file ≠ []) (hdot : file ≠ ['.']) (hdots : file ≠ ['.', '.'])
include hnil hdot hdots

theorem target_join (tree : FileTree) (directory : Text) :
    tree.target (Path.join directory file) = tree.target directory ++ [file] := by
  obtain ⟨front, hjoin, htarget, _⟩ := exists_way_join hslash tree directory
  rw [target, base_join hslash, hjoin, Place.target_concat, htarget,
    Place.next_of_ne hnil hdot hdots]

/-- The path of a file leads there if its directory is there and nothing is too long. -/
theorem resolve_join_eq_ok_iff :
    tree.resolve (Path.join directory file) = .ok stop ↔ IsPath (Path.join directory file) ∧
      tree.HasDirectory directory ∧ Text.byteLength file ≤ nameLimit ∧
        tree.target directory ++ [file] = stop := by
  obtain ⟨front, hjoin, htarget, hleads⟩ := exists_way_join hslash tree directory
  rw [resolve, follow_eq_ok_iff, base_join hslash, hjoin, walk_concat_eq_ok_iff, hleads, htarget,
    Place.next_of_ne hnil hdot hdots]

end Named

/-- In a directory that is there, only the length of the name or of the path can be in the way. -/
theorem resolve_join_eq_nameTooLong (h : tree.HasDirectory directory)
    (hnul : '\x00' ∉ Path.join directory file) (hne : Path.join directory file ≠ [])
    (hlong : Text.byteLength (Path.join directory file) ≤ pathLimit →
      nameLimit < Text.byteLength file) :
    tree.resolve (Path.join directory file) = .error .nameTooLong := by
  by_cases hshort : Text.byteLength (Path.join directory file) ≤ pathLimit
  · obtain ⟨front, hjoin, _, hleads⟩ := exists_way_join hslash tree directory
    rw [resolve, follow_of_isPath ⟨hnul, hne, hshort⟩, base_join hslash, hjoin]
    apply walk_eq_nameTooLong _ (List.mem_append_right _ (List.mem_singleton_self file))
      (hlong hshort)
    rw [Place.passed_concat]
    exact (hleads.mpr h).along
  · rw [resolve, follow, if_neg hnul, if_neg hne, if_pos (Nat.not_le.mp hshort)]

end File

end FileTree

end SceneScript
