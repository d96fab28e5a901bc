import Mathlib.Data.List.Induction
import SceneScript.Proofs.PathPlaces

/-! # Directories that are made

Making a directory with those above it adds directories where nothing was, at places of its path
only. If it succeeds, all places of the path are directories afterwards; if it fails, some of them
may have been made.
-/

namespace SceneScript.FileTree

variable {tree later : FileTree} {places : List Place} {path : Text}

/-! ## Trees with more directories -/

/-- `later` is the tree with directories at some of the places, where nothing was. -/
structure AddsDirectories (tree : FileTree) (places : List Place) (later : FileTree) : Prop where
  workingDirectory : later.workingDirectory = tree.workingDirectory
  nodes : ∀ place, later.node? place = tree.node? place ∨
    place ∈ places ∧ tree.node? place = none ∧ later.node? place = some .directory

namespace AddsDirectories

theorem refl (tree : FileTree) (places : List Place) : tree.AddsDirectories places tree :=
  ⟨rfl, fun _ => .inl rfl⟩

theorem trans {last : FileTree} (h : tree.AddsDirectories places later)
    (hlast : later.AddsDirectories places last) : tree.AddsDirectories places last := by
  refine ⟨hlast.workingDirectory.trans h.workingDirectory, fun place => ?_⟩
  rcases h.nodes place with hsame | ⟨hmem, hnone, hmade⟩
  · rw [← hsame]
    exact hlast.nodes place
  · rcases hlast.nodes place with hsame | ⟨_, hmissing, _⟩
    · exact .inr ⟨hmem, hnone, hsame.trans hmade⟩
    · rw [hmade] at hmissing
      cases hmissing

theorem staysIn (h : tree.AddsDirectories places later) : tree.StaysIn later := by
  refine ⟨h.workingDirectory, fun place node hnode => ?_⟩
  rcases h.nodes place with hsame | ⟨_, hnone, _⟩
  · rw [hsame, hnode]
  · rw [hnone] at hnode
    cases hnode

/-- Where all the places are directories afterwards, just the missing ones have been added. -/
theorem node?_eq (h : tree.AddsDirectories places later)
    (hall : ∀ place ∈ places, later.node? place = some .directory) (place : Place) :
    later.node? place = if place ∈ places ∧ tree.node? place = none then some .directory
      else tree.node? place := by
  split
  next hmissing => exact hall place hmissing.1
  next hpresent =>
    rcases h.nodes place with hsame | ⟨hmem, hnone, _⟩
    · exact hsame
    · exact absurd ⟨hmem, hnone⟩ hpresent

end AddsDirectories

/-! ## Trees as a disk has them -/

/-- Whatever lies in the tree lies in a directory, and the working directory is one. -/
structure Sound (tree : FileTree) : Prop where
  workingDirectory : tree.node? tree.workingDirectory = some .directory
  parent : ∀ place name, tree.node? (place ++ [name]) ≠ none → tree.node? place = some .directory

/-- It is enough to look at the nodes of the tree. -/
theorem sound_of_nodes (hworking : tree.node? tree.workingDirectory = some .directory)
    (h : ∀ entry ∈ tree.nodes, tree.node? entry.1.dropLast = some .directory) : tree.Sound := by
  refine ⟨hworking, fun place name hnode => ?_⟩
  obtain ⟨node, hlookup⟩ := Option.ne_none_iff_exists'.mp hnode
  rw [node?, if_neg (by simp)] at hlookup
  obtain ⟨front, back, hsplit, _⟩ := List.lookup_eq_some_iff.mp hlookup
  have hparent := h (place ++ [name], node) (by rw [hsplit]; simp)
  rwa [List.dropLast_concat] at hparent

namespace Sound

variable (h : tree.Sound)
include h

/-- All places above one where something lies are directories. -/
theorem of_prefix {place front : Place} (hnode : tree.node? place ≠ none) (hfront : front <+: place)
    (hne : front ≠ place) : tree.node? front = some .directory := by
  obtain ⟨back, rfl⟩ := hfront
  induction back using List.reverseRecOn with
  | nil => exact absurd (List.append_nil front).symm hne
  | append_singleton back name ih =>
      rw [← List.append_assoc] at hnode
      have hparent := h.parent _ _ hnode
      by_cases hnil : back = []
      · rwa [hnil, List.append_nil] at hparent
      · exact ih (by rw [hparent]; exact nofun) (by simpa using hnil)

theorem base (path : Text) : tree.node? (tree.base path) = some .directory := by
  unfold FileTree.base
  split
  next => exact tree.node?_nil
  next => exact h.workingDirectory

/-- Something new in a directory leaves the tree sound. -/
theorem add {place : Place} (hnone : tree.node? place = none)
    (hparent : ∀ front name, place = front ++ [name] → tree.node? front = some .directory)
    (node : FileNode) : (tree.add place node).Sound := by
  have hstays := StaysIn.add hnone node
  refine ⟨hstays.nodes _ _ h.workingDirectory, fun front name hnode => ?_⟩
  apply hstays.nodes
  rw [node?_add hnone] at hnode
  split at hnode
  next hsame => exact hparent front name hsame.symm
  next => exact h.parent front name hnode

/-- A step from a directory to where nothing lies is a step down. -/
theorem parent_of_next {place : Place} {component : Text}
    (hdirectory : tree.node? place = some .directory)
    (hnone : tree.node? (Place.next place component) = none) {front : Place} {name : Text}
    (hnext : Place.next place component = front ++ [name]) :
    tree.node? front = some .directory := by
  have hhere : Place.next place component ≠ place := fun hsame => by
    rw [hsame, hdirectory] at hnone
    cases hnone
  unfold Place.next at hnext hnone hhere
  split at hnext
  next hnothing => exact absurd (if_pos hnothing) hhere
  next hsome =>
    rw [if_neg hsome] at hnone
    split at hnext
    next hdots =>
      -- Nothing is missing above a directory.
      rw [if_pos hdots] at hnone
      rcases List.eq_nil_or_concat place with rfl | ⟨above, last, rfl⟩
      · cases hnone
      · rw [List.concat_eq_append, List.dropLast_concat] at hnone
        rw [List.concat_eq_append] at hdirectory
        rw [h.parent above last (by rw [hdirectory]; exact nofun)] at hnone
        cases hnone
    next =>
      rw [(List.append_inj' hnext rfl).1] at hdirectory
      exact hdirectory

end Sound

/-! ## Making one directory -/

theorem dropTrailingSlashes_append (path : Text) :
    ∃ count, path = dropTrailingSlashes path ++ List.replicate count '/' := by
  have hslashes : path.reverse.takeWhile (· = '/') =
      List.replicate (path.reverse.takeWhile (· = '/')).length '/' := by
    rw [List.eq_replicate_iff]
    exact ⟨rfl, fun c hc => by simpa using List.mem_takeWhile_imp hc⟩
  refine ⟨(path.reverse.takeWhile (· = '/')).length, ?_⟩
  calc path = path.reverse.reverse := (List.reverse_reverse path).symm
    _ = (path.reverse.takeWhile (· = '/') ++ path.reverse.dropWhile (· = '/')).reverse := by
        rw [List.takeWhile_append_dropWhile]
    _ = dropTrailingSlashes path ++ (path.reverse.takeWhile (· = '/')).reverse :=
        List.reverse_append
    _ = _ := by rw [hslashes, List.reverse_replicate, List.length_replicate]

theorem way_append_slashes (tree : FileTree) (place : Place) (front : Text) (count : Nat) :
    (tree.Leads place (Text.splitAt '/' (front ++ List.replicate count '/')) ↔
      tree.Leads place (Text.splitAt '/' front)) ∧
    Place.target place (Text.splitAt '/' (front ++ List.replicate count '/')) =
      Place.target place (Text.splitAt '/' front) := by
  induction count with
  | zero =>
      rw [List.replicate_zero, List.append_nil]
      exact ⟨Iff.rfl, rfl⟩
  | succ count ih =>
      have hsplit : Text.splitAt '/' (front ++ List.replicate (count + 1) '/') =
          Text.splitAt '/' (front ++ List.replicate count '/') ++ [[]] := by
        rw [List.replicate_succ', ← List.append_assoc, Text.splitAt_append]
        rfl
      rw [hsplit, leads_concat_nil, Place.target_concat, Place.next_nil]
      exact ih

/-- Slashes at the end of a path do not lead further. -/
theorem way_dropTrailingSlashes (tree : FileTree) (path : Text) :
    (tree.Leads (tree.base path) (Text.splitAt '/' (dropTrailingSlashes path)) ↔
      tree.HasDirectory path) ∧
    Place.target (tree.base path) (Text.splitAt '/' (dropTrailingSlashes path)) =
      tree.target path := by
  obtain ⟨count, hpath⟩ := dropTrailingSlashes_append path
  have hway := way_append_slashes tree (tree.base path) (dropTrailingSlashes path) count
  rw [← hpath] at hway
  exact ⟨hway.1.symm, hway.2.symm⟩

/-- A directory that is made stands where its path leads to. -/
structure Makes (tree : FileTree) (path : Text) (later : FileTree) : Prop where
  isPath : IsPath path
  missing : tree.node? (tree.target path) = none
  made : later = tree.add (tree.target path) .directory
  there : later.HasDirectory path
  parent : ∃ place component, tree.node? place = some .directory ∧
    Place.next place component = tree.target path

theorem makes_of_makeDirectory (h : tree.makeDirectory path = .ok later) :
    tree.Makes path later := by
  obtain ⟨hleads, htarget⟩ := way_dropTrailingSlashes tree path
  unfold makeDirectory at h
  split at h
  next => cases h
  next place hfollow =>
    obtain ⟨hpath, hwalk⟩ := follow_eq_ok_iff.mp hfollow
    obtain rfl : tree.target path = place := htarget ▸ (walk_eq_ok_iff.mp hwalk).2.2
    split at h
    next => cases h
    next hnone =>
      obtain rfl := Except.ok.inj h
      have hstays := StaysIn.add hnone .directory
      refine ⟨hpath, hnone, rfl, ?_, ?_⟩
      · rw [← (way_dropTrailingSlashes _ path).1, leads_iff_walk,
          (way_dropTrailingSlashes _ path).2]
        exact ⟨hstays.walk_eq_ok hwalk, (node?_add hnone _).trans (if_pos rfl)⟩
      · obtain ⟨front, component, hsplit⟩ := (List.eq_nil_or_concat _).resolve_left
          (Text.splitAt_ne_nil '/' (dropTrailingSlashes path))
        rw [hsplit, List.concat_eq_append, walk_concat_eq_ok_iff] at hwalk
        obtain ⟨hfront, _, hnext⟩ := hwalk
        exact ⟨_, component, hfront.along _ (Place.target_mem_along _ _), hnext⟩

theorem makeDirectory_of_hasDirectory (hpath : IsPath path) (h : tree.HasDirectory path) :
    tree.makeDirectory path = .error .alreadyExists := by
  rw [← (way_dropTrailingSlashes tree path).1, leads_iff_walk] at h
  simp only [makeDirectory, follow_of_isPath hpath, h.1, h.2]

namespace Makes

theorem addsDirectories (h : tree.Makes path later) (hmem : tree.target path ∈ places) :
    tree.AddsDirectories places later := by
  obtain rfl := h.made
  refine ⟨rfl, fun place => ?_⟩
  rw [node?_add h.missing]
  split
  next hsame => exact .inr ⟨hsame ▸ hmem, hsame ▸ h.missing, rfl⟩
  next => exact .inl rfl

theorem sound (h : tree.Makes path later) (hsound : tree.Sound) : later.Sound := by
  obtain ⟨place, component, hdirectory, hnext⟩ := h.parent
  obtain rfl := h.made
  refine hsound.add h.missing (fun front name hplace => ?_) .directory
  exact hsound.parent_of_next hdirectory (hnext ▸ h.missing) (hnext.trans hplace)

end Makes

/-! ## Making several directories -/

/-- `later` is the tree after some of the paths have been made directories, one after another. -/
inductive MakesSome (paths : List Text) : FileTree → FileTree → Prop
  | none (tree : FileTree) : MakesSome paths tree tree
  | more {tree made later : FileTree} {path : Text} (mem : path ∈ paths)
    (first : tree.Makes path made) (rest : MakesSome paths made later) :
    MakesSome paths tree later

namespace MakesSome

variable {paths : List Text}

theorem one (hmem : path ∈ paths) (h : tree.Makes path later) : MakesSome paths tree later :=
  .more hmem h (.none later)

theorem trans {last : FileTree} (h : MakesSome paths tree later)
    (hlast : MakesSome paths later last) : MakesSome paths tree last := by
  induction h with
  | none => exact hlast
  | more hmem hfirst _ ih => exact .more hmem hfirst (ih hlast)

theorem mono {more : List Text} (h : MakesSome paths tree later) (hsub : paths ⊆ more) :
    MakesSome more tree later := by
  induction h with
  | none => exact .none _
  | more hmem hfirst _ ih => exact .more (hsub hmem) hfirst ih

theorem addsDirectories (h : MakesSome paths tree later)
    (hplaces : ∀ path ∈ paths, tree.target path ∈ places) :
    tree.AddsDirectories places later := by
  induction h with
  | none tree => exact .refl tree places
  | more hmem hfirst _ ih =>
      have hmade := hfirst.addsDirectories (hplaces _ hmem)
      refine hmade.trans (ih fun path hpath => ?_)
      rw [target_congr hmade.workingDirectory]
      exact hplaces path hpath

theorem sound (h : MakesSome paths tree later) (hsound : tree.Sound) : later.Sound := by
  induction h with
  | none => exact hsound
  | more _ hfirst _ ih => exact ih (hfirst.sound hsound)

end MakesSome

/-- Making a directory with those above it makes some of them, whether it succeeds or not. -/
theorem makesSome_makeAll (tree : FileTree) (paths : List Text) :
    MakesSome paths tree (tree.makeAll paths).2 := by
  induction paths generalizing tree with
  | nil => exact .none tree
  | cons path above ih =>
      have habove := (ih tree).mono (List.subset_cons_self path above)
      unfold makeAll
      split
      next made hmade => exact .one List.mem_cons_self (makes_of_makeDirectory hmade)
      next =>
        split
        next next hall => rwa [hall] at habove
        next next hall =>
          rw [hall] at habove
          split
          next last hlast =>
            exact habove.trans (.one List.mem_cons_self (makes_of_makeDirectory hlast))
          next => exact habove
      next => exact .none tree

/-- If making the first of the directories succeeds, it is there afterwards. -/
theorem isDirectory_of_makeAll {above : List Text}
    (h : (tree.makeAll (path :: above)).1 = .ok ()) :
    (tree.makeAll (path :: above)).2.isDirectory path := by
  have hmade : ∀ {before made : FileTree}, before.makeDirectory path = .ok made →
      made.isDirectory path := by
    intro before made hmade
    have hmakes := makes_of_makeDirectory hmade
    exact isDirectory_iff.mpr ⟨hmakes.isPath, hmakes.there⟩
  have hthere : ∀ {before : FileTree} {error : FileError},
      (if error = .alreadyExists ∧ before.isDirectory path then .ok () else .error error :
        Except FileError Unit) = .ok () → before.isDirectory path := by
    intro before error hok
    by_cases hexists : error = .alreadyExists ∧ before.isDirectory path
    · exact hexists.2
    · rw [if_neg hexists] at hok
      cases hok
  revert h
  unfold makeAll
  split
  next made hfirst => exact fun _ => hmade hfirst
  next =>
    split
    next => exact nofun
    next =>
      split
      next last hlast => exact fun _ => hmade hlast
      next => exact hthere
  next => exact hthere

/-! ## The directories above a path -/

theorem mem_properBeginnings {α : Type} {items front : List α}
    (h : front ∈ properBeginnings items) : front <+: items ∧ front ≠ [] := by
  obtain ⟨count, hcount, rfl⟩ := List.mem_map.mp h
  rw [List.mem_reverse, List.mem_drop_iff_getElem] at hcount
  obtain ⟨i, hi, rfl⟩ := hcount
  rw [List.length_range] at hi
  refine ⟨List.take_prefix _ _, ?_⟩
  rw [List.getElem_range, ← List.length_pos_iff, List.length_take]
  omega

/-- The beginnings of a path lead to places of the path. -/
theorem target_mem_along_of_prefix (tree : FileTree) {front : List Text}
    (h : front <+: Path.components path) :
    Place.target (tree.base path) front ∈ tree.along path := by
  obtain ⟨back, hback⟩ := h
  obtain ⟨before, after, hsplit, rfl, _⟩ := List.filter_eq_append_iff.mp hback.symm
  rw [Place.target_filter]
  · exact Place.mem_along_iff.mpr ⟨before, ⟨after, hsplit.symm⟩, rfl⟩
  · intro component hcomponent
    simpa [or_iff_not_imp_left] using hcomponent

/-- Components that mean something make up a path that starts from the working directory. -/
theorem isAbsolute_join {front : List Text}
    (h : ∀ component ∈ front, component ≠ [] ∧ '/' ∉ component) :
    Path.isAbsolute (Text.join '/' front) = false := by
  cases front with
  | nil => rfl
  | cons first rest =>
      obtain ⟨hne, hslash⟩ := h first List.mem_cons_self
      obtain ⟨after, hjoin⟩ := Text.prefix_join '/' first rest
      obtain ⟨c, tail, rfl⟩ := List.exists_cons_of_ne_nil hne
      rw [List.mem_cons, not_or] at hslash
      rw [← hjoin]
      simpa [Path.isAbsolute] using Ne.symm hslash.1

/-- The paths of the directories above a path lead to places of the path. -/
theorem target_mem_along_of_mem_withAncestors (tree : FileTree) {above : Text}
    (h : above ∈ withAncestors path) : tree.target above ∈ tree.along path := by
  rcases List.mem_cons.mp h with rfl | habove
  · exact Place.target_mem_along _ _
  · obtain ⟨front, hfront, rfl⟩ := List.mem_map.mp habove
    obtain ⟨hfronts, hne⟩ := mem_properBeginnings hfront
    have hparts : ∀ component ∈ front, component ≠ [] ∧ '/' ∉ component := by
      intro component hmem
      obtain ⟨hsplit, hmeans⟩ := List.mem_filter.mp (hfronts.subset hmem)
      rw [Bool.and_eq_true] at hmeans
      exact ⟨of_decide_eq_true hmeans.1, Text.not_mem_of_mem_splitAt hsplit⟩
    have hsplit := Text.splitAt_join hne fun component hmem => (hparts component hmem).2
    have htarget := target_mem_along_of_prefix tree hfronts
    unfold base at htarget
    by_cases hroot : Path.isAbsolute path
    · have hslash := Text.splitAt_append '/' [] (Text.join '/' front)
      rw [hsplit] at hslash
      rw [if_pos hroot] at htarget ⊢
      rw [List.singleton_append, target, ← List.nil_append ('/' :: _), hslash]
      exact htarget
    · rw [if_neg hroot] at htarget ⊢
      rw [List.nil_append, target, base, isAbsolute_join hparts, hsplit]
      exact htarget

/-! ## Making a directory with those above it -/

/-- Only directories are added, at places of the path. -/
theorem addsDirectories_makeDirectories (tree : FileTree) (path : Text) :
    tree.AddsDirectories (tree.along path) (tree.makeDirectories path).2 := by
  unfold makeDirectories
  split
  next => exact .refl tree _
  next =>
    exact (makesSome_makeAll tree _).addsDirectories fun above habove =>
      target_mem_along_of_mem_withAncestors tree habove

theorem sound_makeDirectories (h : tree.Sound) (path : Text) :
    (tree.makeDirectories path).2.Sound := by
  unfold makeDirectories
  split
  next => exact h
  next => exact (makesSome_makeAll tree _).sound h

/-- A path of slashes leads to the root, and the empty path to the working directory. -/
theorem hasDirectory_of_all_slashes (h : tree.Sound) (hpath : path.all (· = '/')) :
    tree.HasDirectory path := by
  have hslashes : path = List.replicate path.length '/' :=
    List.eq_replicate_iff.mpr ⟨rfl, fun c hc => of_decide_eq_true (List.all_eq_true.mp hpath c hc)⟩
  have hbase : tree.Leads (tree.base path) ([] ++ [[]]) :=
    leads_concat_nil.mpr ⟨List.forall_mem_singleton.mpr (h.base path), nofun⟩
  have hway := (way_append_slashes tree (tree.base path) [] path.length).1.mpr hbase
  rwa [List.nil_append, ← hslashes] at hway

/-- If making a directory succeeds, it is there afterwards. -/
theorem hasDirectory_of_makeDirectories (h : tree.Sound)
    (hmade : (tree.makeDirectories path).1 = .ok ()) :
    (tree.makeDirectories path).2.HasDirectory path ∧ '\x00' ∉ path := by
  unfold makeDirectories at hmade ⊢
  split
  next hslashes =>
    have hall : path.all (· = '/') := hslashes.elim (fun hnil => hnil ▸ rfl) id
    refine ⟨hasDirectory_of_all_slashes h hall, fun hnul => ?_⟩
    have hslash := List.all_eq_true.mp hall '\x00' hnul
    cases hslash
  next hsome =>
    rw [if_neg hsome] at hmade
    obtain ⟨hpath, hthere⟩ := isDirectory_iff.mp (isDirectory_of_makeAll hmade)
    exact ⟨hthere, hpath.no_nul⟩

/-- A directory that is there is not made again. -/
theorem makeDirectories_of_isDirectory (h : tree.isDirectory path) :
    tree.makeDirectories path = (.ok (), tree) := by
  unfold makeDirectories
  split
  next => rfl
  next =>
    obtain ⟨hpath, hthere⟩ := isDirectory_iff.mp h
    rw [withAncestors, makeAll, makeDirectory_of_hasDirectory hpath hthere]
    exact congrArg (·, tree) (if_pos ⟨rfl, h⟩)

end SceneScript.FileTree
