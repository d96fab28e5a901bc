import SceneScript.Proofs.MadeDirectories
import SceneScript.Proofs.RefusedNames
import SceneScript.Proofs.StarterDocuments

/-! # Files that are created

Creating a document makes its directory with those above it, and then writes a file where nothing
is. So whatever lies in the tree stays there as it is, over any run of requests. A request fails
where something is in the place of its file, and where the system does not take its path.
-/

namespace SceneScript

namespace NewRequest

/-- The name may be given to a list, and it is no keyword. -/
def Named (request : NewRequest) : Prop :=
  IsName request.name ∧ Naming.startsUppercase request.name

instance : DecidablePred Named := fun _ => instDecidableAnd

/-- The name of the new file. -/
def fileName (request : NewRequest) : Text :=
  request.name ++ '.' :: fileExtension

/-- Neither the name of the file nor its path is too long for the system. -/
def Fits (request : NewRequest) : Prop :=
  Text.byteLength request.fileName ≤ FileTree.nameLimit ∧
    Text.byteLength request.path ≤ FileTree.pathLimit

instance : DecidablePred Fits := fun _ => instDecidableAnd

/-- The node of the new file, with the starter text of the name. -/
def file (request : NewRequest) : FileNode :=
  .file (String.ofList (starterDocument request.name)).toUTF8

/-- What creating the document answers, and the tree after it. -/
def run (request : NewRequest) (tree : FileTree) : Except Failure Text × FileTree :=
  (create request : StateM FileTree (Except Failure Text)).run tree

/-- The directory exists, or it can be made. -/
def CanMake (request : NewRequest) (tree : FileTree) : Prop :=
  (tree.makeDirectories request.directory).1 = .ok ()

instance (request : NewRequest) (tree : FileTree) : Decidable (request.CanMake tree) :=
  inferInstanceAs (Decidable (_ = _))

/-- The tree with the missing directories of the request, or those of them that could be made. -/
def prepare (request : NewRequest) (tree : FileTree) : FileTree :=
  (tree.makeDirectories request.directory).2

/-- All that creating a document can do. -/
inductive Creates (request : NewRequest) (tree : FileTree) :
    Except Failure Text × FileTree → Prop
  | noDirectory {error : FileError}
    (failed : (tree.makeDirectories request.directory).1 = .error error) :
    Creates request tree (.error (.file error), request.prepare tree)
  | tooLong (made : request.CanMake tree) (long : ¬ request.Fits) :
    Creates request tree (.error (.file .nameTooLong), request.prepare tree)
  | occupied (made : request.CanMake tree) (fits : request.Fits)
    (occupied : (request.prepare tree).exists? request.path) :
    Creates request tree (.error (.alreadyExists request.path), request.prepare tree)
  | created (made : request.CanMake tree) (fits : request.Fits)
    (missing : (request.prepare tree).node? (tree.target request.path) = none)
    (absent : ¬ (request.prepare tree).exists? request.path) :
    Creates request tree
      (.ok request.path, (request.prepare tree).add (tree.target request.path) request.file)

variable {request : NewRequest} {tree : FileTree}

theorem addsDirectories_prepare (request : NewRequest) (tree : FileTree) :
    tree.AddsDirectories (tree.along request.directory) (request.prepare tree) :=
  tree.addsDirectories_makeDirectories request.directory

/-! ## The path of the new file -/

theorem fileName_ne (request : NewRequest) {short : Text} (h : short.length ≤ 3) :
    request.fileName ≠ short :=
  Path.append_fileExtension_ne request.name h

section Path

variable (h : request.Named)
include h

theorem slash_not_mem_fileName : '/' ∉ request.fileName := by
  rw [fileName, List.mem_append, not_or]
  exact ⟨Text.not_mem_of_isIdentifier h.1.1 (by decide), by decide⟩

/-- The path is the directory, perhaps a slash, and the name of the file. -/
theorem exists_path_eq : ∃ gap : Text, (gap = [] ∨ gap = ['/']) ∧
    request.path = request.directory ++ (gap ++ request.fileName) := by
  have hroot := FileTree.isAbsolute_eq_false (slash_not_mem_fileName h)
  change ∃ gap : Text, _ ∧ Path.join request.directory request.fileName = _
  unfold Path.join
  rw [hroot]
  by_cases hnil : request.directory = []
  · exact ⟨[], .inl rfl, by rw [if_pos (.inr hnil), hnil]; rfl⟩
  · rw [if_neg (by simpa using hnil)]
    split
    next => exact ⟨[], .inl rfl, rfl⟩
    next => exact ⟨['/'], .inr rfl, rfl⟩

theorem path_ne_nil : request.path ≠ [] := by
  obtain ⟨gap, _, hpath⟩ := exists_path_eq h
  rw [hpath, fileName]
  simp

theorem nul_mem_path_iff : '\x00' ∈ request.path ↔ '\x00' ∈ request.directory := by
  obtain ⟨gap, hgap, hpath⟩ := exists_path_eq h
  have hname : '\x00' ∉ request.name := Text.not_mem_of_isIdentifier h.1.1 (by decide)
  have hfile : '\x00' ∉ request.fileName := by
    rw [fileName, List.mem_append, not_or]
    exact ⟨hname, by decide⟩
  have hslash : '\x00' ∉ gap := by
    rcases hgap with rfl | rfl <;> decide
  rw [hpath, List.mem_append, List.mem_append, or_iff_left]
  exact not_or.mpr ⟨hslash, hfile⟩

theorem isPath_path_iff : FileTree.IsPath request.path ↔
    '\x00' ∉ request.directory ∧ Text.byteLength request.path ≤ FileTree.pathLimit := by
  rw [← nul_mem_path_iff h]
  exact ⟨fun hpath => ⟨hpath.no_nul, hpath.short⟩, fun hpath => ⟨hpath.1, path_ne_nil h, hpath.2⟩⟩

theorem resolve_path_eq_ok_iff {stop : Place} :
    tree.resolve request.path = .ok stop ↔ FileTree.IsPath request.path ∧
      tree.HasDirectory request.directory ∧
        Text.byteLength request.fileName ≤ FileTree.nameLimit ∧
          tree.target request.directory ++ [request.fileName] = stop :=
  FileTree.resolve_join_eq_ok_iff (slash_not_mem_fileName h) (request.fileName_ne (by decide))
    (request.fileName_ne (by decide)) (request.fileName_ne (by decide))

theorem target_path (tree : FileTree) :
    tree.target request.path = tree.target request.directory ++ [request.fileName] :=
  FileTree.target_join (slash_not_mem_fileName h) (request.fileName_ne (by decide))
    (request.fileName_ne (by decide)) (request.fileName_ne (by decide)) tree request.directory

theorem content_of_named : request.content = .ok (starterDocument request.name) := by
  have hstem : Path.stem request.path = request.name :=
    Path.stem_join (Text.all_isWordChar_of_isIdentifier h.1.1).1
      (Text.not_mem_of_isIdentifier h.1.1 (by decide)) request.directory
  have hparse : parse (starterDocument request.name) (some request.path) =
      .ok ⟨request.name, [starterShape]⟩ := by
    apply parse_starter h.1 h.2
    rintro _ ⟨⟩
    exact hstem
  simp only [content, hparse]

end Path

/-! ## One request -/

section Prepared

variable (h : request.Named) (hsound : tree.Sound) (hmake : request.CanMake tree)
include h hsound hmake

theorem resolve_prepare_of_fits (hfits : request.Fits) :
    (request.prepare tree).resolve request.path = .ok (tree.target request.path) := by
  obtain ⟨hthere, hnul⟩ := FileTree.hasDirectory_of_makeDirectories hsound hmake
  rw [resolve_path_eq_ok_iff h, target_path h, isPath_path_iff h,
    FileTree.target_congr (request.addsDirectories_prepare tree).workingDirectory]
  exact ⟨⟨hnul, hfits.2⟩, hthere, hfits.1, rfl⟩

theorem resolve_prepare_of_not_fits (hlong : ¬ request.Fits) :
    (request.prepare tree).resolve request.path = .error .nameTooLong := by
  obtain ⟨hthere, hnul⟩ := FileTree.hasDirectory_of_makeDirectories hsound hmake
  apply FileTree.resolve_join_eq_nameTooLong (slash_not_mem_fileName h) hthere
  · exact (nul_mem_path_iff h).not.mpr hnul
  · exact path_ne_nil h
  · exact fun hshort => Nat.not_le.mp fun hname => hlong ⟨hname, hshort⟩

theorem exists?_prepare_iff (hfits : request.Fits) :
    (request.prepare tree).exists? request.path ↔
      (request.prepare tree).node? (tree.target request.path) ≠ none := by
  rw [FileTree.exists?_iff, resolve_prepare_of_fits h hsound hmake hfits,
    Option.ne_none_iff_exists']
  constructor
  · rintro ⟨place, node, ⟨⟩, hnode⟩
    exact ⟨node, hnode⟩
  · rintro ⟨node, hnode⟩
    exact ⟨_, node, rfl, hnode⟩

end Prepared

/-- Creating a document does one of the things that it can do. -/
theorem creates_run (h : request.Named) (hsound : tree.Sound) :
    request.Creates tree (request.run tree) := by
  have hrun : request.run tree = _ := create_run_of_content_eq_ok (content_of_named h) tree
  rw [hrun]
  rcases hdirectories : tree.makeDirectories request.directory with ⟨error | _, next⟩
  · have hprepare : request.prepare tree = next := by rw [prepare, hdirectories]
    rw [← hprepare]
    exact .noDirectory (by rw [hdirectories])
  · have hprepare : request.prepare tree = next := by rw [prepare, hdirectories]
    have hmake : request.CanMake tree := by rw [CanMake, hdirectories]
    rw [← hprepare]
    by_cases hfits : request.Fits
    · have hexists := exists?_prepare_iff h hsound hmake hfits
      simp only [FileTree.createFile, resolve_prepare_of_fits h hsound hmake hfits]
      cases hnode : (request.prepare tree).node? (tree.target request.path) with
      | none =>
          rw [hnode] at hexists
          exact .created hmake hfits hnode fun hthere => hexists.mp hthere rfl
      | some node =>
          rw [hnode] at hexists
          exact .occupied hmake hfits (hexists.mpr nofun)
    · simp only [FileTree.createFile, resolve_prepare_of_not_fits h hsound hmake hfits]
      exact .tooLong hmake hfits

/-- Where something exists already, the directory does too, and nothing is too long. -/
theorem makeDirectories_of_exists? (h : request.Named) (hexists : tree.exists? request.path) :
    tree.makeDirectories request.directory = (.ok (), tree) ∧ request.Fits := by
  obtain ⟨place, node, hresolve, _⟩ := FileTree.exists?_iff.mp hexists
  obtain ⟨hpath, hthere, hname, _⟩ := (resolve_path_eq_ok_iff h).mp hresolve
  refine ⟨?_, hname, hpath.short⟩
  by_cases hnil : request.directory = []
  · exact if_pos (.inl hnil)
  · apply FileTree.makeDirectories_of_isDirectory
    obtain ⟨gap, _, hsplit⟩ := exists_path_eq h
    refine FileTree.isDirectory_iff.mpr ⟨⟨?_, hnil, ?_⟩, hthere⟩
    · exact ((isPath_path_iff h).mp hpath).1
    · have hshort := hpath.short
      rw [hsplit, Text.byteLength_append] at hshort
      exact Nat.le_of_add_right_le hshort

/-- Unless the directory leads upwards, making what is missing of it brings nothing into the place
of the file. -/
theorem exists?_of_exists?_prepare (h : request.Named) (hsound : tree.Sound)
    (hdots : ['.', '.'] ∉ Path.components request.directory)
    (hexists : (request.prepare tree).exists? request.path) : tree.exists? request.path := by
  have hadds := request.addsDirectories_prepare tree
  obtain ⟨place, node, hresolve, hnode⟩ := FileTree.exists?_iff.mp hexists
  obtain ⟨hpath, hthere, hname, rfl⟩ := (resolve_path_eq_ok_iff h).mp hresolve
  rw [FileTree.target_congr hadds.workingDirectory] at hnode
  have hsplit : ['.', '.'] ∉ Text.splitAt '/' request.directory := by
    intro hmem
    exact hdots (List.mem_filter.mpr ⟨hmem, by decide⟩)
  have habove : ∀ other ∈ tree.along request.directory, other <+: tree.target request.directory :=
    fun other hother => Place.prefix_target_of_mem_along hsplit hother
  -- The file lies below all places of its directory, so it is none of those that are made.
  have hold : tree.node? (tree.target request.directory ++ [request.fileName]) = some node := by
    rcases hadds.nodes (tree.target request.directory ++ [request.fileName]) with hsame | hmade
    · rw [← hsame, hnode]
    · have hlength := (habove _ hmade.1).length_le
      rw [List.length_append, List.length_singleton] at hlength
      omega
  have hdirectory := hsound.parent _ _ (by rw [hold]; exact nofun)
  have hhere : tree.HasDirectory request.directory := by
    refine ⟨fun other hother => ?_, hthere.short⟩
    by_cases hlast : other = tree.target request.directory
    · rw [hlast, hdirectory]
    · exact hsound.of_prefix (by rw [hdirectory]; exact nofun) (habove other hother) hlast
  exact FileTree.exists?_iff.mpr
    ⟨_, node, (resolve_path_eq_ok_iff h).mpr ⟨hpath, hhere, hname, rfl⟩, hold⟩

/-- What creating a document answers, by what there is in the tree before. -/
structure Answers (request : NewRequest) (tree : FileTree)
    (answer : Except Failure Text × FileTree) : Prop where
  /-- Where something exists, it is reported, and nothing is changed. -/
  refused : tree.exists? request.path → answer = (.error (.alreadyExists request.path), tree)
  /-- In a directory that exists or can be made, the file is written if nothing exists there then
  and the system can take its name and its path. -/
  created_iff : request.CanMake tree → (answer.1 = .ok request.path ↔
    ¬ (request.prepare tree).exists? request.path ∧ request.Fits)
  /-- Missing directories make a difference to that only where they are left upwards. -/
  exists_iff : ['.', '.'] ∉ Path.components request.directory →
    ((request.prepare tree).exists? request.path ↔ tree.exists? request.path)
  /-- The file with the starter text and the missing directories are all that is added. -/
  added : answer.1 = .ok request.path → answer.2.workingDirectory = tree.workingDirectory ∧
    ∀ place, answer.2.node? place =
      if place = tree.target request.path then some request.file
      else if place ∈ tree.along request.directory ∧ tree.node? place = none then some .directory
      else tree.node? place
  /-- A request that fails in its directory leaves the directory there. -/
  failed : request.CanMake tree → answer.1 ≠ .ok request.path →
    answer.2 = request.prepare tree ∧ answer.1 = .error
      (if request.Fits then .alreadyExists request.path else .file .nameTooLong)
  /-- A directory that cannot be made is the failure of the request. -/
  no_directory : ∀ error, (tree.makeDirectories request.directory).1 = .error error →
    answer = (.error (.file error), request.prepare tree)
  /-- The directories that are made are missing ones of the request. -/
  prepared : tree.AddsDirectories (tree.along request.directory) (request.prepare tree)

namespace Creates

variable {answer : Except Failure Text × FileTree}

/-- Whatever lies in the tree stays there. -/
theorem staysIn (h : request.Creates tree answer) : tree.StaysIn answer.2 := by
  have hprepare := (request.addsDirectories_prepare tree).staysIn
  cases h with
  | noDirectory => exact hprepare
  | tooLong => exact hprepare
  | occupied => exact hprepare
  | created _ _ hmissing => exact hprepare.trans (.add hmissing _)

theorem sound (hcreates : request.Creates tree answer) (h : request.Named) (hsound : tree.Sound) :
    answer.2.Sound := by
  have hprepare : (request.prepare tree).Sound :=
    FileTree.sound_makeDirectories hsound request.directory
  cases hcreates with
  | noDirectory => exact hprepare
  | tooLong => exact hprepare
  | occupied => exact hprepare
  | created hmake _ hmissing =>
      refine hprepare.add hmissing (fun front name hplace => ?_) _
      obtain ⟨hthere, _⟩ := FileTree.hasDirectory_of_makeDirectories hsound hmake
      rw [target_path h] at hplace
      rw [← (List.append_inj' hplace rfl).1,
        ← FileTree.target_congr (request.addsDirectories_prepare tree).workingDirectory]
      exact hthere.along _ (Place.target_mem_along _ _)

theorem eq_of_error (h : request.Creates tree answer) {error : FileError}
    (herror : (tree.makeDirectories request.directory).1 = .error error) :
    answer = (.error (.file error), request.prepare tree) := by
  cases h with
  | noDirectory hfailed =>
      obtain rfl := Except.error.inj (hfailed.symm.trans herror)
      rfl
  | tooLong hmake => exact absurd (hmake.symm.trans herror) nofun
  | occupied hmake => exact absurd (hmake.symm.trans herror) nofun
  | created hmake => exact absurd (hmake.symm.trans herror) nofun

theorem canMake_of_ok (h : request.Creates tree answer) {path : Text} (hok : answer.1 = .ok path) :
    request.CanMake tree := by
  cases h with
  | noDirectory => cases hok
  | tooLong => cases hok
  | occupied => cases hok
  | created hmake => exact hmake

/-- In a directory that is there, the file is written where nothing is in the way. -/
theorem eq_of_canMake (h : request.Creates tree answer) (hmake : request.CanMake tree) :
    (request.Fits ∧ ¬ (request.prepare tree).exists? request.path ∧
      (request.prepare tree).node? (tree.target request.path) = none ∧ answer =
        (.ok request.path, (request.prepare tree).add (tree.target request.path) request.file)) ∨
    ((request.Fits → (request.prepare tree).exists? request.path) ∧
      answer = (.error (if request.Fits then .alreadyExists request.path else .file .nameTooLong),
        request.prepare tree)) := by
  cases h with
  | noDirectory hfailed =>
      rw [CanMake, hfailed] at hmake
      cases hmake
  | tooLong _ hlong => exact .inr ⟨fun hfits => absurd hfits hlong, by rw [if_neg hlong]⟩
  | occupied _ hfits hoccupied => exact .inr ⟨fun _ => hoccupied, by rw [if_pos hfits]⟩
  | created _ hfits hmissing habsent => exact .inl ⟨hfits, habsent, hmissing, rfl⟩

end Creates

theorem answers_run (h : request.Named) (hsound : tree.Sound) :
    request.Answers tree (request.run tree) where
  refused hexists := by
    obtain ⟨hmade, hfits⟩ := makeDirectories_of_exists? h hexists
    have hmake : request.CanMake tree := by rw [CanMake, hmade]
    have hprepare : request.prepare tree = tree := by rw [prepare, hmade]
    rcases (creates_run h hsound).eq_of_canMake hmake with ⟨_, habsent, _⟩ | ⟨_, hrun⟩
    · rw [hprepare] at habsent
      exact absurd hexists habsent
    · rw [hrun, if_pos hfits, hprepare]
  created_iff hmake := by
    rcases (creates_run h hsound).eq_of_canMake hmake with
      ⟨hfits, habsent, _, hrun⟩ | ⟨hoccupied, hrun⟩
    · rw [hrun]
      exact iff_of_true rfl ⟨habsent, hfits⟩
    · rw [hrun]
      exact iff_of_false nofun fun hcan => hcan.1 (hoccupied hcan.2)
  exists_iff hdots :=
    ⟨exists?_of_exists?_prepare h hsound hdots,
      (request.addsDirectories_prepare tree).staysIn.exists?_of⟩
  added hok := by
    have hmake := (creates_run h hsound).canMake_of_ok hok
    have hadds := request.addsDirectories_prepare tree
    obtain ⟨hthere, _⟩ := FileTree.hasDirectory_of_makeDirectories hsound hmake
    rcases (creates_run h hsound).eq_of_canMake hmake with ⟨_, _, hmissing, hrun⟩ | ⟨_, hrun⟩
    · rw [hrun]
      refine ⟨hadds.workingDirectory, fun place => ?_⟩
      rw [FileTree.node?_add hmissing, hadds.node?_eq]
      rw [← FileTree.along_congr hadds.workingDirectory]
      exact hthere.along
    · rw [hrun] at hok
      cases hok
  failed hmake hfailed := by
    rcases (creates_run h hsound).eq_of_canMake hmake with ⟨_, _, _, hrun⟩ | ⟨_, hrun⟩
    · rw [hrun] at hfailed
      exact absurd rfl hfailed
    · rw [hrun]
      exact ⟨rfl, rfl⟩
  no_directory error herror := (creates_run h hsound).eq_of_error herror
  prepared := request.addsDirectories_prepare tree

/-- In a directory that is there, something is in the place of the file afterwards. -/
theorem exists?_run (h : request.Named) (hsound : tree.Sound) (hmake : request.CanMake tree)
    (hfits : request.Fits) : (request.run tree).2.exists? request.path := by
  have hcreates := creates_run h hsound
  rcases hcreates.eq_of_canMake hmake with ⟨_, _, hmissing, hrun⟩ | ⟨hoccupied, hrun⟩
  · rw [hrun]
    have hresolve := (FileTree.StaysIn.add hmissing request.file).resolve_eq_ok
      (resolve_prepare_of_fits h hsound hmake hfits)
    exact FileTree.exists?_iff.mpr
      ⟨_, _, hresolve, (FileTree.node?_add hmissing _).trans (if_pos rfl)⟩
  · rw [hrun]
    exact hoccupied hfits

/-- No file is written where something lies already. -/
theorem run_ne_ok (h : request.Named) (hsound : tree.Sound) {node : FileNode}
    (hnode : tree.node? (tree.target request.path) = some node) :
    (request.run tree).1 ≠ .ok request.path := by
  intro hok
  have hcreates := creates_run h hsound
  rcases hcreates.eq_of_canMake (hcreates.canMake_of_ok hok) with
    ⟨_, _, hmissing, _⟩ | ⟨_, hrun⟩
  · rw [(request.addsDirectories_prepare tree).staysIn.nodes _ _ hnode] at hmissing
    cases hmissing
  · rw [hrun] at hok
    cases hok

end NewRequest

/-! ## Runs of requests -/

namespace FileTree

/-- The tree after the requests, one after another. -/
def after (tree : FileTree) (requests : List NewRequest) : FileTree :=
  requests.foldl (fun tree request => (request.run tree).2) tree

variable {tree : FileTree} {requests : List NewRequest}

theorem after_append (tree : FileTree) (before later : List NewRequest) :
    tree.after (before ++ later) = (tree.after before).after later :=
  List.foldl_append

theorem after_cons (tree : FileTree) (request : NewRequest) (later : List NewRequest) :
    tree.after (request :: later) = (request.run tree).2.after later :=
  rfl

/-- Whatever lies in a sound tree stays there over a run, and the tree stays sound. -/
theorem staysIn_after (h : tree.Sound) (hnamed : ∀ request ∈ requests, request.Named) :
    tree.StaysIn (tree.after requests) ∧ (tree.after requests).Sound := by
  induction requests generalizing tree with
  | nil => exact ⟨.refl tree, h⟩
  | cons request later ih =>
      obtain ⟨hrequest, hlater⟩ := List.forall_mem_cons.mp hnamed
      have hcreates := NewRequest.creates_run hrequest h
      obtain ⟨hstays, hsound⟩ := ih (hcreates.sound hrequest h) hlater
      exact ⟨hcreates.staysIn.trans hstays, hsound⟩

end FileTree

/-- Over any run of requests with names that lists can have, nothing that lies in the tree is
changed, each request answers by what there is when it comes, and of those for the same place only
the first one whose directory exists or can be made can write its file. -/
theorem create_never_overwrites {tree : FileTree} (hsound : tree.Sound)
    {requests : List NewRequest} (hnamed : ∀ request ∈ requests, request.Named) :
    (∀ before request later, requests = before ++ request :: later →
      request.Answers (tree.after before) (request.run (tree.after before))) ∧
    (∀ before middle later, requests = before ++ (middle ++ later) →
      (tree.after before).StaysIn (tree.after (before ++ middle))) ∧
    ∀ before request middle other later,
      requests = before ++ request :: (middle ++ other :: later) →
      request.CanMake (tree.after before) → request.Fits →
      (tree.target other.path = tree.target request.path →
        (other.run (tree.after (before ++ request :: middle))).1 ≠ .ok other.path) ∧
      (other.path = request.path → other.run (tree.after (before ++ request :: middle)) =
        (.error (.alreadyExists other.path), tree.after (before ++ request :: middle))) := by
  refine ⟨?_, ?_, ?_⟩
  · rintro before request later rfl
    rw [List.forall_mem_append, List.forall_mem_cons] at hnamed
    exact NewRequest.answers_run hnamed.2.1 (FileTree.staysIn_after hsound hnamed.1).2
  · rintro before middle later rfl
    rw [List.forall_mem_append, List.forall_mem_append] at hnamed
    rw [FileTree.after_append]
    exact (FileTree.staysIn_after (FileTree.staysIn_after hsound hnamed.1).2 hnamed.2.1).1
  · rintro before request middle other later rfl hmake hfits
    rw [List.forall_mem_append, List.forall_mem_cons, List.forall_mem_append,
      List.forall_mem_cons] at hnamed
    obtain ⟨hbefore, hrequest, hmiddle, hother, _⟩ := hnamed
    obtain ⟨hstays, hthen⟩ := FileTree.staysIn_after hsound hbefore
    have hcreates := NewRequest.creates_run hrequest hthen
    obtain ⟨hlater, hlast⟩ := FileTree.staysIn_after (hcreates.sound hrequest hthen) hmiddle
    rw [← FileTree.after_cons, ← FileTree.after_append] at hlater hlast
    have hexists := hlater.exists?_of (NewRequest.exists?_run hrequest hthen hmake hfits)
    constructor
    · intro htarget
      obtain ⟨place, node, hresolve, hnode⟩ := FileTree.exists?_iff.mp hexists
      obtain rfl := FileTree.target_of_resolve hresolve
      have hdirectory := (hstays.trans (hcreates.staysIn.trans hlater)).workingDirectory
      rw [FileTree.target_congr hdirectory, ← htarget, ← FileTree.target_congr hdirectory] at hnode
      exact NewRequest.run_ne_ok hother hlast hnode
    · intro hsame
      exact (NewRequest.answers_run hother hlast).refused (hsame ▸ hexists)

/-- The third request spells the path of the first one differently, and the second one finds a
directory in the place of its file. -/
theorem create_never_overwrites_spelledTwice :
    let tree : FileTree := ⟨[], [(["Lake.slc".toList], .directory)]⟩
    let first : NewRequest := ⟨"Garden".toList, "beds".toList⟩
    let second : NewRequest := ⟨"Lake".toList, []⟩
    let third : NewRequest := ⟨"Garden".toList, "./beds/".toList⟩
    tree.Sound ∧ (∀ request ∈ [first, second, third], request.Named) ∧
      third.path ≠ first.path ∧ tree.target third.path = tree.target first.path ∧
      first.CanMake tree ∧ first.Fits ∧ first.Answers tree (first.run tree) ∧
      (third.run (tree.after [first, second])).1 ≠ .ok third.path ∧
      (tree.after [first]).StaysIn (tree.after [first, second]) := by
  intro tree first second third
  have hsound : tree.Sound := FileTree.sound_of_nodes rfl (by
    rintro _ (_ | ⟨_, ⟨⟩⟩)
    rfl)
  have hnamed : ∀ request ∈ [first, second, third], request.Named := by decide +kernel
  have hmake : first.CanMake tree := by decide +kernel
  have hfits : first.Fits := by decide
  have htarget : tree.target third.path = tree.target first.path := by decide
  obtain ⟨hanswers, hstays, honce⟩ := create_never_overwrites hsound hnamed
  exact ⟨hsound, hnamed, by decide, htarget, hmake, hfits, hanswers [] first _ rfl,
    (honce [] first [second] third [] rfl hmake hfits).1 htarget, hstays [first] [second] _ rfl⟩

/-- The name of its file has a byte more than the system takes. -/
def longRequest : NewRequest :=
  ⟨List.replicate 252 'A', ['.']⟩

/-- Its directory leads upwards out of one that may have to be made. -/
def upwardsRequest : NewRequest :=
  ⟨['A'], "a/../b".toList⟩

/-- A tree with the file of `upwardsRequest`, but not with all of its directories. -/
def upwardsTree : FileTree :=
  ⟨[], [([['b']], .directory), ([['b'], "A.slc".toList], .file .empty)]⟩

/-- Its directory cannot be made, as the directory that its path goes through is not made either. -/
def dottedRequest : NewRequest :=
  ⟨['A'], "a/.".toList⟩

/-- A request whose directory exists or can be made may fail although nothing exists at its path, as
the name of the file may be too long, and as directories that are made may be left upwards to where
a file is. A request that fails as its directory cannot be made may succeed later. -/
theorem create_fails_where_nothing_exists :
    (¬ ∀ (tree : FileTree) (request : NewRequest), tree.Sound → request.Named →
      request.CanMake tree →
      ((request.run tree).1 = .ok request.path ↔ ¬ tree.exists? request.path)) ∧
    (∀ tree : FileTree, tree.Sound → longRequest.CanMake tree →
      longRequest.run tree = (.error (.file .nameTooLong), longRequest.prepare tree)) ∧
    (upwardsTree.Sound ∧ upwardsRequest.Named ∧ upwardsRequest.CanMake upwardsTree ∧
      ¬ upwardsTree.exists? upwardsRequest.path ∧
      (upwardsRequest.run upwardsTree).1 = .error (.alreadyExists upwardsRequest.path) ∧
      (upwardsRequest.run upwardsTree).2.node? [['a']] = some .directory) ∧
    (dottedRequest.run ⟨[], []⟩).1 = .error (.file .notFound) ∧
    ((dottedRequest.run ((⟨[], []⟩ : FileTree).after [dottedRequest, ⟨['B'], ['a']⟩])).1.toOption =
      some dottedRequest.path) := by
  have hempty : (⟨[], []⟩ : FileTree).Sound := FileTree.sound_of_nodes rfl nofun
  have hlong : longRequest.Named := by decide +kernel
  have hupwards : upwardsRequest.Named := by decide +kernel
  have hlongRun : ∀ tree : FileTree, tree.Sound → longRequest.CanMake tree →
      longRequest.run tree = (.error (.file .nameTooLong), longRequest.prepare tree) := by
    intro tree hsound hmake
    have hfits : ¬ longRequest.Fits := by decide +kernel
    rcases (NewRequest.creates_run hlong hsound).eq_of_canMake hmake with ⟨hshort, _⟩ | ⟨_, hrun⟩
    · exact absurd hshort hfits
    · rw [hrun, if_neg hfits]
  have hsound : upwardsTree.Sound := FileTree.sound_of_nodes rfl (by
    rintro _ (_ | ⟨_, _ | ⟨_, ⟨⟩⟩⟩) <;> rfl)
  have hmake : upwardsRequest.CanMake upwardsTree := by decide +kernel
  have hrun : upwardsRequest.run upwardsTree =
      (.error (.alreadyExists upwardsRequest.path), upwardsRequest.prepare upwardsTree) := by
    rcases (NewRequest.creates_run hupwards hsound).eq_of_canMake hmake with
      ⟨_, habsent, _⟩ | ⟨_, hrun⟩
    · exact absurd (by decide +kernel) habsent
    · rw [hrun, if_pos (by decide)]
  refine ⟨fun hall => ?_, hlongRun, ⟨hsound, hupwards, hmake, by decide +kernel, ?_, ?_⟩, ?_, ?_⟩
  · have hok := (hall ⟨[], []⟩ longRequest hempty hlong (by decide +kernel)).mpr (by decide +kernel)
    rw [hlongRun _ hempty (by decide +kernel)] at hok
    cases hok
  · rw [hrun]
  · rw [hrun]
    rfl
  · have hfailed : ((⟨[], []⟩ : FileTree).makeDirectories dottedRequest.directory).1 =
        .error .notFound := by decide +kernel
    rw [(NewRequest.creates_run (by decide +kernel) hempty).eq_of_error hfailed]
  · decide +kernel

end SceneScript
