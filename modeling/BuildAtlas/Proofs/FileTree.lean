import BuildAtlas.FileTree
import BuildAtlas.Proofs.Path
import BuildAtlas.Proofs.SortedMap

/-!
# BuildAtlas.Proofs.FileTree

What is found in a tree, and what of it a change of one file touches.

A name that is joined to a directory leads to the entry of that name (`eq_of_locate_join`), so the
files that a directory lists are told apart by where they lie. `AgreeExcept` says that two trees
differ only in the content of the file at one location. Such trees list the same files
(`AgreeExcept.filesWithExtension_eq`), and whatever is read from elsewhere is read alike
(`AgreeExcept.readText_eq`).
-/

namespace BuildAtlas.FileTree

variable {tree tree' : FileTree} {path directory name : String} {place location : Location}

/-! ### Walking -/

theorem eq_of_step_idle {piece : String} (hidle : Path.isIdle piece = true)
    (h : tree.step place piece = .ok location) : location = place := by
  unfold step at h
  cases hentry : tree.find? place with
  | none => simp [hentry] at h
  | some entry =>
      cases entry with
      | file content => simp [hentry] at h
      | directory =>
          simp only [hentry, hidle, ↓reduceIte, Except.ok.injEq] at h
          exact h.symm

theorem eq_of_step_name {piece : String} (hidle : Path.isIdle piece = false) (hup : piece ≠ "..")
    (h : tree.step place piece = .ok location) : location = place ++ [piece] := by
  unfold step at h
  cases hentry : tree.find? place with
  | none => simp [hentry] at h
  | some entry =>
      cases entry with
      | file content => simp [hentry] at h
      | directory =>
          simp only [hentry, hidle, Bool.false_eq_true, ↓reduceIte, beq_iff_eq, hup] at h
          by_cases hsize : maxNameSize < piece.utf8ByteSize
          · simp [hsize] at h
          · simp only [hsize, ↓reduceIte, Except.ok.injEq] at h
            exact h.symm

/-- Where the walk along a path begins. -/
def start (tree : FileTree) (path : String) : Location :=
  if Path.isAnchored path then [] else tree.current

/-- A path that is located is walked along its pieces. -/
theorem steps_of_locate (h : tree.locate path = .ok location) :
    path ≠ "" ∧ (Path.pieces path).foldlM tree.step (tree.start path) = .ok location := by
  unfold locate walk at h
  by_cases hnul : path.toList.contains '\x00' = true
  · rw [if_pos hnul] at h
    exact nomatch h
  · rw [if_neg hnul] at h
    by_cases hempty : path = ""
    · rw [if_pos (beq_iff_eq.2 hempty)] at h
      exact nomatch h
    · rw [if_neg (by rwa [beq_iff_eq])] at h
      by_cases hsize : maxPathSize < path.utf8ByteSize
      · rw [if_pos hsize] at h
        exact nomatch h
      · rw [if_neg hsize] at h
        exact ⟨hempty, h⟩

theorem exists_step_of_steps {front : List String} {last : String}
    (h : (front ++ [last]).foldlM tree.step place = .ok location) :
    ∃ before, front.foldlM tree.step place = .ok before ∧ tree.step before last = .ok location := by
  rw [List.foldlM_append] at h
  cases hfront : front.foldlM tree.step place with
  | error fault => simp [hfront, bind, Except.bind] at h
  | ok before =>
      rw [hfront] at h
      change [last].foldlM tree.step before = .ok location at h
      exact ⟨before, rfl, by simpa only [List.foldlM_cons, List.foldlM_nil, bind_pure] using h⟩

/-- The slash that may end the path of a directory leads nowhere. -/
theorem steps_of_locate_directory (h : tree.locate directory = .ok place) :
    (Path.directoryPieces directory).foldlM tree.step (tree.start directory) = .ok place := by
  obtain ⟨-, hsteps⟩ := steps_of_locate h
  rcases Path.directoryPieces_cases directory with hpieces | hpieces
  · rwa [← hpieces]
  · rw [hpieces] at hsteps
    obtain ⟨before, hbefore, hstep⟩ := exists_step_of_steps hsteps
    obtain rfl := eq_of_step_idle rfl hstep
    exact hbefore

/-- A name that is joined to a directory leads to the entry of that name in it. -/
theorem eq_of_locate_join (hname : Path.IsName name)
    (hdirectory : tree.locate directory = .ok place)
    (h : tree.locate (Path.join directory name) = .ok location) : location = place ++ [name] := by
  have hne := (steps_of_locate hdirectory).1
  obtain ⟨-, hsteps⟩ := steps_of_locate h
  rw [Path.pieces_join hne hname, start, Path.isAnchored_join hname.isAnchored] at hsteps
  obtain ⟨before, hbefore, hstep⟩ := exists_step_of_steps hsteps
  have hplace := steps_of_locate_directory hdirectory
  obtain rfl : place = before := Except.ok.inj (hplace.symm.trans hbefore)
  exact eq_of_step_name hname.not_idle hname.ne_up hstep

/-- A path leads to a location whose last name ends as the path does. -/
theorem exists_last_name_of_locate {c : Char} (hslash : c ≠ '/') (hdot : c ≠ '.')
    (hend : path.toList.getLast? = some c) (h : tree.locate path = .ok location) :
    ∃ name, location.getLast? = some name ∧ name.toList.getLast? = some c := by
  obtain ⟨front, last, hpieces, hlast⟩ := Path.exists_last_piece hslash hend
  obtain ⟨hidle, hup⟩ := Path.isIdle_eq_false_of_getLast? hdot hlast
  obtain ⟨-, hsteps⟩ := steps_of_locate h
  rw [hpieces] at hsteps
  obtain ⟨before, -, hstep⟩ := exists_step_of_steps hsteps
  refine ⟨last, ?_, hlast⟩
  rw [eq_of_step_name hidle hup hstep, List.getLast?_concat]

/-! ### Entries -/

theorem lookup_of_locate (h : tree.locate path = .ok location) :
    tree.lookup path = match tree.find? location with
      | some entry => .ok entry
      | none => .error .notFound := by
  rw [lookup, h]
  rfl

theorem lookup_of_locate_error {fault : Fault} (h : tree.locate path = .error fault) :
    tree.lookup path = .error fault := by
  rw [lookup, h]
  rfl

theorem toOption_eq_some_iff {ε α : Type} {result : Except ε α} {a : α} :
    result.toOption = some a ↔ result = .ok a := by
  cases result with
  | ok b => simp [Except.toOption]
  | error e => simp [Except.toOption]

theorem readText_eq_ok_iff {text : String} : tree.readText path = .ok text ↔
    ∃ content, tree.lookup path = .ok (.file content) ∧ String.fromUTF8? content = some text := by
  rw [readText, read]
  cases tree.lookup path with
  | error fault => simp [bind, Except.bind]
  | ok entry =>
      cases entry with
      | directory => simp [bind, Except.bind]
      | file content =>
          cases htext : String.fromUTF8? content with
          | none => simp [bind, Except.bind, htext]
          | some found => simp [bind, Except.bind, htext]

theorem hasDirectory_iff : tree.hasDirectory path = true ↔
    ∃ location, tree.locate path = .ok location ∧ tree.find? location = some .directory := by
  unfold hasDirectory
  cases hlocate : tree.locate path with
  | error fault => simp [lookup_of_locate_error hlocate]
  | ok location =>
      rw [lookup_of_locate hlocate]
      cases hentry : tree.find? location with
      | none => simp [hentry]
      | some entry => cases entry <;> simp [hentry]

/-- The entry at a location is a file if the tree has a file there. -/
theorem exists_file_iff : (∃ content, tree.find? location = some (.file content)) ↔
    ∃ content, (location, content) ∈ tree.files := by
  unfold find?
  cases hfile : tree.files.find? (·.1 == location) with
  | none =>
      have hnone : ∀ file ∈ tree.files, file.1 ≠ location := by
        simpa using List.find?_eq_none.1 hfile
      constructor
      · rintro ⟨content, hentry⟩
        obtain ⟨-, hentry⟩ := Option.ite_none_right_eq_some.1 hentry
        exact nomatch hentry
      · rintro ⟨content, hmem⟩
        exact absurd rfl (hnone _ hmem)
  | some file =>
      obtain ⟨found, content⟩ := file
      obtain rfl : found = location := by simpa using List.find?_some hfile
      simp only [Option.some.injEq, Entry.file.injEq, exists_eq', true_iff]
      exact ⟨content, List.mem_of_find?_eq_some hfile⟩

theorem any_isPrefixOf_of_directory (h : tree.find? location = some .directory) :
    (tree.current :: tree.directories).any location.isPrefixOf = true := by
  unfold find? at h
  split at h
  · exact nomatch Option.some.inj h
  · by_contra hnone
    rw [if_neg hnone] at h
    exact nomatch h

/-! ### Listings -/

/-- The names of files are names that entries of a directory can have. -/
def WellNamed (tree : FileTree) : Prop :=
  ∀ file ∈ tree.files, ∀ name ∈ file.1, Path.IsName name

instance (tree : FileTree) : Decidable tree.WellNamed :=
  inferInstanceAs (Decidable (∀ file ∈ tree.files, ∀ name ∈ file.1, Path.IsName name))

theorem WellNamed.isName (h : tree.WellNamed) {content : ByteArray}
    (hfile : tree.find? (place ++ [name]) = some (.file content)) : Path.IsName name := by
  obtain ⟨content, hmem⟩ := exists_file_iff.1 ⟨content, hfile⟩
  exact h _ hmem name (by simp)

theorem mem_keys_filesAt : name ∈ (tree.filesAt place).keys ↔
    ∃ content, tree.find? (place ++ [name]) = some (.file content) := by
  rw [filesAt, SortedMap.mem_keys_ofList, exists_file_iff]
  refine exists_congr fun content => ?_
  rw [List.mem_filterMap]
  constructor
  · rintro ⟨⟨file, found⟩, hmem, hname⟩
    dsimp only at hname
    -- what follows the location of the directory is the one name
    split at hname
    · rename_i only hafter
      obtain ⟨rfl, rfl⟩ := Prod.mk.inj (Option.some.inj hname)
      rwa [Text.after?_eq_some_iff.1 hafter] at hmem
    · exact nomatch hname
  · intro hmem
    refine ⟨_, hmem, ?_⟩
    dsimp only
    rw [Text.after?_eq_some_iff.2 rfl]

/-- These are the paths of the files directly inside a directory that have the extension, in
increasing order of their names. -/
def ListedIn (tree : FileTree) (directory extension : String) (paths : List String) : Prop :=
  ∃ names : List String, paths = names.map (Path.join directory) ∧ names.Pairwise (· < ·) ∧
    ∀ name, name ∈ names ↔ Path.HasExtension name extension ∧
      ∃ place content, tree.locate directory = .ok place ∧ tree.find? place = some .directory ∧
        tree.find? (place ++ [name]) = some (.file content)

theorem pairwise_lt_keys {α : Type} (m : SortedMap String α) : m.keys.Pairwise (· < ·) :=
  (SortedMap.pairwise_keys m).imp fun h => compareOfLessAndEq_eq_lt.1 h

theorem listedIn_filesWithExtension (h : tree.WellNamed) (directory extension : String) :
    tree.ListedIn directory extension (tree.filesWithExtension directory extension) := by
  rw [filesWithExtension]
  cases hlocate : tree.locate directory with
  | error fault => exact ⟨[], rfl, .nil, by simp [hlocate]⟩
  | ok place =>
      have hne := (steps_of_locate hlocate).1
      by_cases hdirectory : tree.hasDirectory directory = true
      · have hplace : tree.find? place = some .directory := by
          obtain ⟨found, hfound, hentry⟩ := hasDirectory_iff.1 hdirectory
          rwa [Except.ok.inj (hlocate.symm.trans hfound)]
        refine ⟨(tree.filesAt place).keys.filter fun name =>
          Path.extension? (Path.join directory name) == some extension, ?_, ?_, fun name => ?_⟩
        · dsimp only
          rw [if_pos hdirectory, List.filter_map]
          rfl
        · exact (pairwise_lt_keys _).filter _
        · rw [List.mem_filter, mem_keys_filesAt, beq_iff_eq, hlocate]
          constructor
          · rintro ⟨⟨content, hfile⟩, hextension⟩
            rw [Path.extension?_join hne (h.isName hfile)] at hextension
            exact ⟨hextension, place, content, rfl, hplace, hfile⟩
          · rintro ⟨hextension, found, content, hfound, -, hfile⟩
            obtain rfl := Except.ok.inj hfound
            exact ⟨⟨content, hfile⟩, (Path.extension?_join hne (h.isName hfile)).2 hextension⟩
      · refine ⟨[], by simp [hdirectory], .nil, fun name => ?_⟩
        simp only [List.not_mem_nil, false_iff, not_and, not_exists]
        intro _ found content hfound hentry _
        exact hdirectory (hasDirectory_iff.2 ⟨found, hlocate.symm ▸ hfound, hentry⟩)

/-! ### Trees that differ in one file -/

/-- The trees differ only in the content of the file at a location. -/
structure AgreeExcept (location : Location) (tree tree' : FileTree) : Prop where
  current_eq : tree.current = tree'.current
  find?_eq : ∀ place, place ≠ location → tree.find? place = tree'.find? place
  isFile : ∃ content, tree.find? location = some (.file content)
  isFile' : ∃ content, tree'.find? location = some (.file content)

namespace AgreeExcept

variable (h : AgreeExcept location tree tree')

include h

/-- No step leads through a file, whatever is in it. -/
theorem step_eq : tree.step = tree'.step := by
  funext place piece
  by_cases hplace : place = location
  · obtain ⟨content, hentry⟩ := h.isFile
    obtain ⟨content', hentry'⟩ := h.isFile'
    rw [step, step, hplace, hentry, hentry']
  · rw [step, step, h.find?_eq place hplace]

theorem locate_eq (path : String) : tree.locate path = tree'.locate path := by
  rw [locate, locate, walk, walk, h.step_eq, h.current_eq]

/-- A path that does not lead to the changed file is looked up alike. -/
theorem lookup_eq (hpath : tree.locate path ≠ .ok location) :
    tree.lookup path = tree'.lookup path := by
  have hlocate := h.locate_eq path
  cases hfound : tree.locate path with
  | error fault =>
      rw [hfound] at hlocate
      rw [lookup_of_locate_error hfound, lookup_of_locate_error hlocate.symm]
  | ok found =>
      have hne : found ≠ location := fun e => hpath (e ▸ hfound)
      rw [hfound] at hlocate
      rw [lookup_of_locate hfound, lookup_of_locate hlocate.symm, h.find?_eq found hne]

theorem lookup_cases (path : String) : tree.lookup path = tree'.lookup path ∨
    ∃ content content', tree.lookup path = .ok (.file content) ∧
      tree'.lookup path = .ok (.file content') := by
  by_cases hpath : tree.locate path = .ok location
  · obtain ⟨content, hentry⟩ := h.isFile
    obtain ⟨content', hentry'⟩ := h.isFile'
    refine .inr ⟨content, content', ?_, ?_⟩
    · rw [lookup_of_locate hpath, hentry]
    · rw [lookup_of_locate ((h.locate_eq path).symm.trans hpath), hentry']
  · exact .inl (h.lookup_eq hpath)

theorem has_eq (path : String) : tree.has path = tree'.has path := by
  rcases h.lookup_cases path with heq | ⟨content, content', hfile, hfile'⟩
  · rw [has, has, heq]
  · rw [has, has, hfile, hfile']
    rfl

theorem hasFile_eq (path : String) : tree.hasFile path = tree'.hasFile path := by
  rcases h.lookup_cases path with heq | ⟨content, content', hfile, hfile'⟩
  · rw [hasFile, hasFile, heq]
  · rw [hasFile, hasFile, hfile, hfile']

theorem hasDirectory_eq (path : String) : tree.hasDirectory path = tree'.hasDirectory path := by
  rcases h.lookup_cases path with heq | ⟨content, content', hfile, hfile'⟩
  · rw [hasDirectory, hasDirectory, heq]
  · rw [hasDirectory, hasDirectory, hfile, hfile']

theorem readText_eq (hpath : tree.locate path ≠ .ok location) :
    tree.readText path = tree'.readText path := by
  rw [readText, readText, read, read, h.lookup_eq hpath]

theorem exists_file_iff_exists_file (place : Location) :
    (∃ content, tree.find? place = some (.file content)) ↔
      ∃ content, tree'.find? place = some (.file content) := by
  by_cases hplace : place = location
  · rw [hplace]
    exact iff_of_true h.isFile h.isFile'
  · rw [h.find?_eq place hplace]

/-- A listing shows which files there are and not what is in them. -/
theorem filesWithExtension_eq (directory extension : String) :
    tree.filesWithExtension directory extension = tree'.filesWithExtension directory extension := by
  have hkeys (place : Location) : (tree.filesAt place).keys = (tree'.filesAt place).keys :=
    SortedMap.keys_eq_of_mem_iff fun name => by
      rw [mem_keys_filesAt, mem_keys_filesAt, h.exists_file_iff_exists_file]
  simp only [filesWithExtension, h.locate_eq, h.hasDirectory_eq, hkeys]

end AgreeExcept

/-- Writing a file that is there changes its content only. -/
theorem agreeExcept_putFile (hfile : ∃ content, tree.find? location = some (.file content))
    (hdirectory : tree.find? location.dropLast = some .directory) (content : ByteArray) :
    AgreeExcept location tree (tree.putFile location content) where
  current_eq := rfl
  find?_eq place hplace := by
    have hfiles : (tree.putFile location content).files.find? (·.1 == place)
        = tree.files.find? (·.1 == place) := by
      have hother : (location == place) = false := by simpa using Ne.symm hplace
      simp only [putFile, List.find?_append, List.find?_filter, List.find?_cons, hother,
        List.find?_nil, Option.or_none]
      congr 1
      funext file
      by_cases hfile : file.1 = place
      · simp [hfile, hplace]
      · simp [hfile]
    have hdirectories : (tree.current :: (tree.putFile location content).directories).any
        place.isPrefixOf = (tree.current :: tree.directories).any place.isPrefixOf := by
      simp only [putFile, ← List.cons_append, List.any_append, List.any_cons, List.any_nil,
        Bool.or_false]
      refine Bool.or_eq_left_iff_imp.2 fun hprefix => ?_
      -- what is above the directory of the file is above a known directory already
      obtain ⟨known, hknown, habove⟩ := List.any_eq_true.1 (any_isPrefixOf_of_directory hdirectory)
      refine List.any_eq_true.2 ⟨known, hknown, List.isPrefixOf_iff_prefix.2 ?_⟩
      exact (List.isPrefixOf_iff_prefix.1 hprefix).trans (List.isPrefixOf_iff_prefix.1 habove)
    unfold find?
    rw [hfiles, show (tree.putFile location content).current = tree.current from rfl, hdirectories]
  isFile := hfile
  isFile' := exists_file_iff.2 ⟨content, by simp [putFile]⟩

theorem AgreeExcept.trans {tree'' : FileTree} (h : AgreeExcept location tree tree')
    (h' : AgreeExcept location tree' tree'') : AgreeExcept location tree tree'' where
  current_eq := h.current_eq.trans h'.current_eq
  find?_eq place hplace := (h.find?_eq place hplace).trans (h'.find?_eq place hplace)
  isFile := h.isFile
  isFile' := h'.isFile'

theorem find?_files_append (text : String) (place : Location) :
    (tree.append location text).files.find? (·.1 == place)
      = (tree.files.find? (·.1 == place)).map fun file =>
          (file.1, if file.1 = location then file.2 ++ text.toUTF8 else file.2) := by
  rw [append, List.find?_map]
  rfl

/-- Writing at the end of a file changes its content only. -/
theorem agreeExcept_append (hfile : ∃ content, tree.find? location = some (.file content))
    (text : String) : AgreeExcept location tree (tree.append location text) where
  current_eq := rfl
  find?_eq place hplace := by
    unfold find?
    rw [find?_files_append]
    cases hfound : tree.files.find? (·.1 == place) with
    | none => rfl
    | some file =>
        obtain rfl : file.1 = place := by simpa using List.find?_some hfound
        simp [hplace]
  isFile := hfile
  isFile' := by
    obtain ⟨content, hmem⟩ := exists_file_iff.1 hfile
    exact exists_file_iff.2 ⟨content ++ text.toUTF8,
      List.mem_map.2 ⟨_, hmem, by rw [if_pos rfl]⟩⟩

/-- Where no file is, nothing is written. -/
theorem append_of_not_file (hfile : ¬ ∃ content, tree.find? location = some (.file content))
    (text : String) : tree.append location text = tree := by
  have hother : ∀ file ∈ tree.files, file.1 ≠ location := by
    rintro ⟨place, content⟩ hmem rfl
    exact hfile (exists_file_iff.2 ⟨content, hmem⟩)
  have hfiles : (tree.append location text).files = tree.files := by
    refine (List.map_congr_left fun file hmem => ?_).trans (List.map_id tree.files)
    rw [if_neg (hother file hmem)]
    rfl
  show { tree with files := (tree.append location text).files } = tree
  rw [hfiles]

/-! ### Trees in which files are damaged -/

/-- Some files of a tree are gone in the other one, or hold what is of no use there. All else is the
same. -/
structure Damaged (damaged : Location → Bool) (Useless : ByteArray → Prop)
    (tree tree' : FileTree) : Prop where
  current_eq : tree'.current = tree.current
  find?_eq : ∀ place, damaged place = false → tree'.find? place = tree.find? place
  isFile : ∀ place, damaged place = true → ∃ content, tree.find? place = some (.file content)
  find?_cases : ∀ place, damaged place = true → tree'.find? place = none ∨
    ∃ content, Useless content ∧ tree'.find? place = some (.file content)

/-- Does the path lead to one of these places? -/
def leadsTo (tree : FileTree) (places : Location → Bool) (path : String) : Bool :=
  match tree.locate path with
  | .ok place => places place
  | .error _ => false

theorem leadsTo_eq_true_iff {places : Location → Bool} : tree.leadsTo places path = true ↔
    ∃ place, tree.locate path = .ok place ∧ places place = true := by
  rw [leadsTo]
  cases tree.locate path with
  | ok place => simp
  | error fault => simp

theorem foldlM_eq_ok_iff {ε α β : Type} {f g : α → β → Except ε α}
    (h : ∀ a b c, f a b = .ok c ↔ g a b = .ok c) (bs : List β) (a c : α) :
    bs.foldlM f a = .ok c ↔ bs.foldlM g a = .ok c := by
  induction bs generalizing a with
  | nil => rfl
  | cons b rest ih =>
      rw [List.foldlM_cons, List.foldlM_cons]
      cases hf : f a b with
      | ok next =>
          rw [(h a b next).1 hf]
          exact ih next
      | error fault =>
          cases hg : g a b with
          | ok next => exact absurd (hf.symm.trans ((h a b next).2 hg)) nofun
          | error fault' => exact ⟨nofun, nofun⟩

namespace Damaged

variable {damaged : Location → Bool} {Useless : ByteArray → Prop}

/-- No step leads through a file, and none through a file that is gone. -/
theorem step_eq_ok_iff (h : Damaged damaged Useless tree tree') (place : Location) (piece : String)
    (location : Location) :
    tree'.step place piece = .ok location ↔ tree.step place piece = .ok location := by
  cases hplace : damaged place with
  | false => rw [step, step, h.find?_eq place hplace]
  | true =>
      obtain ⟨content, hfile⟩ := h.isFile place hplace
      rw [step, step, hfile]
      rcases h.find?_cases place hplace with hgone | ⟨content', -, hfile'⟩
      · rw [hgone]
        exact ⟨nofun, nofun⟩
      · rw [hfile']

theorem locate_eq_ok_iff (h : Damaged damaged Useless tree tree') (path : String)
    (location : Location) : tree'.locate path = .ok location ↔ tree.locate path = .ok location := by
  have hsteps := foldlM_eq_ok_iff h.step_eq_ok_iff (Path.pieces path)
    (if Path.isAnchored path then [] else tree.current) location
  simp only [locate, walk, h.current_eq]
  split
  · exact Iff.rfl
  · split
    · exact Iff.rfl
    · split
      · exact Iff.rfl
      · exact hsteps

/-- What is found elsewhere is the same, and what is not found is not found. -/
theorem toOption_lookup_eq (h : Damaged damaged Useless tree tree')
    (hpath : tree.leadsTo damaged path = false) :
    (tree'.lookup path).toOption = (tree.lookup path).toOption := by
  cases hlocate : tree.locate path with
  | ok place =>
      rw [leadsTo, hlocate] at hpath
      rw [lookup_of_locate hlocate, lookup_of_locate ((h.locate_eq_ok_iff path place).2 hlocate),
        h.find?_eq place hpath]
  | error fault =>
      cases hlocate' : tree'.locate path with
      | ok place =>
          rw [h.locate_eq_ok_iff, hlocate] at hlocate'
          exact nomatch hlocate'
      | error fault' =>
          rw [lookup_of_locate_error hlocate, lookup_of_locate_error hlocate']
          rfl

/-- A path to a damaged file leads to nothing, or to what is of no use. -/
theorem toOption_lookup_cases (h : Damaged damaged Useless tree tree')
    (hpath : tree.leadsTo damaged path = true) : (tree'.lookup path).toOption = none ∨
      ∃ content, Useless content ∧ (tree'.lookup path).toOption = some (.file content) := by
  obtain ⟨place, hlocate, hplace⟩ := leadsTo_eq_true_iff.1 hpath
  rw [lookup_of_locate ((h.locate_eq_ok_iff path place).2 hlocate)]
  rcases h.find?_cases place hplace with hgone | ⟨content, huseless, hfile⟩
  · rw [hgone]
    exact .inl rfl
  · rw [hfile]
    exact .inr ⟨content, huseless, rfl⟩

theorem readText_eq_ok (h : Damaged damaged Useless tree tree')
    (hpath : tree.leadsTo damaged path = false) {text : String}
    (htext : tree.readText path = .ok text) : tree'.readText path = .ok text := by
  obtain ⟨content, hentry, hcontent⟩ := readText_eq_ok_iff.1 htext
  have hlookup := h.toOption_lookup_eq hpath
  rw [hentry] at hlookup
  exact readText_eq_ok_iff.2 ⟨content, toOption_eq_some_iff.1 hlookup, hcontent⟩

end Damaged

/-- What is left of a file: what it was, or something else if it is damaged, or nothing. -/
def leftOf (damaged : Location → Bool) (left : Location → Option ByteArray)
    (file : Location × ByteArray) : Option (Location × ByteArray) :=
  if damaged file.1 then (left file.1).map (file.1, ·) else some file

/-- The tree with what is left of its files. -/
def damage (tree : FileTree) (damaged : Location → Bool) (left : Location → Option ByteArray) :
    FileTree :=
  { tree with files := tree.files.filterMap (leftOf damaged left) }

section Damage

variable {damaged : Location → Bool} {left : Location → Option ByteArray}

theorem fst_of_leftOf {file file' : Location × ByteArray}
    (h : leftOf damaged left file = some file') : file'.1 = file.1 := by
  rw [leftOf] at h
  split at h
  · obtain ⟨content, -, rfl⟩ := Option.map_eq_some_iff.1 h
    rfl
  · rw [Option.some.inj h]

theorem leftOf_of_not_damaged {file : Location × ByteArray} (h : damaged file.1 = false) :
    leftOf damaged left file = some file := by
  rw [leftOf, h]
  rfl

theorem find?_files_damage (hplace : damaged place = false) :
    (tree.damage damaged left).files.find? (·.1 == place) = tree.files.find? (·.1 == place) := by
  rw [damage]
  induction tree.files with
  | nil => rfl
  | cons file rest ih =>
      by_cases hfile : file.1 = place
      · rw [List.filterMap_cons_some (leftOf_of_not_damaged (hfile ▸ hplace)),
          List.find?_cons_of_pos (by simpa using hfile),
          List.find?_cons_of_pos (by simpa using hfile)]
      · rw [List.find?_cons_of_neg (by simpa using hfile)]
        cases hleft : leftOf damaged left file with
        | none => rw [List.filterMap_cons_none hleft, ih]
        | some file' =>
            have hne : ¬ file'.1 = place := by rwa [fst_of_leftOf hleft]
            rw [List.filterMap_cons_some hleft, List.find?_cons_of_neg (by simpa using hne), ih]

/-- Deleting files, or overwriting them with what is of no use, damages just these. -/
theorem damaged_damage {Useless : ByteArray → Prop}
    (hfile : ∀ place, damaged place = true → ∃ content, tree.find? place = some (.file content))
    (hdirectory : ∀ place, damaged place = true →
      (tree.current :: tree.directories).any place.isPrefixOf = false)
    (hleft : ∀ place content, damaged place = true → left place = some content → Useless content) :
    Damaged damaged Useless tree (tree.damage damaged left) where
  current_eq := rfl
  find?_eq place hplace := by
    unfold find?
    rw [find?_files_damage hplace]
    rfl
  isFile := hfile
  find?_cases place hplace := by
    unfold find?
    cases hfound : (tree.damage damaged left).files.find? (·.1 == place) with
    | none =>
        -- no directory comes to stand in its place
        exact .inl (if_neg (Bool.eq_false_iff.1 (hdirectory place hplace)))
    | some file' =>
        obtain ⟨file, -, hfile'⟩ := List.mem_filterMap.1 (List.mem_of_find?_eq_some hfound)
        obtain rfl : file'.1 = place := by simpa using List.find?_some hfound
        refine .inr ⟨file'.2, ?_, rfl⟩
        rw [leftOf, ← fst_of_leftOf hfile', if_pos hplace] at hfile'
        obtain ⟨content, hcontent, heq⟩ := Option.map_eq_some_iff.1 hfile'
        exact hleft _ _ hplace (heq ▸ hcontent)

end Damage

end BuildAtlas.FileTree
