import BuildAtlas.Path.Lexical
import BuildAtlas.Proofs.Text

/-!
# BuildAtlas.Proofs.Path

Pieces of paths and names in them.

A path is cut into its pieces and put together from them (`ofPieces_pieces`, `pieces_ofPieces`), and
a relative path that is joined to a directory adds its pieces (`pieces_join_of_relative`). `IsName`
says what an entry of a directory can be called. A name that is joined to a directory is the last
piece of the path (`pieces_join`), so the file name and the extension of that path are those of the
name. The last group follows the end of a path: a path that does not end in a slash or a dot keeps
its last character when it is joined to a directory and brought to its one spelling.
-/

namespace BuildAtlas.Path

/-! ### Names -/

theorem isIdle_eq_false_iff {piece : String} :
    isIdle piece = false ↔ piece ≠ "" ∧ piece ≠ "." := by
  rw [isIdle, Bool.or_eq_false_iff, beq_eq_false_iff_ne, beq_eq_false_iff_ne]

/-- A name that an entry of a directory can have. -/
structure IsName (name : String) : Prop where
  /-- It leads somewhere, -/
  not_idle : isIdle name = false
  /-- but not out of the directory, -/
  ne_up : name ≠ ".."
  /-- and it is one piece. -/
  slash_not_mem : '/' ∉ name.toList

instance (name : String) : Decidable (IsName name) :=
  decidable_of_iff (isIdle name = false ∧ name ≠ ".." ∧ '/' ∉ name.toList)
    ⟨fun h => ⟨h.1, h.2.1, h.2.2⟩, fun h => ⟨h.not_idle, h.ne_up, h.slash_not_mem⟩⟩

theorem IsName.ne_empty {name : String} (h : IsName name) : name ≠ "" :=
  (isIdle_eq_false_iff.1 h.not_idle).1

/-- A name with something in front of its last dot and this extension behind it. -/
def HasExtension (name extension : String) : Prop :=
  ∃ stem, stem ≠ [] ∧ '.' ∉ extension.toList ∧ name.toList = stem ++ '.' :: extension.toList

theorem breakOnLast?_eq_some_iff {c : Char} {cs before rest : List Char} :
    Text.breakOnLast? c cs = some (before, rest) ↔ cs = before ++ c :: rest ∧ c ∉ rest := by
  simp only [Text.breakOnLast?, Option.map_eq_some_iff, Prod.exists, Prod.mk.injEq]
  constructor
  · rintro ⟨back, front, hcut, rfl, rfl⟩
    obtain ⟨hcs, hback⟩ := Text.breakOn?_singleton_eq_some_iff.1 hcut
    refine ⟨?_, by simpa using hback⟩
    rw [← List.reverse_reverse cs, hcs]
    simp
  · rintro ⟨rfl, hrest⟩
    exact ⟨rest.reverse, before.reverse,
      Text.breakOn?_singleton_eq_some_iff.2 (by simpa using hrest), by simp, by simp⟩

theorem extension_eq_some_iff {name extension : String} :
    (stemAndExtension name).2 = some extension ↔ HasExtension name extension := by
  have hcut {stem ext : List Char} := @breakOnLast?_eq_some_iff '.' name.toList stem ext
  rw [stemAndExtension]
  constructor
  · intro h
    split at h
    · exact nomatch h
    · exact nomatch h
    · rename_i stem ext hne hbreak
      obtain rfl := Option.some.inj h
      obtain ⟨hname, hdot⟩ := hcut.1 hbreak
      refine ⟨stem, fun hstem => hne hstem, by simpa using hdot, by simpa using hname⟩
  · rintro ⟨stem, hstem, hdot, hname⟩
    rw [hcut.2 ⟨hname, hdot⟩]
    cases stem with
    | nil => exact absurd rfl hstem
    | cons c cs => simp

/-! ### Ends of joined paths -/

theorem getLast?_append_of_getLast? {front back : String} {c : Char}
    (h : back.toList.getLast? = some c) : (front ++ back).toList.getLast? = some c := by
  rw [String.toList_append, List.getLast?_append, h]
  rfl

theorem getLast?_join {directory path : String} {c : Char} (h : path.toList.getLast? = some c) :
    (join directory path).toList.getLast? = some c := by
  rw [join]
  split
  · exact h
  · split <;> exact getLast?_append_of_getLast? h

theorem IsName.exists_getLast? {name : String} (h : IsName name) :
    ∃ c, c ≠ '/' ∧ name.toList.getLast? = some c := by
  cases hlast : name.toList.getLast? with
  | none =>
      exact absurd (by simpa using hlast) h.ne_empty
  | some c => exact ⟨c, fun hslash => h.slash_not_mem (hslash ▸ List.mem_of_getLast? hlast), rfl⟩

theorem join_ne_empty {directory name : String} (hname : IsName name) :
    join directory name ≠ "" := by
  obtain ⟨c, -, hlast⟩ := hname.exists_getLast?
  intro hempty
  have hjoin := @getLast?_join directory _ _ hlast
  rw [hempty] at hjoin
  exact nomatch hjoin

/-! ### Pieces -/

theorem pieces_append_slash (front back : String) :
    pieces (front ++ "/" ++ back) = pieces front ++ pieces back := by
  simp [pieces, Text.splitOn, String.toList_append, List.splitOn_append_cons_self]

theorem pieces_slash (front : String) : pieces (front ++ "/") = pieces front ++ [""] := by
  rw [← String.append_empty (s := front ++ "/"), pieces_append_slash]
  rfl

theorem pieces_of_slash_not_mem {name : String} (h : '/' ∉ name.toList) : pieces name = [name] := by
  simp [pieces, Text.splitOn, List.splitOn_eq_singleton h]

theorem pieces_ne_nil (path : String) : pieces path ≠ [] := by
  simp [pieces, Text.splitOn]

theorem slash_not_mem_of_mem_pieces {path piece : String} (h : piece ∈ pieces path) :
    '/' ∉ piece.toList := by
  obtain ⟨cs, hcs, rfl⟩ := List.mem_map.1 h
  rw [String.toList_ofList]
  exact Text.not_mem_of_mem_splitOn hcs

theorem slash_not_mem_of_pieces {path first : String} {more : List String}
    (hpath : pieces path = first :: more) :
    '/' ∉ first.toList ∧ ∀ piece ∈ more, '/' ∉ piece.toList := by
  have hpieces : ∀ piece ∈ pieces path, '/' ∉ piece.toList :=
    fun _ => slash_not_mem_of_mem_pieces
  rwa [hpath, List.forall_mem_cons] at hpieces

theorem pieces_ofPieces {names : List String} (h : ∀ name ∈ names, '/' ∉ name.toList)
    (hne : names ≠ []) : pieces (ofPieces names) = names :=
  Text.splitOn_intercalate String.toList_ofList h hne

theorem ofPieces_pieces (path : String) : ofPieces (pieces path) = path := by
  have hlists : (pieces path).map String.toList = path.toList.splitOn '/' := by
    rw [pieces, Text.splitOn, List.map_map]
    exact List.map_id'' (fun _ => String.toList_ofList) _
  rw [← String.toList_inj, ofPieces, String.toList_intercalate, hlists]
  exact List.intercalate_splitOn '/'

/-- What has no slash stands in front of the first piece. -/
theorem pieces_append_of_not_mem {front path first : String} {more : List String}
    (hfront : '/' ∉ front.toList) (hpath : pieces path = first :: more) :
    pieces (front ++ path) = (front ++ first) :: more := by
  obtain ⟨hfirst, hmore⟩ := slash_not_mem_of_pieces hpath
  have hslash : '/' ∉ (front ++ first).toList := by
    rw [String.toList_append, List.mem_append, not_or]
    exact ⟨hfront, hfirst⟩
  rw [← ofPieces_pieces path, hpath]
  cases more with
  | nil =>
      rw [ofPieces, String.intercalate_singleton]
      exact pieces_of_slash_not_mem hslash
  | cons second rest =>
      have hrest := pieces_ofPieces hmore (List.cons_ne_nil second rest)
      rw [ofPieces] at hrest
      rw [ofPieces, String.intercalate_cons_cons, ← String.append_assoc, ← String.append_assoc,
        pieces_append_slash, pieces_of_slash_not_mem hslash, hrest]
      rfl

/-- A path that ends in a slash is a path with a slash behind it. -/
theorem exists_eq_append_slash {path : String} (h : path.toList.getLast? = some '/') :
    ∃ front, path = front ++ "/" := by
  refine ⟨.ofList path.toList.dropLast, String.toList_inj.1 ?_⟩
  rw [String.toList_append, String.toList_ofList]
  exact (List.dropLast_append_getLast? _ h).symm

/-- The pieces of a directory's path, without the one that a slash at the end makes. -/
def directoryPieces (path : String) : List String :=
  if path.toList.getLast? = some '/' then (pieces path).dropLast else pieces path

theorem directoryPieces_cases (path : String) :
    pieces path = directoryPieces path ∨ pieces path = directoryPieces path ++ [""] := by
  rw [directoryPieces]
  by_cases h : path.toList.getLast? = some '/'
  · obtain ⟨front, rfl⟩ := exists_eq_append_slash h
    rw [if_pos h, pieces_slash, List.dropLast_concat]
    exact .inr rfl
  · rw [if_neg h]
    exact .inl rfl

theorem isAnchored_append {front : String} (h : front ≠ "") (back : String) :
    isAnchored (front ++ back) = isAnchored front := by
  have hne : front.toList ≠ [] := by simpa using h
  obtain ⟨c, cs, hcs⟩ := List.exists_cons_of_ne_nil hne
  rw [isAnchored, isAnchored, String.toList_append, hcs]
  rfl

theorem isAnchored_eq_false_of_not_mem {path : String} (h : '/' ∉ path.toList) :
    isAnchored path = false := by
  rw [isAnchored, beq_eq_false_iff_ne]
  exact fun hhead => h (List.mem_of_head? hhead)

theorem IsName.isAnchored {name : String} (h : IsName name) : isAnchored name = false :=
  isAnchored_eq_false_of_not_mem h.slash_not_mem

theorem join_of_isAnchored {directory path : String} (h : isAnchored path = true) :
    join directory path = path := by
  simp [join, h]

theorem empty_join (path : String) : join "" path = path := by
  simp [join]

/-- A relative path goes on where the path of the directory ends. -/
theorem pieces_join_of_relative {directory path : String} (hdirectory : directory ≠ "")
    (hpath : isAnchored path = false) :
    pieces (join directory path) = directoryPieces directory ++ pieces path := by
  have hempty : (directory == "") = false := beq_eq_false_iff_ne.2 hdirectory
  rw [join, hpath, hempty, directoryPieces]
  by_cases h : directory.toList.getLast? = some '/'
  · obtain ⟨front, rfl⟩ := exists_eq_append_slash h
    simp only [Bool.or_self, Bool.false_eq_true, ↓reduceIte, h, beq_self_eq_true]
    rw [pieces_append_slash, pieces_slash, List.dropLast_concat]
  · simp only [Bool.or_self, Bool.false_eq_true, ↓reduceIte, h, beq_iff_eq]
    rw [pieces_append_slash]

theorem isAnchored_join {directory path : String} (hpath : isAnchored path = false) :
    isAnchored (join directory path) = isAnchored directory := by
  by_cases hdirectory : directory = ""
  · subst hdirectory
    rw [empty_join, hpath]
    rfl
  · have hempty : (directory == "") = false := beq_eq_false_iff_ne.2 hdirectory
    rw [join, hpath, hempty]
    simp only [Bool.or_self, Bool.false_eq_true, ↓reduceIte]
    split
    · exact isAnchored_append hdirectory path
    · rw [String.append_assoc]
      exact isAnchored_append hdirectory _

/-- A joined name is the last piece of the path. -/
theorem pieces_join {directory name : String} (hdirectory : directory ≠ "") (hname : IsName name) :
    pieces (join directory name) = directoryPieces directory ++ [name] := by
  rw [pieces_join_of_relative hdirectory hname.isAnchored,
    pieces_of_slash_not_mem hname.slash_not_mem]

theorem directoryPieces_join {directory name : String} (hdirectory : directory ≠ "")
    (hname : IsName name) :
    directoryPieces (join directory name) = directoryPieces directory ++ [name] := by
  obtain ⟨c, hslash, hlast⟩ := hname.exists_getLast?
  have hend : (join directory name).toList.getLast? ≠ some '/' := by
    rw [getLast?_join hlast]
    exact fun h => hslash (Option.some.inj h)
  rw [directoryPieces, if_neg hend, pieces_join hdirectory hname]

/-- The file name of a path is the last of its pieces that leads somewhere, unless that leads up. -/
theorem fileName?_of_pieces {path last : String} {front back : List String}
    (h : pieces path = front ++ last :: back) (hback : ∀ piece ∈ back, isIdle piece = true)
    (hlast : isIdle last = false) :
    fileName? path = if last = ".." then none else some last := by
  cases front with
  | nil =>
      have hrest : Text.dropEndWhile isIdle back = [] := Text.dropEndWhile_of_forall hback
      simp [fileName?, outline, h, hrest, hlast]
  | cons first front =>
      have hrest : Text.dropEndWhile isIdle (front ++ last :: back) = front ++ [last] := by
        rw [List.append_cons, Text.dropEndWhile_append hback]
        simp [Text.dropEndWhile, hlast]
      simp [fileName?, outline, h, hrest, hlast]

/-- A path whose pieces lead nowhere names no file. -/
theorem fileName?_of_idle {path : String} (h : ∀ piece ∈ pieces path, isIdle piece = true) :
    fileName? path = none := by
  obtain ⟨first, rest, hpieces⟩ := List.exists_cons_of_ne_nil (pieces_ne_nil path)
  rw [hpieces, List.forall_mem_cons] at h
  have hrest : Text.dropEndWhile isIdle rest = [] := Text.dropEndWhile_of_forall h.2
  simp [fileName?, outline, hpieces, hrest, h.1]

/-- Either all pieces lead nowhere, or there is a last one that leads somewhere. -/
theorem idle_or_exists_last (names : List String) : (∀ piece ∈ names, isIdle piece = true) ∨
    ∃ front last back, names = front ++ last :: back ∧ (∀ piece ∈ back, isIdle piece = true) ∧
      isIdle last = false := by
  induction names with
  | nil => exact .inl nofun
  | cons piece names ih =>
      rcases ih with hidle | ⟨front, last, back, rfl, hback, hlast⟩
      · cases hpiece : isIdle piece with
        | true => exact .inl (List.forall_mem_cons.2 ⟨hpiece, hidle⟩)
        | false => exact .inr ⟨[], piece, names, rfl, hidle, hpiece⟩
      · exact .inr ⟨piece :: front, last, back, rfl, hback, hlast⟩

/-- Pieces in front that lead nowhere do not change the file name. -/
theorem fileName?_of_pieces_append {path whole : String} {front : List String}
    (h : pieces whole = front ++ pieces path) (hfront : ∀ piece ∈ front, isIdle piece = true) :
    fileName? whole = fileName? path := by
  rcases idle_or_exists_last (pieces path) with hidle | ⟨inner, last, back, hpath, hback, hlast⟩
  · rw [fileName?_of_idle hidle, fileName?_of_idle]
    rw [h, List.forall_mem_append]
    exact ⟨hfront, hidle⟩
  · rw [hpath, ← List.append_assoc] at h
    rw [fileName?_of_pieces h hback hlast, fileName?_of_pieces hpath hback hlast]

/-- Joining leaves the file name of the path that is joined. -/
theorem fileName?_join_of_eq_some {directory path name : String} (h : fileName? path = some name) :
    fileName? (join directory path) = some name := by
  by_cases hdirectory : directory = ""
  · rwa [hdirectory, empty_join]
  · cases hanchored : isAnchored path with
    | true => rwa [join_of_isAnchored hanchored]
    | false =>
        have hjoined := pieces_join_of_relative hdirectory hanchored
        rcases idle_or_exists_last (pieces path) with
          hidle | ⟨front, last, back, hpath, hback, hlast⟩
        · rw [fileName?_of_idle hidle] at h
          exact nomatch h
        · rw [hpath, ← List.append_assoc] at hjoined
          rwa [fileName?_of_pieces hjoined hback hlast, ← fileName?_of_pieces hpath hback hlast]

theorem fileName?_join {directory name : String} (hdirectory : directory ≠ "")
    (hname : IsName name) : fileName? (join directory name) = some name := by
  rw [fileName?_of_pieces (pieces_join hdirectory hname) nofun hname.not_idle, if_neg hname.ne_up]

/-- The extension of a path is that of its file name. -/
theorem extension?_eq_some_iff {path extension : String} : extension? path = some extension ↔
    ∃ name, fileName? path = some name ∧ HasExtension name extension := by
  rw [extension?, Option.bind_eq_bind, Option.bind_eq_some_iff]
  simp only [extension_eq_some_iff]

theorem extension?_join {directory name extension : String} (hdirectory : directory ≠ "")
    (hname : IsName name) :
    extension? (join directory name) = some extension ↔ HasExtension name extension := by
  rw [extension?, fileName?_join hdirectory hname]
  exact extension_eq_some_iff

/-! ### How paths end -/

/-- What does not end in a slash has a last piece with the same end. -/
theorem exists_last_piece {path : String} {c : Char} (hslash : c ≠ '/')
    (h : path.toList.getLast? = some c) :
    ∃ front last, pieces path = front ++ [last] ∧ last.toList.getLast? = some c := by
  by_cases hmem : '/' ∈ path.toList.reverse
  · obtain ⟨back, front, hcut, hback⟩ := List.eq_append_cons_of_mem hmem
    have hpath : path = .ofList front.reverse ++ "/" ++ .ofList back.reverse := by
      refine String.toList_inj.1 ?_
      rw [← List.reverse_reverse path.toList, hcut]
      simp
    have hname : '/' ∉ (String.ofList back.reverse).toList := by
      simpa using hback
    refine ⟨pieces (.ofList front.reverse), .ofList back.reverse, ?_, ?_⟩
    · rw [hpath, pieces_append_slash, pieces_of_slash_not_mem hname]
    · cases back with
      | nil =>
          -- then the path ends in a slash
          rw [hpath] at h
          simp [String.toList_append] at h
          exact absurd h.symm hslash
      | cons b back =>
          rw [hpath, String.toList_append] at h
          rw [List.getLast?_append] at h
          simpa using h
  · exact ⟨[], path, pieces_of_slash_not_mem (by simpa using hmem), h⟩

theorem isIdle_eq_false_of_getLast? {piece : String} {c : Char} (hdot : c ≠ '.')
    (h : piece.toList.getLast? = some c) : isIdle piece = false ∧ piece ≠ ".." := by
  refine ⟨isIdle_eq_false_iff.2 ⟨?_, ?_⟩, ?_⟩
  · rintro rfl
    simp at h
  · rintro rfl
    simp at h
    exact hdot h.symm
  · rintro rfl
    simp at h
    exact hdot h.symm

theorem getLast?_ofPieces {front : List String} {last : String} {c : Char}
    (h : last.toList.getLast? = some c) :
    (ofPieces (front ++ [last])).toList.getLast? = some c := by
  cases front with
  | nil => simpa [ofPieces] using h
  | cons piece front =>
      rw [ofPieces, String.intercalate_append_of_ne_nil (by simp) (by simp),
        String.intercalate_singleton]
      exact getLast?_append_of_getLast? h

/-- Bringing a path to its one spelling leaves its end alone. -/
theorem getLast?_normalize {path : String} {c : Char} (hslash : c ≠ '/') (hdot : c ≠ '.')
    (h : path.toList.getLast? = some c) : (normalize path).toList.getLast? = some c := by
  obtain ⟨front, last, hpieces, hlast⟩ := exists_last_piece hslash h
  obtain ⟨hidle, hup⟩ := isIdle_eq_false_of_getLast? hdot hlast
  have hwalk (anchored : Bool) (walked : List String) :
      walk anchored walked last = last :: walked := by
    simp [walk, hidle, hup]
  simp only [normalize, hpieces, List.foldl_append, List.foldl_cons, List.foldl_nil, hwalk,
    List.isEmpty_cons, List.reverse_cons, Bool.false_eq_true, ↓reduceIte]
  split
  · exact getLast?_append_of_getLast? (getLast?_ofPieces hlast)
  · exact getLast?_ofPieces hlast

theorem getLast?_resolve {base path : String} {c : Char} (hslash : c ≠ '/') (hdot : c ≠ '.')
    (h : path.toList.getLast? = some c) : (resolve base path).toList.getLast? = some c := by
  rw [resolve]
  split
  · exact h
  · exact getLast?_normalize hslash hdot (getLast?_join h)

end BuildAtlas.Path
