import BuildAtlas.FileGroup
import BuildAtlas.Imported
import BuildAtlas.Proofs.Path.Canonical

/-!
# BuildAtlas.Proofs.Path.FileName

What becomes of the file name of a path, and what is left when another one is put in its place.

The last piece of a path is not taken back when it is a name, so joining, bringing to one spelling
and resolving leave it where it is (`exists_pieces_resolve`), and all that depends on the file name
alone is the same before and after (`resolve_keeps_fileName`). A path with another file name leads
into the same directory: what stands in front of the name is spelled without the pieces that lead
nowhere, and taking this spelling apart once more changes nothing (`parent?_withFileName`).
-/

namespace BuildAtlas.Path

variable {path name : String} {front : List String}

/-! ### Resolving -/

theorem fileName?_of_last (h : pieces path = front ++ [name]) (hname : IsName name) :
    fileName? path = some name := by
  rw [fileName?_of_pieces h nofun hname.not_idle, if_neg hname.ne_up]

theorem exists_pieces_join (h : pieces path = front ++ [name]) (base : String) :
    ∃ before, pieces (join base path) = before ++ [name] := by
  by_cases hbase : base = ""
  · exact ⟨front, by rw [hbase, empty_join, h]⟩
  · cases hanchored : isAnchored path with
    | true => exact ⟨front, by rw [join_of_isAnchored hanchored, h]⟩
    | false =>
        refine ⟨directoryPieces base ++ front, ?_⟩
        rw [pieces_join_of_relative hbase hanchored, h, List.append_assoc]

/-- No piece follows a name that stands last, so no `..` takes it back. -/
theorem exists_pieces_normalize (h : pieces path = front ++ [name]) (hname : IsName name) :
    ∃ before, pieces (normalize path) = before ++ [name] := by
  obtain ⟨outer, hwalked⟩ : ∃ outer, walkedTo path = name :: outer := by
    rw [walkedTo, h, List.foldl_append, List.foldl_cons, List.foldl_nil,
      walk_name hname.not_idle hname.ne_up]
    exact ⟨_, rfl⟩
  have hne : walkedTo path ≠ [] := hwalked ▸ List.cons_ne_nil name outer
  rw [normalize_eq, pieces_spelled (walked_walkedTo path) hne, hwalked, List.reverse_cons,
    ← List.append_assoc]
  exact ⟨_, rfl⟩

theorem exists_pieces_resolve (h : pieces path = front ++ [name]) (hname : IsName name)
    (base : String) : ∃ before, pieces (resolve base path) = before ++ [name] := by
  rw [resolve]
  split
  · exact ⟨front, h⟩
  · obtain ⟨before, hjoined⟩ := exists_pieces_join h base
    exact exists_pieces_normalize hjoined hname

theorem extension?_congr {other : String} (h : fileName? other = fileName? path) :
    extension? other = extension? path := by
  rw [extension?, extension?, h]

/-- A path that ends in a name keeps it as its file name when it is resolved. So the resolved path
belongs to the same group and has a listed extension just when the path has. -/
theorem resolve_keeps_fileName {base : String} (hlast : (pieces path).getLast? = some name)
    (hempty : name ≠ "") (hhere : name ≠ ".") (hup : name ≠ "..") :
    fileName? (resolve base path) = some name ∧
      FileGroup.ofPath (resolve base path) = FileGroup.ofPath path ∧
      ∀ extensions, Imported.hasListedExtension extensions (resolve base path) =
        Imported.hasListedExtension extensions path := by
  obtain ⟨front, hpieces⟩ := List.getLast?_eq_some_iff.1 hlast
  have hname : IsName name := ⟨isIdle_eq_false_iff.2 ⟨hempty, hhere⟩, hup,
    slash_not_mem_of_mem_pieces (List.mem_of_getLast? hlast)⟩
  obtain ⟨before, hresolved⟩ := exists_pieces_resolve hpieces hname base
  have hfile := fileName?_of_last hresolved hname
  have hsame : fileName? (resolve base path) = fileName? path :=
    hfile.trans (fileName?_of_last hpieces hname).symm
  refine ⟨hfile, ?_, fun extensions => ?_⟩
  · rw [FileGroup.ofPath, FileGroup.ofPath, hsame, extension?_congr hsame]
  · rw [Imported.hasListedExtension, Imported.hasListedExtension, extension?_congr hsame]

theorem resolve_keeps_fileName_climbing :
    fileName? (resolve "/p/BuildFiles" "../../../x:/./CMakeLists.txt") = some "CMakeLists.txt" ∧
      FileGroup.ofPath (resolve "/p/BuildFiles" "../../../x:/./CMakeLists.txt") = .cmake := by
  have hlast : (pieces "../../../x:/./CMakeLists.txt").getLast? = some "CMakeLists.txt" := by
    decide +kernel
  obtain ⟨hname, hgroup, -⟩ := @resolve_keeps_fileName _ _ "/p/BuildFiles" hlast (by decide)
    (by decide) (by decide)
  refine ⟨hname, hgroup.trans ?_⟩
  decide +kernel

/-! ### Another file name -/

/-- A file name is a name among the pieces, and those behind it lead nowhere. -/
theorem exists_pieces_of_fileName? (h : fileName? path = some name) :
    ∃ front back, pieces path = front ++ name :: back ∧ (∀ piece ∈ back, isIdle piece = true) ∧
      IsName name := by
  rcases idle_or_exists_last (pieces path) with hidle | ⟨front, last, back, hpieces, hback, hlast⟩
  · rw [fileName?_of_idle hidle] at h
    exact nomatch h
  · rw [fileName?_of_pieces hpieces hback hlast, Option.ite_none_left_eq_some,
      Option.some.injEq] at h
    obtain ⟨hup, rfl⟩ := h
    have hmem : last ∈ pieces path := by simp [hpieces]
    exact ⟨front, back, hpieces, hback, hlast, hup, slash_not_mem_of_mem_pieces hmem⟩

/-- What is left of the pieces in front of a file name. The first piece always counts: it tells
whether the path is anchored. -/
def trunk : List String → List String
  | [] => []
  | first :: inner => first :: Text.dropEndWhile isIdle inner

/-- The path of the directory that holds a file, by the pieces in front of its name. -/
def holder (front : List String) : String :=
  if trunk front = [""] then "/" else ofPieces (trunk front)

theorem trunk_trunk (front : List String) : trunk (trunk front) = trunk front := by
  cases front with
  | nil => rfl
  | cons first inner =>
      rw [trunk, trunk]
      exact congrArg (first :: ·) (List.rdropWhile_idempotent isIdle inner)

theorem mem_of_mem_trunk {piece : String} (h : piece ∈ trunk front) : piece ∈ front := by
  cases front with
  | nil => exact h
  | cons first inner =>
      rcases List.mem_cons.1 h with rfl | h
      · exact List.mem_cons_self
      · exact List.mem_cons_of_mem _ ((Text.isPrefix_dropEndWhile inner).subset h)

theorem parent?_of_pieces {back : List String} (h : pieces path = front ++ name :: back)
    (hback : ∀ piece ∈ back, isIdle piece = true) (hname : isIdle name = false) :
    parent? path = some (holder front) := by
  cases front with
  | nil =>
      have hne : name ≠ "" := (isIdle_eq_false_iff.1 hname).1
      have hrest : Text.dropEndWhile isIdle back = [] := Text.dropEndWhile_of_forall hback
      simp [parent?, outline, h, hrest, hne, holder, trunk, ofPieces]
  | cons first inner =>
      have hrest : Text.dropEndWhile isIdle (inner ++ name :: back) = inner ++ [name] := by
        rw [List.append_cons, Text.dropEndWhile_append hback]
        simp [Text.dropEndWhile, hname]
      have houtline : outline path = (first, inner ++ [name]) := by
        simp [outline, h, hrest]
      simp only [parent?, houtline, holder, trunk]
      simp only [Bool.and_eq_true, List.isEmpty_iff, beq_iff_eq, List.cons.injEq, and_comm,
        List.append_eq_nil_iff, List.cons_ne_nil, List.dropLast_concat]
      exact (apply_ite some _ _ _).symm

/-- The spelling of a directory does not end in a slash, unless it is the top. -/
theorem exists_getLast?_ofPieces_trunk (hfront : ∀ piece ∈ front, '/' ∉ piece.toList)
    (hne : trunk front ≠ []) (htop : trunk front ≠ [""]) :
    ∃ c, c ≠ '/' ∧ (ofPieces (trunk front)).toList.getLast? = some c := by
  obtain ⟨inner, last, htrunk⟩ := (List.eq_nil_or_concat' (trunk front)).resolve_left hne
  have hlast : last ≠ "" := by
    rintro rfl
    cases front with
    | nil => exact hne rfl
    | cons first rest =>
        rw [trunk] at htrunk htop
        cases inner with
        | nil => exact htop htrunk
        | cons second inner =>
            -- the last piece is not the first one, so it has been looked at
            rw [List.cons_append, List.cons.injEq] at htrunk
            have hend : (Text.dropEndWhile isIdle rest).getLast? = some "" := by
              rw [htrunk.2, List.getLast?_concat]
            exact absurd (Text.eq_false_of_getLast?_dropEndWhile hend) (by decide)
  have hslash : '/' ∉ last.toList := hfront last <| mem_of_mem_trunk <| by
    rw [htrunk]
    exact List.mem_append_right _ List.mem_cons_self
  obtain ⟨c, hc⟩ : ∃ c, last.toList.getLast? = some c := by
    rw [← Option.ne_none_iff_exists', Ne, List.getLast?_eq_none_iff]
    simpa using hlast
  refine ⟨c, fun h => hslash (h ▸ List.mem_of_getLast? hc), ?_⟩
  rw [htrunk, getLast?_ofPieces hc]

theorem holder_ne_empty (hfront : ∀ piece ∈ front, '/' ∉ piece.toList) (hne : trunk front ≠ []) :
    holder front ≠ "" := by
  rw [holder]
  split
  · decide
  · rename_i htop
    obtain ⟨c, -, hend⟩ := exists_getLast?_ofPieces_trunk hfront hne htop
    intro hholder
    rw [hholder] at hend
    exact nomatch hend

theorem directoryPieces_holder (hfront : ∀ piece ∈ front, '/' ∉ piece.toList)
    (hne : trunk front ≠ []) : directoryPieces (holder front) = trunk front := by
  by_cases htop : trunk front = [""]
  · rw [holder, if_pos htop, htop]
    decide +kernel
  · have htrunk : ∀ piece ∈ trunk front, '/' ∉ piece.toList :=
      fun piece hpiece => hfront piece (mem_of_mem_trunk hpiece)
    obtain ⟨c, hslash, hend⟩ := exists_getLast?_ofPieces_trunk hfront hne htop
    have hopen : (ofPieces (trunk front)).toList.getLast? ≠ some '/' := by
      rw [hend]
      exact fun h => hslash (Option.some.inj h)
    rw [holder, if_neg htop, directoryPieces, if_neg hopen, pieces_ofPieces htrunk hne]

theorem pieces_join_holder (hfront : ∀ piece ∈ front, '/' ∉ piece.toList) (hname : IsName name) :
    pieces (join (holder front) name) = trunk front ++ [name] := by
  by_cases hne : trunk front = []
  · have hholder : holder front = "" := by
      rw [holder, hne]
      rfl
    rw [hholder, empty_join, hne, pieces_of_slash_not_mem hname.slash_not_mem]
    rfl
  · rw [pieces_join (holder_ne_empty hfront hne) hname, directoryPieces_holder hfront hne]

/-- A path with a file name lies where it lay with another one. -/
theorem parent?_withFileName {new : String} (h : fileName? path = some name) (hnew : IsName new) :
    fileName? (withFileName path new) = some new ∧
      parent? (withFileName path new) = parent? path := by
  obtain ⟨front, back, hpieces, hback, hname⟩ := exists_pieces_of_fileName? h
  have hfront : ∀ piece ∈ front, '/' ∉ piece.toList := fun piece hpiece =>
    slash_not_mem_of_mem_pieces (hpieces ▸ List.mem_append_left _ hpiece)
  have hparent := parent?_of_pieces hpieces hback hname.not_idle
  have hjoined := pieces_join_holder hfront hnew
  have hpath : withFileName path new = join (holder front) new := by
    rw [withFileName, h, hparent]
    rfl
  rw [hpath, hparent, fileName?_of_last hjoined hnew,
    parent?_of_pieces hjoined nofun hnew.not_idle, holder, trunk_trunk]
  exact ⟨rfl, rfl⟩

end BuildAtlas.Path
